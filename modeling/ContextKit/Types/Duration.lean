import ContextKit.Text.FieldPattern
import ContextKit.Types.DumpXml

/-!
# `Duration`: a length of time, in nanoseconds and in units

A duration is made from a number of nanoseconds, which is taken apart into units once, or from a
string, whose fields are added up; with no argument, or with a string that is no duration, nothing
but the number of nanoseconds is set.

Hours, minutes and seconds are asked of a `QTime`.  The one that is made without arguments is the
null time, which stays null when something is added to it, and whose parts are all -1.
`decomposes_iff` says that nothing else is wrong with the decomposition.
-/

namespace ContextKit
open FieldPattern

/-! ### Texts -/

/-- The zeros of the decimal digits, as `QChar::isDigit` knows them. -/
def digitZeros : List ℕ :=
  [0x30, 0x660, 0x6F0, 0x7C0, 0x966, 0x9E6, 0xA66, 0xAE6, 0xB66, 0xBE6, 0xC66, 0xCE6, 0xD66, 0xDE6,
    0xE50, 0xED0, 0xF20, 0x1040, 0x1090, 0x17E0, 0x1810, 0x1946, 0x19D0, 0x1A80, 0x1A90, 0x1B50,
    0x1BB0, 0x1C40, 0x1C50, 0xA620, 0xA8D0, 0xA900, 0xA9D0, 0xA9F0, 0xAA50, 0xABF0, 0xFF10]

/-- `QChar::isDigit` -/
def isDigit (c : Char) : Bool := digitZeros.any fun z => z ≤ c.toNat && c.toNat ≤ z + 9

/-- White space as one blank, from a text that does not begin with it; the flag says that some comes
before. -/
def collapse : Bool → List Char → List Char
  | _, [] => []
  | blank, c :: s =>
    if isSpace c then collapse true s
    else if blank then ' ' :: c :: collapse false s
    else c :: collapse false s

/-- `QString::simplified` -/
def simplified (s : List Char) : List Char := collapse false (s.dropWhile isSpace)

/-- `QString::number` -/
def number (n : ℤ) : List Char := n.repr.toList

/-! ### The pattern -/

/-- What `QRegExp` takes for digits and spaces; the case of a letter makes no difference. -/
def regExpAlphabet : Alphabet Char := ⟨isDigit, isSpace, Char.toLower⟩

/-- The pattern of the six fields. -/
def re : List (Atom Char) :=
  [.field 'Y', .blanks, .field 'W', .blanks, .field 'D', .blanks, .field 'H', .blanks, .field 'M',
    .blanks, .field 'S']

/-- `exactMatch` and `matchedLength`, with the texts captured. -/
def exactMatch (duration : List Char) : Option (List (List Char)) :=
  if simplified duration = [] then none else capture regExpAlphabet re (simplified duration)

/-- `Duration::isDuration` -/
def isDuration (duration : List Char) : Bool := (exactMatch duration).isSome

/-- The number that a text of decimal digits stands for. -/
def count (digits : List Char) : ℕ :=
  digits.foldl (fun n c =>
    10 * n + (((digitZeros.find? fun z => z ≤ c.toNat && c.toNat ≤ z + 9).map
      (c.toNat - ·)).getD 0)) 0

/-- `QString::toLongLong` on a text of decimal digits: they have to be those of ASCII, and the
number has to fit. -/
def toLongLong (digits : List Char) : Option ℕ :=
  if digits ≠ [] ∧ digits.all Char.isDigit ∧ count digits < 2 ^ 63 then some (count digits)
  else none

/-! ### The time of a day -/

/-- A time of a day, in milliseconds; none is the null time. -/
abbrev QTime := Option ℕ

namespace QTime

def MSECS_PER_DAY : ℕ := 86400000

def addMSecs (t : QTime) (ms : ℕ) : QTime := t.map fun mds => (mds + ms) % MSECS_PER_DAY

def second (t : QTime) : ℤ := t.elim (-1) fun mds => ((mds / 1000 % 60 : ℕ) : ℤ)

def minute (t : QTime) : ℤ := t.elim (-1) fun mds => ((mds % 3600000 / 60000 : ℕ) : ℤ)

def hour (t : QTime) : ℤ := t.elim (-1) fun mds => ((mds / 3600000 : ℕ) : ℤ)

end QTime

/-! ### Durations -/

def NANOSECS_PER_MSEC : ℕ := 1000000
def NANOSECS_PER_SEC : ℕ := 1000 * NANOSECS_PER_MSEC
def NANOSECS_PER_MIN : ℕ := 60 * NANOSECS_PER_SEC
def NANOSECS_PER_HOUR : ℕ := 60 * NANOSECS_PER_MIN
def NANOSECS_PER_DAY : ℕ := 24 * NANOSECS_PER_HOUR
def NANOSECS_PER_WEEK : ℕ := 7 * NANOSECS_PER_DAY
def SECS_PER_DAY : ℕ := 86400
def MSECS_PER_DAY : ℕ := 1000 * SECS_PER_DAY
def DAYS_PER_YEAR : ℕ := 365
def DAYS_PER_WEEK : ℕ := 7

/-- The fields; the smaller ones are `int`s that never get near the end of the range. -/
structure Duration where
  totalNanoSecs_p : BitVec 64
  nanoSecs_p : ℤ
  seconds_p : ℤ
  minutes_p : ℤ
  hours_p : ℤ
  days_p : ℤ
  weeks_p : ℤ
  years_p : ℤ

namespace Duration

/-- `Duration()`, on memory that holds something. -/
def default (memory : Duration) : Duration := { memory with totalNanoSecs_p := 0 }

/-- The fields, with the time of the day given. -/
def ofTime (nanoSecs : BitVec 64) (reftime : QTime) : Duration :=
  let days := nanoSecs.toNat / NANOSECS_PER_DAY
  { totalNanoSecs_p := nanoSecs
    nanoSecs_p := (nanoSecs.toNat % NANOSECS_PER_SEC : ℕ)
    seconds_p := reftime.second
    minutes_p := reftime.minute
    hours_p := reftime.hour
    days_p := (days % DAYS_PER_YEAR % DAYS_PER_WEEK : ℕ)
    weeks_p := (days % DAYS_PER_YEAR / DAYS_PER_WEEK : ℕ)
    years_p := (days / DAYS_PER_YEAR : ℕ) }

/-- `Duration(quint64)`: the time of the day is reckoned from `QTime()`. -/
def ofNanoSecs (nanoSecs : BitVec 64) : Duration :=
  ofTime nanoSecs (QTime.addMSecs none (nanoSecs.toNat / NANOSECS_PER_MSEC % MSECS_PER_DAY))

/-- A captured text as a `qint64`: zero if the conversion fails. -/
def captured (list : List (List Char)) (i : ℕ) : BitVec 64 :=
  BitVec.ofNat 64 ((toLongLong ((list[i]?).getD [])).getD 0)

/-- The sum of the fields. -/
def sumOf (list : List (List Char)) : BitVec 64 :=
  let nanosec_year :=
    captured list 0 * BitVec.ofNat 64 (52 * NANOSECS_PER_WEEK + NANOSECS_PER_DAY)
  let nanosec_week := captured list 1 * BitVec.ofNat 64 NANOSECS_PER_WEEK
  let nanosec_day := captured list 2 * BitVec.ofNat 64 NANOSECS_PER_DAY
  let nanosec_hour := captured list 3 * BitVec.ofNat 64 NANOSECS_PER_HOUR
  let nanosec_min := captured list 4 * BitVec.ofNat 64 NANOSECS_PER_MIN
  let nanosec_sec := captured list 5 * BitVec.ofNat 64 NANOSECS_PER_SEC
  nanosec_year + nanosec_week + nanosec_day + nanosec_hour + nanosec_min + nanosec_sec

/-- `Duration(const QString &)`, on memory that holds something. -/
def ofString (memory : Duration) (duration : List Char) : Duration :=
  match exactMatch duration with
  | some list => ofNanoSecs (sumOf list)
  | none => { memory with totalNanoSecs_p := 0 }

/-- `operator==` -/
def equals (d other : Duration) : Bool := d.totalNanoSecs_p == other.totalNanoSecs_p

def nanoSecs (d : Duration) : ℤ := (d.totalNanoSecs_p.toNat % NANOSECS_PER_SEC : ℕ)
def seconds (d : Duration) : ℤ := d.seconds_p
def minutes (d : Duration) : ℤ := d.minutes_p
def hours (d : Duration) : ℤ := d.hours_p
def days (d : Duration) : ℤ := d.days_p
def weeks (d : Duration) : ℤ := d.weeks_p
def years (d : Duration) : ℤ := d.years_p
def toNanoSeconds (d : Duration) : BitVec 64 := d.totalNanoSecs_p

/-- A field that is not zero, with its letter. -/
def part (n : ℤ) (letter : String) : List Char := if n ≠ 0 then number n ++ letter.toList else []

def toString (d : Duration) : List Char :=
  simplified (part d.years_p "Y " ++ part d.weeks_p "W " ++ part d.days_p "D " ++
    part d.hours_p "H " ++ part d.minutes_p "M " ++
    if d.seconds_p ≠ 0 then part d.seconds_p "S"
    else if d.years_p = 0 ∧ d.weeks_p = 0 ∧ d.days_p = 0 ∧ d.hours_p = 0 ∧ d.minutes_p = 0 then
      "0S".toList
    else [])

end Duration

/-! ### Strings that are no duration -/

/-- `isSpace` of the character with a code. -/
def spaceCode (n : ℕ) : Bool :=
  9 ≤ n && n ≤ 13 || n = 0x20 || n = 0x85 || n = 0xA0 || n = 0x1680 || 0x2000 ≤ n && n ≤ 0x200A ||
    n = 0x2028 || n = 0x2029 || n = 0x202F || n = 0x205F || n = 0x3000

theorem isDigit_iff {c : Char} :
    isDigit c = true ↔ ∃ z ∈ digitZeros, z ≤ c.toNat ∧ c.toNat ≤ z + 9 := by
  simp [isDigit]

theorem isDigit_of_isSpace {c : Char} (h : isSpace c = true) : isDigit c = false := by
  have hcodes : ∀ z ∈ digitZeros, ∀ k < 10, spaceCode (z + k) = false := by decide
  by_contra hdigit
  obtain ⟨z, hz, hle, hge⟩ := isDigit_iff.1 (by simpa using hdigit)
  have hcode := hcodes z hz (c.toNat - z) (by omega)
  rw [Nat.add_sub_cancel' hle] at hcode
  exact absurd (h.symm.trans hcode) (by decide)

theorem isDigit_of_isAlpha {c : Char} (h : c.isAlpha = true) : isDigit c = false := by
  have hzeros : ∀ z ∈ digitZeros, z + 9 < 65 ∨ 122 < z := by decide
  have hrange : 65 ≤ c.toNat ∧ c.toNat ≤ 122 := by
    have hletter : (c.isUpper || c.isLower) = true := h
    rcases Bool.or_eq_true_iff.1 hletter with hupper | hlower
    · have hbounds : 65 ≤ c.val ∧ c.val ≤ 90 := of_decide_eq_true hupper
      rw [UInt32.le_iff_toNat_le, UInt32.le_iff_toNat_le] at hbounds
      exact ⟨hbounds.1, hbounds.2.trans (by decide)⟩
    · obtain ⟨hfrom, hto⟩ := Bool.and_eq_true_iff.1 hlower
      have hbounds : 97 ≤ c.val ∧ c.val ≤ 122 := ⟨of_decide_eq_true hfrom, of_decide_eq_true hto⟩
      rw [UInt32.le_iff_toNat_le, UInt32.le_iff_toNat_le] at hbounds
      exact ⟨le_trans (by decide) hbounds.1, hbounds.2⟩
  by_contra hdigit
  obtain ⟨z, hz, hle, hge⟩ := isDigit_iff.1 (by simpa using hdigit)
  have hz' := hzeros z hz
  omega

theorem isAlpha_of_toLower {c : Char} (h : c.toLower.isAlpha = true) : c.isAlpha = true := by
  unfold Char.toLower at h
  split at h
  · rename_i hupper
    have hc : c.isUpper = true := decide_eq_true hupper
    exact Bool.or_eq_true_iff.2 (.inl hc)
  · exact h

theorem wellFormed_re : WellFormed regExpAlphabet re where
  space _ h := isDigit_of_isSpace h
  letter u hu c hc := by
    have hletters : letters re = ['Y', 'W', 'D', 'H', 'M', 'S'] := rfl
    rw [hletters] at hu
    simp only [List.mem_cons, List.not_mem_nil, or_false] at hu
    have hc' : c.toLower = u.toLower := hc
    have hu' : u.toLower.isAlpha = true := by
      rcases hu with rfl | rfl | rfl | rfl | rfl | rfl <;> rfl
    exact isDigit_of_isAlpha (isAlpha_of_toLower (hc' ▸ hu'))
  nodup := by decide

/-- What is captured is what the pattern, as a regular expression, matches. -/
theorem exactMatch_eq_some {duration : List Char} {list : List (List Char)} :
    exactMatch duration = some list ↔
      simplified duration ≠ [] ∧ Matches regExpAlphabet re (simplified duration) list := by
  rw [exactMatch, Option.ite_none_left_eq_some, capture_eq_some wellFormed_re]

theorem mem_collapse {b : Bool} {s : List Char} {c : Char} (hc : c ∈ s) (h : isSpace c = false) :
    c ∈ collapse b s := by
  induction s generalizing b with
  | nil => cases hc
  | cons x s ih =>
    rw [collapse]
    rcases List.mem_cons.1 hc with rfl | hc
    · rw [h]
      cases b <;> simp
    · split_ifs
      · exact ih hc
      · exact List.mem_cons_of_mem _ (List.mem_cons_of_mem _ (ih hc))
      · exact List.mem_cons_of_mem _ (ih hc)

theorem mem_simplified {s : List Char} {c : Char} (hc : c ∈ s) (h : isSpace c = false) :
    c ∈ simplified s := by
  refine mem_collapse ?_ h
  rw [← List.takeWhile_append_dropWhile (p := isSpace) (l := s), List.mem_append] at hc
  refine hc.resolve_left fun htake => ?_
  rw [List.mem_takeWhile_imp htake] at h
  cases h

/-- A string with a minus in it is no duration. -/
theorem exactMatch_of_minus {s : List Char} (h : '-' ∈ s) : exactMatch s = none := by
  by_contra hmatch
  obtain ⟨caps, hcaps⟩ := Option.ne_none_iff_exists'.1 hmatch
  obtain ⟨-, hmatches⟩ := exactMatch_eq_some.1 hcaps
  rcases hmatches.mem (mem_simplified h (by decide)) with hc | hc | ⟨u, hu, hc⟩
  · exact absurd hc (by decide)
  · exact absurd hc (by decide)
  · have hletters : (letters re).all (fun u => '-' ≠ u.toLower) = true := by decide
    exact of_decide_eq_true (List.all_eq_true.1 hletters u hu) hc

namespace Duration

/-! ### The decomposition -/

/-- The parts of a duration are in their ranges, and are `n` nanoseconds together. -/
structure Decomposes (d : Duration) (n : ℕ) : Prop where
  seconds : 0 ≤ d.seconds ∧ d.seconds < 60
  minutes : 0 ≤ d.minutes ∧ d.minutes < 60
  hours : 0 ≤ d.hours ∧ d.hours < 24
  days : 0 ≤ d.days ∧ d.days < 7
  weeks : 0 ≤ d.weeks ∧ d.weeks ≤ 52
  years : 0 ≤ d.years
  total : (((((d.years * 365 + d.weeks * 7 + d.days) * 24 + d.hours) * 60 + d.minutes) * 60 +
    d.seconds) * 1000000000 + d.nanoSecs : ℤ) = n

/-- The parts are right, exactly if the time of the day is there, and is right to the second. -/
theorem decomposes_iff (nanoSecs : BitVec 64) (reftime : QTime) :
    (ofTime nanoSecs reftime).Decomposes nanoSecs.toNat ↔
      ∃ mds < 86400000, reftime = some mds ∧ mds / 1000 = nanoSecs.toNat / 1000000000 % 86400 := by
  have hunfold : (ofTime nanoSecs reftime).Decomposes nanoSecs.toNat ↔
      (0 ≤ reftime.second ∧ reftime.second < 60) ∧ (0 ≤ reftime.minute ∧ reftime.minute < 60) ∧
        (0 ≤ reftime.hour ∧ reftime.hour < 24) ∧
        (reftime.hour * 60 + reftime.minute) * 60 + reftime.second =
          (nanoSecs.toNat / 1000000000 % 86400 : ℕ) := by
    -- The years, weeks and days are the days, and those and the rest of the seconds all seconds.
    have hdays : nanoSecs.toNat / NANOSECS_PER_DAY = nanoSecs.toNat / 1000000000 / 86400 := by
      rw [Nat.div_div_eq_div_mul]
      rfl
    constructor
    · intro h
      refine ⟨h.seconds, h.minutes, h.hours, ?_⟩
      have htotal := h.total
      simp only [years, weeks, days, hours, minutes, seconds, Duration.nanoSecs, ofTime, hdays,
        DAYS_PER_YEAR, DAYS_PER_WEEK, NANOSECS_PER_SEC, NANOSECS_PER_MSEC] at htotal
      omega
    · rintro ⟨hsecond, hminute, hhour, htime⟩
      refine ⟨hsecond, hminute, hhour, ?_, ?_, ?_, ?_⟩ <;>
        simp only [years, weeks, days, hours, minutes, seconds, Duration.nanoSecs, ofTime, hdays,
          DAYS_PER_YEAR, DAYS_PER_WEEK, NANOSECS_PER_SEC, NANOSECS_PER_MSEC] <;>
        omega
  rw [hunfold]
  cases reftime with
  | none => simp [QTime.second]
  | some mds =>
    simp only [QTime.second, QTime.minute, QTime.hour, Option.elim_some, Option.some.injEq]
    constructor
    · rintro ⟨-, -, hhour, htime⟩
      exact ⟨mds, by omega, rfl, by omega⟩
    · rintro ⟨_, hmds, rfl, htime⟩
      exact ⟨by omega, by omega, by omega, by omega⟩

/-- **How durations decompose, and how they are read back.**  The parts of a number of nanoseconds
are never in their ranges, for the time of the day is the null time; and what is printed is read
back as nothing, which is right exactly for less than a second. -/
theorem not_decomposes (nanoSecs : BitVec 64) :
    ¬ (ofNanoSecs nanoSecs).Decomposes nanoSecs.toNat ∧
      (nanoSecs.toNat < 2 ^ 63 →
        ((∀ memory, (ofString memory (ofNanoSecs nanoSecs).toString).toNanoSeconds.toNat =
            nanoSecs.toNat - nanoSecs.toNat % 1000000000) ↔ nanoSecs.toNat < 1000000000)) := by
  have hread : ∀ memory,
      (ofString memory (ofNanoSecs nanoSecs).toString).toNanoSeconds.toNat = 0 := by
    intro memory
    have hminus : '-' ∈ (ofNanoSecs nanoSecs).toString := by
      refine mem_simplified ?_ (by decide)
      have hpart : '-' ∈ part (ofNanoSecs nanoSecs).hours_p "H " := by
        rw [show (ofNanoSecs nanoSecs).hours_p = -1 from rfl]
        decide
      simp only [List.mem_append]
      tauto
    rw [ofString, exactMatch_of_minus hminus]
    rfl
  refine ⟨fun h => ?_, fun _ => ?_⟩
  · obtain ⟨mds, -, hnull, -⟩ := (decomposes_iff _ _).1 h
    cases hnull
  · constructor
    · intro h
      have hzero := (hread (default ⟨0, 0, 0, 0, 0, 0, 0, 0⟩)).symm.trans (h _)
      omega
    · intro h memory
      rw [hread]
      omega

theorem exists_parts_negative :
    ¬ ∀ nanoSecs : BitVec 64, (ofNanoSecs nanoSecs).Decomposes nanoSecs.toNat ∧
      (nanoSecs.toNat < 2 ^ 63 →
        ∀ memory, (ofString memory (ofNanoSecs nanoSecs).toString).toNanoSeconds.toNat =
          nanoSecs.toNat - nanoSecs.toNat % 1000000000) := by
  intro h
  exact absurd (h 97959392000000000).1.seconds.1 (by decide)

/-! ### Equality -/

/-- The ways to make a duration. -/
inductive Construction
  | default
  | ofNanoSecs (nanoSecs : BitVec 64)
  | ofString (duration : List Char)

/-- The object made, in memory that held something before. -/
def build (memory : Duration) : Construction → Duration
  | .default => default memory
  | .ofNanoSecs nanoSecs => Duration.ofNanoSecs nanoSecs
  | .ofString duration => Duration.ofString memory duration

/-- What the arguments come to. -/
def Construction.nanoseconds : Construction → BitVec 64
  | .default => 0
  | .ofNanoSecs nanoSecs => nanoSecs
  | .ofString duration => ((exactMatch duration).map sumOf).getD 0

/-- The fields are all set: there is an argument, and it is a number or a duration. -/
def Construction.SetsAll : Construction → Prop
  | .default => False
  | .ofNanoSecs _ => True
  | .ofString duration => isDuration duration = true

/-- Nothing can be seen that is different. -/
structure LooksEqual (a b : Duration) : Prop where
  nanoSecs : a.nanoSecs = b.nanoSecs
  seconds : a.seconds = b.seconds
  minutes : a.minutes = b.minutes
  hours : a.hours = b.hours
  days : a.days = b.days
  weeks : a.weeks = b.weeks
  years : a.years = b.years
  toString : a.toString = b.toString

theorem build_of_setsAll {c : Construction} (h : c.SetsAll) (memory : Duration) :
    build memory c = Duration.ofNanoSecs c.nanoseconds := by
  cases c with
  | default => cases h
  | ofNanoSecs nanoSecs => rfl
  | ofString duration =>
    obtain ⟨list, hlist⟩ := Option.isSome_iff_exists.1 h
    rw [build, Duration.ofString, Construction.nanoseconds, hlist]
    rfl

/-- Otherwise only the number of nanoseconds is set. -/
theorem build_of_not_setsAll {c : Construction} (h : ¬ c.SetsAll) (memory : Duration) :
    build memory c = { memory with totalNanoSecs_p := c.nanoseconds } := by
  cases c with
  | default => rfl
  | ofNanoSecs nanoSecs => exact absurd trivial h
  | ofString duration =>
    have hnone : exactMatch duration = none := by
      rw [← Option.not_isSome_iff_eq_none]
      exact h
    rw [build, Duration.ofString, Construction.nanoseconds, hnone]
    rfl

theorem total_build (memory : Duration) (c : Construction) :
    (build memory c).totalNanoSecs_p = c.nanoseconds := by
  by_cases h : c.SetsAll
  · rw [build_of_setsAll h]
    rfl
  · rw [build_of_not_setsAll h]

theorem equals_build (memory memory' : Duration) (c c' : Construction) :
    equals (build memory c) (build memory' c') = true ↔ c.nanoseconds = c'.nanoseconds := by
  rw [equals, beq_iff_eq, total_build, total_build]

/-- Memory that held another number of years. -/
def withYears (n : ℤ) : Duration := ⟨0, 0, 0, 0, 0, 0, 0, n⟩

/-- **When equal durations look equal**, whatever the memory held: exactly if all fields of both are
set, or they are different anyway. -/
theorem looksEqual_iff (c c' : Construction) :
    (∀ memory memory', equals (build memory c) (build memory' c') = true →
        LooksEqual (build memory c) (build memory' c')) ↔
      (c.SetsAll ∧ c'.SetsAll) ∨ c.nanoseconds ≠ c'.nanoseconds := by
  constructor
  · intro h
    by_contra hnot
    rw [not_or, not_not] at hnot
    obtain ⟨hset, htotal⟩ := hnot
    -- Where a field is not set, the memory may have held one year more than the other has.
    by_cases hc : c.SetsAll
    · have hc' : ¬ c'.SetsAll := fun hc' => hset ⟨hc, hc'⟩
      have hlook := (h (withYears 0) (withYears ((build (withYears 0) c).years + 1))
        ((equals_build _ _ c c').2 htotal)).years
      rw [build_of_not_setsAll hc'] at hlook
      simp only [years, withYears] at hlook
      omega
    · have hlook := (h (withYears ((build (withYears 0) c').years + 1)) (withYears 0)
        ((equals_build _ _ c c').2 htotal)).years
      rw [build_of_not_setsAll hc] at hlook
      simp only [years, withYears] at hlook
      omega
  · rintro (⟨hc, hc'⟩ | hne) memory memory' heq
    · rw [equals_build] at heq
      rw [build_of_setsAll hc, build_of_setsAll hc', heq]
      exact ⟨rfl, rfl, rfl, rfl, rfl, rfl, rfl, rfl⟩
    · exact absurd ((equals_build _ _ c c').1 heq) hne

/-- No time at all, made without an argument where seven years were before, and from zero. -/
theorem exists_equal_looks_different :
    equals (build (withYears 7) .default) (build (withYears 0) (.ofNanoSecs 0)) = true ∧
      ¬ LooksEqual (build (withYears 7) .default) (build (withYears 0) (.ofNanoSecs 0)) :=
  ⟨rfl, fun h => absurd h.years (by decide)⟩

end Duration

end ContextKit
