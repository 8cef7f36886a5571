import ContextKit.Variant

/-!
# `PropertyPrivate`: the value a provider offers

A provider keeps its own intention (`value`, set at `timestamp`) apart from what it has last told
the subscribers (`emittedValue`, `emittedTimestamp`).  Setting the same value again only renews the
intention, unless another value has been `overheard` on the bus since the last emission.  On D-Bus a
value travels as a list that is empty for null.

While a property has a subscriber its value always is alike the emitted one: this is `Settled`, and
`setValue_silent`, `setValue_emits` and the lemmas on `updateOverheardValue` say what is left of each
slot then.
-/

namespace ContextProvider
open ContextKit

/-- The fields of `PropertyPrivate` that its slots use. -/
structure PropertyPrivate (V : Type) where
  value : V
  timestamp : ℕ
  subscribed : Bool
  emittedValue : V
  emittedTimestamp : ℕ
  overheard : Bool

/-- The D-Bus signal `ValueChanged`. -/
structure ValueChanged (V : Type) where
  values : List V
  timestamp : ℕ
  deriving DecidableEq

variable {V : Type} [QVariant V]

/-- A value as an argument of the signal. -/
def encode (v : V) : List V := if QVariant.isNull v then [] else [v]

/-- The argument of a signal as a value. -/
def decode : List V → V
  | [] => QVariant.invalid
  | v :: _ => v

theorem decode_encode (v : V) :
    decode (encode v) = if QVariant.isNull v then QVariant.invalid else v := by
  unfold encode
  split_ifs <;> rfl

theorem decode_encode_of_not_null {v : V} (h : QVariant.isNull v = false) :
    decode (encode v) = v := by simp [decode_encode, h]

@[simp] theorem isNull_decode_encode (v : V) :
    QVariant.isNull (decode (encode v)) = QVariant.isNull v := by
  rw [decode_encode]
  split_ifs with h
  · rw [QVariant.isNull_invalid, h]
  · rfl

theorem alike_decode_encode {a b : V} (h : Alike a b) :
    Alike (decode (encode a)) (decode (encode b)) := by
  rw [decode_encode, decode_encode, ← h.isNull_eq]
  split_ifs
  · exact Alike.refl _
  · exact h

/-- The argument of a signal is `v`, as far as the comparison tells. -/
def Carries (values : List V) (v : V) : Prop := Alike (decode values) (decode (encode v))

instance [DecidableEq V] (values : List V) (v : V) : Decidable (Carries values v) :=
  inferInstanceAs (Decidable (Alike _ _))

theorem Carries.isNull_eq {values : List V} {v : V} (h : Carries values v) :
    QVariant.isNull (decode values) = QVariant.isNull v := by
  rw [Alike.isNull_eq h, isNull_decode_encode]

/-- What a value that is not null is alike when it arrives. -/
theorem alike_of_carries {a b : V} (ha : QVariant.isNull a = false) (h : Carries (encode a) b) :
    Alike a b := by
  have hb : QVariant.isNull b = false := by rw [← h.isNull_eq, isNull_decode_encode, ha]
  unfold Carries at h
  rwa [decode_encode_of_not_null ha, decode_encode_of_not_null hb] at h

namespace PropertyPrivate

/-- The constructor, at the time `now`. -/
def init (now : ℕ) : PropertyPrivate V :=
  ⟨QVariant.invalid, now, false, QVariant.invalid, now, false⟩

/-- `PropertyAdaptor::Get` -/
def get (p : PropertyPrivate V) : ValueChanged V := ⟨encode p.value, p.timestamp⟩

/-- Whether the intention is what was emitted. -/
def upToDate (p : PropertyPrivate V) : Bool :=
  decide (p.emittedTimestamp = p.timestamp) && !differs p.emittedValue p.value

/-- Emits the intention, unless it is what was emitted last.  Without a subscriber only the
bookkeeping is done. -/
def emitValue (p : PropertyPrivate V) : PropertyPrivate V × Option (ValueChanged V) :=
  if p.upToDate then (p, none)
  else
    let p := { p with
      emittedValue := p.value, emittedTimestamp := p.timestamp, overheard := false }
    if !p.subscribed then (p, none)
    else (p, some ⟨encode p.value, p.timestamp⟩)

/-- Sets the value, at the time `now`. -/
def setValue (p : PropertyPrivate V) (v : V) (now : ℕ) :
    PropertyPrivate V × Option (ValueChanged V) :=
  let p := { p with timestamp := now, value := v }
  if differs p.value p.emittedValue then p.emitValue
  else if p.overheard then p.emitValue
  else (p, none)

/-- The first client has subscribed.  The result tells whether `firstSubscriberAppeared` is
emitted. -/
def setSubscribed (p : PropertyPrivate V) : PropertyPrivate V × Bool :=
  if p.subscribed = false then ({ p with subscribed := true }, true) else (p, false)

/-- The last client is gone.  The result tells whether `lastSubscriberDisappeared` is emitted. -/
def setUnsubscribed (p : PropertyPrivate V) : PropertyPrivate V × Bool :=
  if p.subscribed = true then ({ p with subscribed := false }, true) else (p, false)

/-- Another provider has been overheard sending the values `v`, set at the time `t`. -/
def updateOverheardValue (p : PropertyPrivate V) (v : List V) (t : ℕ) :
    PropertyPrivate V × Option (ValueChanged V) :=
  let overheardValue := decode v
  if p.emittedTimestamp < t ∧ QVariant.eq overheardValue p.emittedValue = false then
    { p with overheard := true }.emitValue
  else (p, none)

theorem emitValue_value (p : PropertyPrivate V) : p.emitValue.1.value = p.value := by
  unfold emitValue
  dsimp only
  split_ifs <;> rfl

theorem setValue_value (p : PropertyPrivate V) (v : V) (now : ℕ) :
    (p.setValue v now).1.value = v := by
  unfold setValue
  dsimp only
  split_ifs <;> simp [emitValue_value]

theorem updateOverheardValue_value (p : PropertyPrivate V) (v : List V) (t : ℕ) :
    (p.updateOverheardValue v t).1.value = p.value := by
  unfold updateOverheardValue
  dsimp only
  split_ifs <;> simp [emitValue_value]

/-- What a subscriber was last told. -/
def announcement (p : PropertyPrivate V) : ValueChanged V :=
  ⟨encode p.emittedValue, p.emittedTimestamp⟩

/-- `setValue` tells nobody: it takes the value for the emitted one. -/
def Withholds (p : PropertyPrivate V) (v : V) (now : ℕ) : Prop :=
  differs v p.emittedValue = false ∧ p.overheard = false ∨
    p.emittedTimestamp = now ∧ differs p.emittedValue v = false

instance (p : PropertyPrivate V) (v : V) (now : ℕ) : Decidable (p.Withholds v now) :=
  inferInstanceAs (Decidable (_ ∧ _ ∨ _ ∧ _))

theorem Withholds.alike {p : PropertyPrivate V} {v : V} {now : ℕ} (h : p.Withholds v now) :
    Alike v p.emittedValue := by
  rcases h with ⟨h, -⟩ | ⟨-, h⟩
  · exact .of_differs h
  · exact Alike.symm (.of_differs h)

theorem upToDate_iff {p : PropertyPrivate V} : p.upToDate = true ↔
    p.emittedTimestamp = p.timestamp ∧ differs p.emittedValue p.value = false := by
  simp [upToDate]

/-- What an emission is. -/
theorem emitValue_of_not_upToDate {p : PropertyPrivate V} (h : p.upToDate = false) :
    p.emitValue = ({ p with
      emittedValue := p.value, emittedTimestamp := p.timestamp, overheard := false },
      if p.subscribed then some ⟨encode p.value, p.timestamp⟩ else none) := by
  unfold emitValue
  rw [h]
  cases hs : p.subscribed <;> rfl

/-- Setting a value that is taken for the emitted one. -/
theorem setValue_silent {p : PropertyPrivate V} {v : V} {now : ℕ} (h : p.Withholds v now) :
    p.setValue v now = ({ p with timestamp := now, value := v }, none) := by
  unfold setValue
  dsimp only
  split_ifs with hd ho
  · have hup := h.resolve_left fun h => absurd (h.1.symm.trans hd) (by decide)
    exact if_pos (upToDate_iff.2 hup)
  · have hup := h.resolve_left fun h => absurd (h.2.symm.trans ho) (by decide)
    exact if_pos (upToDate_iff.2 hup)
  · rfl

/-- Setting any other value, or any value after another one has been overheard. -/
theorem setValue_emits {p : PropertyPrivate V} {v : V} {now : ℕ} (h : ¬ p.Withholds v now) :
    p.setValue v now = (⟨v, now, p.subscribed, v, now, false⟩,
      if p.subscribed then some ⟨encode v, now⟩ else none) := by
  simp only [Withholds, not_or] at h
  have hup : upToDate { p with timestamp := now, value := v } = false := by
    rw [Bool.eq_false_iff, Ne, upToDate_iff]
    exact h.2
  have hemit := emitValue_of_not_upToDate hup
  unfold setValue
  dsimp only
  by_cases hd : differs v p.emittedValue = true
  · rw [if_pos hd]
    exact hemit
  · have ho : p.overheard = true := by
      by_contra ho
      exact h.1 ⟨by simpa using hd, by simpa using ho⟩
    rw [if_neg hd, if_pos ho]
    exact hemit

/-! ### A property with a subscriber -/

/-- The property is subscribed and has told its subscribers its value, if not how new it is. -/
structure Settled (p : PropertyPrivate V) : Prop where
  subscribed : p.subscribed = true
  emitted : Alike p.value p.emittedValue
  le : p.emittedTimestamp ≤ p.timestamp

/-- One of the two time stamps is `s`. -/
def Stamped (p : PropertyPrivate V) (s : ℕ) : Prop := s = p.timestamp ∨ s = p.emittedTimestamp

theorem Settled.stamped_le {p : PropertyPrivate V} (hp : p.Settled) {s : ℕ} (h : p.Stamped s) :
    s ≤ p.timestamp := by
  have := hp.le
  rcases h with rfl | rfl
  · exact le_refl _
  · exact this

/-- One slot of a subscribed property ran between the times `clock` and `now`: `p` became `q` and
`m` was emitted. -/
structure Moves (clock now : ℕ) (p q : PropertyPrivate V) (m : Option (ValueChanged V)) : Prop where
  settled : q.Settled
  stamp : q.timestamp = p.timestamp ∨ clock < q.timestamp ∧ q.timestamp ≤ now
  emittedStamp : q.emittedTimestamp = p.emittedTimestamp ∨ q.emittedTimestamp = q.timestamp
  grows : p.emittedTimestamp ≤ q.emittedTimestamp
  isNull : QVariant.isNull q.emittedValue = QVariant.isNull p.emittedValue ∨
    clock < q.emittedTimestamp
  announced : m = some q.announcement ∨ m = none ∧ q.announcement = p.announcement
  remembers : p.overheard = true → p.timestamp = p.emittedTimestamp →
    q.overheard = true ∧ q.timestamp = q.emittedTimestamp ∨ clock < q.emittedTimestamp

/-- A slot brings no time stamp but the old ones and new ones. -/
theorem Moves.stamped {clock now : ℕ} {p q : PropertyPrivate V} {m : Option (ValueChanged V)}
    (h : p.Moves clock now q m) {s : ℕ} (hs : q.Stamped s) : p.Stamped s ∨ clock < s := by
  have hts : p.Stamped q.timestamp ∨ clock < q.timestamp := h.stamp.imp Or.inl And.left
  rcases hs with rfl | rfl
  · exact hts
  · rcases h.emittedStamp with he | he
    · exact Or.inl (Or.inr he)
    · rw [he]
      exact hts

theorem Settled.emittedStamp_lt {p : PropertyPrivate V} (hp : p.Settled) {clock now : ℕ}
    (hclock : p.timestamp ≤ clock) (hnow : clock < now) : p.emittedTimestamp < now := by
  have := hp.le
  omega

theorem settled_init (now : ℕ) : (init now : PropertyPrivate V).setSubscribed.1.Settled :=
  ⟨rfl, Alike.refl _, le_refl _⟩

/-- At a new time a property withholds only a value it takes for the emitted one although it has
overheard no other. -/
theorem Withholds.overheard {p : PropertyPrivate V} {v : V} {now : ℕ} (h : p.Withholds v now)
    (hnow : p.emittedTimestamp < now) : p.overheard = false := by
  rcases h with h | h
  · exact h.2
  · exact absurd h.1 hnow.ne

theorem setValue_moves {p : PropertyPrivate V} (hp : p.Settled) {clock now : ℕ}
    (hclock : p.timestamp ≤ clock) (hnow : clock < now) (v : V) :
    p.Moves clock now (p.setValue v now).1 (p.setValue v now).2 := by
  have hlt := hp.emittedStamp_lt hclock hnow
  by_cases h : p.Withholds v now
  · rw [setValue_silent h]
    exact {
      settled := ⟨hp.subscribed, h.alike, hlt.le⟩
      stamp := Or.inr ⟨hnow, le_refl _⟩
      emittedStamp := Or.inl rfl
      grows := le_refl _
      isNull := Or.inl rfl
      announced := Or.inr ⟨rfl, rfl⟩
      remembers := fun ho => absurd ((h.overheard hlt).symm.trans ho) (by decide) }
  · rw [setValue_emits h, if_pos hp.subscribed]
    exact {
      settled := ⟨hp.subscribed, Alike.refl _, le_refl _⟩
      stamp := Or.inr ⟨hnow, le_refl _⟩
      emittedStamp := Or.inr rfl
      grows := hlt.le
      isNull := Or.inr hnow
      announced := Or.inl rfl
      remembers := fun _ _ => Or.inr hnow }

/-- The overheard message leads the property astray: it emits its value once more although that is
not newer than the message, and so forgets that it has overheard it; or it takes for its own a value
that only compares equal to the emitted one. -/
def Misjudges (p : PropertyPrivate V) (v : List V) (t : ℕ) : Prop :=
  p.emittedTimestamp < t ∧
    (QVariant.eq (decode v) p.emittedValue = false ∧ p.upToDate = false ∧ p.timestamp ≤ t ∨
      QVariant.eq (decode v) p.emittedValue = true ∧ ¬ Carries v p.value)

instance [DecidableEq V] (p : PropertyPrivate V) (v : List V) (t : ℕ) :
    Decidable (p.Misjudges v t) :=
  inferInstanceAs (Decidable (_ ∧ (_ ∨ _)))

/-- What is left of the slot where the property does not misjudge the message: it is ignored, or
only remembered, or answered by a newer value. -/
theorem updateOverheardValue_cases {p : PropertyPrivate V} (hp : p.Settled) {v : List V} {t : ℕ}
    (hj : ¬ p.Misjudges v t) :
    p.updateOverheardValue v t = (p, none) ∧ (t ≤ p.emittedTimestamp ∨ Carries v p.value) ∨
      p.updateOverheardValue v t = ({ p with overheard := true }, none) ∧
        p.timestamp = p.emittedTimestamp ∨
      p.updateOverheardValue v t = ({ p with
          emittedValue := p.value, emittedTimestamp := p.timestamp, overheard := false },
          some ⟨encode p.value, p.timestamp⟩) ∧ p.emittedTimestamp < t ∧ t < p.timestamp := by
  unfold Misjudges at hj
  unfold updateOverheardValue
  dsimp only
  split_ifs with h
  · obtain ⟨ht, heq⟩ := h
    by_cases hu : p.upToDate = true
    · refine Or.inr (Or.inl ⟨?_, (upToDate_iff.1 hu).1.symm⟩)
      exact if_pos hu
    · rw [Bool.not_eq_true] at hu
      have hts : t < p.timestamp := by
        by_contra hle
        exact hj ⟨ht, Or.inl ⟨heq, hu, not_lt.1 hle⟩⟩
      refine Or.inr (Or.inr ⟨?_, ht, hts⟩)
      rw [emitValue_of_not_upToDate (p := { p with overheard := true }) hu]
      exact congrArg _ (if_pos hp.subscribed)
  · refine Or.inl ⟨rfl, ?_⟩
    by_cases ht : p.emittedTimestamp < t
    · have heq : QVariant.eq (decode v) p.emittedValue = true := by
        by_contra heq
        exact h ⟨ht, by simpa using heq⟩
      right
      by_contra hc
      exact hj ⟨ht, Or.inr ⟨heq, hc⟩⟩
    · exact Or.inl (not_lt.1 ht)

theorem updateOverheardValue_moves {p : PropertyPrivate V} (hp : p.Settled) {v : List V} {t : ℕ}
    (hj : ¬ p.Misjudges v t) (clock : ℕ) :
    p.Moves clock clock (p.updateOverheardValue v t).1 (p.updateOverheardValue v t).2 := by
  rcases updateOverheardValue_cases hp hj with ⟨h, -⟩ | ⟨h, -⟩ | ⟨h, ht, hts⟩ <;> rw [h]
  · exact {
      settled := hp
      stamp := Or.inl rfl
      emittedStamp := Or.inl rfl
      grows := le_refl _
      isNull := Or.inl rfl
      announced := Or.inr ⟨rfl, rfl⟩
      remembers := fun ho hst => Or.inl ⟨ho, hst⟩ }
  · exact {
      settled := ⟨hp.subscribed, hp.emitted, hp.le⟩
      stamp := Or.inl rfl
      emittedStamp := Or.inl rfl
      grows := le_refl _
      isNull := Or.inl rfl
      announced := Or.inr ⟨rfl, rfl⟩
      remembers := fun _ hst => Or.inl ⟨rfl, hst⟩ }
  · exact {
      settled := ⟨hp.subscribed, Alike.refl _, le_refl _⟩
      stamp := Or.inl rfl
      emittedStamp := Or.inr rfl
      grows := hp.le
      isNull := Or.inl hp.emitted.isNull_eq
      announced := Or.inl rfl
      -- A property that has nothing new would not have answered.
      remembers := fun _ hst => by omega }

/-- A message newer than what the property emits afterwards is of its own value, or remembered. -/
theorem updateOverheardValue_heard {p : PropertyPrivate V} (hp : p.Settled) {v : List V} {t : ℕ}
    (hj : ¬ p.Misjudges v t) (ht : (p.updateOverheardValue v t).1.emittedTimestamp < t) :
    Carries v (p.updateOverheardValue v t).1.value ∨
      (p.updateOverheardValue v t).1.overheard = true ∧
        (p.updateOverheardValue v t).1.timestamp =
          (p.updateOverheardValue v t).1.emittedTimestamp := by
  rcases updateOverheardValue_cases hp hj with ⟨h, hv⟩ | ⟨h, hst⟩ | ⟨h, -, hts⟩ <;> rw [h] at ht ⊢
  · exact Or.inl (hv.resolve_left (not_le.2 ht))
  · exact Or.inr ⟨rfl, hst⟩
  · exact absurd ht (not_lt.2 hts.le)

end PropertyPrivate

end ContextProvider
