import Mathlib.Algebra.BigOperators.Group.List.Basic
import Mathlib.Algebra.Order.BigOperators.Group.List
import ContextKit.Types.Duration

/-!
# Durations that are too long to be read

The pattern of a duration allows as many digits as one likes, of any script.  Each number is then
converted to a `qint64`, multiplied and added, and nothing looks whether the results fit.
-/

namespace ContextKit
open FieldPattern

namespace Duration

/-- The units, in the order of the fields. -/
def unitSizes : List ℕ :=
  [52 * NANOSECS_PER_WEEK + NANOSECS_PER_DAY, NANOSECS_PER_WEEK, NANOSECS_PER_DAY,
    NANOSECS_PER_HOUR, NANOSECS_PER_MIN, NANOSECS_PER_SEC]

/-- Count times unit, for each field. -/
def terms (list : List (List Char)) : List ℕ := List.zipWith (fun d u => count d * u) list unitSizes

/-- The texts of the fields of a duration. -/
def captures (duration : List Char) : List (List Char) := (exactMatch duration).getD []

/-- Every conversion, every product and every sum on the way is a number of 64 bits with sign. -/
structure Fits (list : List (List Char)) : Prop where
  conversions : ∀ d ∈ list, d ≠ [] → toLongLong d = some (count d)
  products : ∀ t ∈ terms list, t < 2 ^ 63
  sums : ∀ l, l <+: terms list → l.sum < 2 ^ 63

variable {list : List (List Char)}

theorem exactMatch_of_isDuration {duration : List Char} (h : isDuration duration = true) :
    exactMatch duration = some (captures duration) := by
  obtain ⟨list, hlist⟩ := Option.isSome_iff_exists.1 h
  rw [captures, hlist]
  rfl

/-- A duration has six fields. -/
theorem length_captures {duration : List Char} (h : isDuration duration = true) :
    (captures duration).length = 6 := by
  obtain ⟨-, hmatches⟩ := exactMatch_eq_some.1 (exactMatch_of_isDuration h)
  exact hmatches.length_eq

/-- A count is no longer than its field. -/
theorem exists_term_of_mem (hlength : list.length = 6) {d : List Char} (hd : d ∈ list) :
    ∃ t ∈ terms list, count d ≤ t := by
  obtain ⟨i, hi, rfl⟩ := List.mem_iff_getElem.1 hd
  have hunits : unitSizes.length = 6 := rfl
  have hpos : ∀ u ∈ unitSizes, 1 ≤ u := by decide
  have hterms : i < (terms list).length := by
    rw [terms, List.length_zipWith, hunits]
    omega
  refine ⟨(terms list)[i], List.getElem_mem hterms, ?_⟩
  simp only [terms, List.getElem_zipWith]
  exact Nat.le_mul_of_pos_right _ (hpos _ (List.getElem_mem _))

theorem sum_prefix_le {l m : List ℕ} (h : l <+: m) : l.sum ≤ m.sum := by
  obtain ⟨r, rfl⟩ := h
  rw [List.sum_append]
  exact Nat.le_add_right _ _

/-- Nothing is lost, exactly if the whole sum fits and the digits are known to the conversion. -/
theorem fits_iff (hlength : list.length = 6) :
    Fits list ↔ (∀ d ∈ list, ∀ c ∈ d, c.isDigit = true) ∧ (terms list).sum < 2 ^ 63 := by
  constructor
  · intro h
    refine ⟨fun d hd c hc => ?_, h.sums _ (List.prefix_refl _)⟩
    have hconv := h.conversions d hd (List.ne_nil_of_mem hc)
    unfold toLongLong at hconv
    exact List.all_eq_true.1 (Option.ite_some_none_eq_some.1 hconv).1.2.1 c hc
  · rintro ⟨hdigits, hsum⟩
    refine ⟨fun d hd hne => ?_, fun t ht => ?_, fun l hl => (sum_prefix_le hl).trans_lt hsum⟩
    · obtain ⟨t, ht, hle⟩ := exists_term_of_mem hlength hd
      have hlt := (hle.trans (List.single_le_sum (by simp) t ht)).trans_lt hsum
      exact if_pos ⟨hne, List.all_eq_true.2 (hdigits d hd), hlt⟩
    · exact (List.single_le_sum (by simp) t ht).trans_lt hsum

theorem captured_eq (h : Fits list) (i : ℕ) :
    captured list i = BitVec.ofNat 64 (count ((list[i]?).getD [])) := by
  unfold captured
  rcases hd : list[i]? with _ | d
  · rfl
  · rw [Option.getD_some]
    by_cases hne : d = []
    · rw [hne]
      rfl
    · rw [h.conversions d (List.mem_of_getElem? hd) hne]
      rfl

/-- Six fields with any units. -/
theorem sum_zipWith (y w d h m s : List Char) (a b c e f g : ℕ) :
    (List.zipWith (fun d u => count d * u) [y, w, d, h, m, s] [a, b, c, e, f, g]).sum =
      count y * a + count w * b + count d * c + count h * e + count m * f + count s * g := by
  simp [Nat.add_assoc]

/-- What fits is added up as it should be. -/
theorem toNat_sumOf (hlength : list.length = 6) (h : Fits list) :
    (sumOf list).toNat = (terms list).sum := by
  have hsum := h.sums _ (List.prefix_refl _)
  have heq : sumOf list = BitVec.ofNat 64 (terms list).sum := by
    unfold sumOf terms unitSizes
    simp only [captured_eq h]
    -- The units are left as they are.
    generalize 52 * NANOSECS_PER_WEEK + NANOSECS_PER_DAY = a
    generalize NANOSECS_PER_WEEK = b
    generalize NANOSECS_PER_DAY = c
    generalize NANOSECS_PER_HOUR = e
    generalize NANOSECS_PER_MIN = f
    generalize NANOSECS_PER_SEC = g
    match list, hlength with
    | [y, w, d, h, m, s], _ =>
      rw [sum_zipWith]
      simp only [BitVec.ofNat_add, BitVec.ofNat_mul]
      rfl
  have hlt : (terms list).sum < 2 ^ 64 :=
    hsum.trans (Nat.pow_lt_pow_right (by decide) (by decide))
  rw [heq, BitVec.toNat_ofNat, Nat.mod_eq_of_lt hlt]

/-- **When a duration is read without overflow.**  For a string that is a duration, every
conversion, product and sum fits and the result is the sum of its fields, exactly if that sum is
less than 2^63 and all digits are ASCII. -/
theorem ofString_exact_iff (duration : List Char) (h : isDuration duration = true) :
    (Fits (captures duration) ∧ ∀ memory, (ofString memory duration).toNanoSeconds.toNat =
        (terms (captures duration)).sum) ↔
      (∀ d ∈ captures duration, ∀ c ∈ d, c.isDigit = true) ∧
        (terms (captures duration)).sum < 2 ^ 63 := by
  have hlength := length_captures h
  constructor
  · exact fun hfits => (fits_iff hlength).1 hfits.1
  · intro hexact
    have hfits := (fits_iff hlength).2 hexact
    refine ⟨hfits, fun memory => ?_⟩
    rw [ofString, exactMatch_of_isDuration h]
    exact toNat_sumOf hlength hfits

theorem ofString_exact_iff_year :
    (Fits (captures "1y 30s".toList) ∧
        ∀ memory, (ofString memory "1y 30s".toList).toNanoSeconds.toNat =
          (terms (captures "1y 30s".toList)).sum) ↔
      (∀ d ∈ captures "1y 30s".toList, ∀ c ∈ d, c.isDigit = true) ∧
        (terms (captures "1y 30s".toList)).sum < 2 ^ 63 :=
  ofString_exact_iff _ (by decide)

/-- Six hundred years are taken for fifteen. -/
theorem exists_duration_overflows :
    ¬ ∀ duration : List Char, isDuration duration = true →
      Fits (captures duration) ∧ ∀ memory, (ofString memory duration).toNanoSeconds.toNat =
        (terms (captures duration)).sum := by
  intro h
  have hexact := (h "600Y".toList (by decide)).2 (withYears 0)
  revert hexact
  decide

end Duration

end ContextKit
