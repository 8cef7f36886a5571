import Mathlib.Algebra.Ring.Nat
import Mathlib.Data.Nat.Log
import Mathlib.Data.Rat.Init
import Mathlib.Algebra.Order.Ring.Unbundled.Rat
import Mathlib.Order.WithBot
import ContextKit.Types.AssocTree

/-!
# Values of every type, and their conversions

The values the library transports, with their dynamic type: unlike in `ContextKit.Variant`, where
values are only compared, the type check looks at the type and converts.

A double is a rational number, an infinity or not a number; that contains the doubles there are.  The
conversion of an integer to a double rounds to 53 bits, the even one of two equally near.
Conversions that parse or print text, or round a double, are `Conversions`: nothing is assumed of
them where it is not said.
-/

namespace ContextKit

/-- A double, `none` being not a number. -/
abbrev Double := Option (WithBot (WithTop ℚ))

/-- The comparison `<` of doubles, false if one of them is not a number. -/
def Double.lt : Double → Double → Bool
  | some a, some b => decide (a < b)
  | _, _ => false

/-- The comparison `≤` of doubles, false if one of them is not a number. -/
def Double.le : Double → Double → Bool
  | some a, some b => decide (a ≤ b)
  | _, _ => false

/-- What is not greater is less or equal, as far as the two can be compared. -/
theorem Double.le_iff (a b : Double) :
    Double.le a b = true ↔ Double.lt b a = false ∧ a ≠ none ∧ b ≠ none := by
  cases a <;> cases b <;> simp [Double.le, Double.lt]

/-- The double that is an integer, if there is one. -/
def Double.ofInt (n : ℤ) : Double := some (((n : ℚ) : WithTop ℚ) : WithBot (WithTop ℚ))

/-- The values of `QVariant` in use. -/
inductive Value
  | null
  | bool (b : Bool)
  | int (n : BitVec 32)
  | uint (n : BitVec 32)
  | longLong (n : BitVec 64)
  | uLongLong (n : BitVec 64)
  | double (d : Double)
  | string (s : String)
  | list (l : List Value)
  | map (m : List (String × Value))

/-- The conversions that are not modelled further. -/
structure Conversions where
  /-- `QString::toDouble`, zero for what is no number -/
  toDouble : String → Double
  /-- `QVariant::toInt` on a string: the low 32 bits of its number, zero for what is no number -/
  toInt : String → BitVec 32
  /-- `QVariant::toInt` on a double -/
  round : Double → BitVec 32
  /-- `QVariant::toString` on anything but a string -/
  toString : Value → String

/-- The nearest number with 53 significant bits. -/
def roundToDouble (m : ℕ) : ℕ :=
  let e := Nat.log 2 m - 52
  let q := m / 2 ^ e
  let r := m % 2 ^ e
  (if 2 * r > 2 ^ e ∨ 2 * r = 2 ^ e ∧ q % 2 = 1 then q + 1 else q) * 2 ^ e

theorem roundToDouble_pos {m : ℕ} (h : 0 < m) : 0 < roundToDouble m := by
  have hq : 0 < m / 2 ^ (Nat.log 2 m - 52) := by
    apply Nat.div_pos
    · calc 2 ^ (Nat.log 2 m - 52) ≤ 2 ^ Nat.log 2 m :=
            Nat.pow_le_pow_right (by omega) (Nat.sub_le _ _)
        _ ≤ m := Nat.pow_log_le_self 2 h.ne'
    · exact Nat.pow_pos (by omega)
  unfold roundToDouble
  dsimp only
  apply Nat.mul_pos
  · split_ifs <;> omega
  · exact Nat.pow_pos (by omega)

/-- The conversion of an integer to a double. -/
def intToDouble (n : ℤ) : Double := Double.ofInt (n.sign * roundToDouble n.natAbs)

theorem Double.lt_ofInt (a b : ℤ) : Double.lt (.ofInt a) (.ofInt b) = decide (a < b) := by
  apply decide_eq_decide.2
  exact (WithBot.coe_lt_coe.trans WithTop.coe_lt_coe).trans Rat.intCast_lt_intCast

/-- Rounding keeps the sign. -/
theorem intToDouble_neg (n : ℤ) : Double.lt (intToDouble n) (.ofInt 0) = decide (n < 0) := by
  rw [intToDouble, Double.lt_ofInt]
  rcases lt_trichotomy n 0 with hn | rfl | hn
  · have hpos : 0 < roundToDouble n.natAbs := roundToDouble_pos (by omega)
    rw [Int.sign_eq_neg_one_of_neg hn, decide_eq_true hn]
    exact decide_eq_true (by omega)
  · rfl
  · have hpos : 0 < roundToDouble n.natAbs := roundToDouble_pos (by omega)
    rw [Int.sign_eq_one_of_pos hn, decide_eq_false (not_lt.2 hn.le)]
    exact decide_eq_false (by omega)

theorem intToDouble_pos (n : ℤ) : Double.lt (.ofInt 0) (intToDouble n) = decide (0 < n) := by
  rw [intToDouble, Double.lt_ofInt]
  rcases lt_trichotomy n 0 with hn | rfl | hn
  · have hpos : 0 < roundToDouble n.natAbs := roundToDouble_pos (by omega)
    rw [Int.sign_eq_neg_one_of_neg hn, decide_eq_false (not_lt.2 hn.le)]
    exact decide_eq_false (by omega)
  · rfl
  · have hpos : 0 < roundToDouble n.natAbs := roundToDouble_pos (by omega)
    rw [Int.sign_eq_one_of_pos hn, decide_eq_true hn]
    exact decide_eq_true (by omega)

namespace Value

/-- The integer a value of one of the four integer types stands for. -/
def integer : Value → Option ℤ
  | int n => some n.toInt
  | uint n => some n.toNat
  | longLong n => some n.toInt
  | uLongLong n => some n.toNat
  | _ => none

/-- The number a value of a number type stands for. -/
def number : Value → Option Double
  | double d => some d
  | v => v.integer.map Double.ofInt

/-- `canConvert(QVariant::Double)` -/
def canConvertToDouble : Value → Bool
  | null | list _ | map _ => false
  | _ => true

/-- `toDouble` -/
def toDouble (conv : Conversions) : Value → Double
  | bool b => Double.ofInt (if b then 1 else 0)
  | double d => d
  | string s => conv.toDouble s
  | v =>
    match v.integer with
    | some n => intToDouble n
    | none => Double.ofInt 0

/-- `toInt`: of a wider integer, the low 32 bits. -/
def toInt (conv : Conversions) : Value → BitVec 32
  | bool b => if b then 1 else 0
  | double d => conv.round d
  | string s => conv.toInt s
  | v =>
    match v.integer with
    | some n => BitVec.ofInt 32 n
    | none => 0

/-- `toString` -/
def toString (conv : Conversions) : Value → String
  | string s => s
  | v => conv.toString v

/-- An integer that is a double, or no integer at all. -/
def Exact (v : Value) : Prop := ∀ n, v.integer = some n → intToDouble n = Double.ofInt n

theorem toDouble_of_number {conv : Conversions} {v : Value} (hv : v.Exact) {d : Double}
    (h : v.number = some d) : v.toDouble conv = d := by
  cases v with
  | double e => exact Option.some.inj h
  | int n => exact (hv _ rfl).trans (Option.some.inj h)
  | uint n => exact (hv _ rfl).trans (Option.some.inj h)
  | longLong n => exact (hv _ rfl).trans (Option.some.inj h)
  | uLongLong n => exact (hv _ rfl).trans (Option.some.inj h)
  | null | bool | string | list | map => cases h

theorem number_of_integer {v : Value} {n : ℤ} (h : v.integer = some n) :
    v.number = some (Double.ofInt n) := by
  cases v <;> first | cases h; rfl | cases h

theorem canConvert_of_number {v : Value} {d : Double} (h : v.number = some d) :
    v.canConvertToDouble = true := by
  cases v <;> first | rfl | cases h

end Value

end ContextKit
