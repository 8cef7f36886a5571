import Mathlib.Data.List.MinMax
import Mathlib.Tactic.Common

/-!
# Values and time stamps

The values of context properties are `QVariant`s.  The library compares them in one way only, by
`operator!=`, `isNull()` and `type()` together, and builds no other one than the invalid
`QVariant()`; so a value is taken from any type with these operations.  Nothing is assumed of
`operator==`.  It converts, also the elements of a list or a map, so that two lists may be equal to a
third one and not to each other; it depends on the order of its arguments, and it is not reflexive
on NaN.

* `differs` is the three-fold comparison of `PropertyPrivate::setValue`,
  `PropertyHandle::onValueChanged` and `ContextProperty::onValueChanged`;
* `Alike` is what that comparison leaves of equality;
* `TimedValue` is the value with its time stamp.
-/

namespace ContextKit

/-- The operations of `QVariant` that the library uses on values. -/
class QVariant (V : Type) where
  /-- `QVariant()` -/
  invalid : V
  isNull : V → Bool
  type : V → ℕ
  /-- `operator==` -/
  eq : V → V → Bool
  isNull_invalid : isNull invalid = true

variable {V : Type} [QVariant V]

/-- The test for a change: `a != b || a.isNull() != b.isNull() || a.type() != b.type()`. -/
def differs (a b : V) : Bool :=
  !QVariant.eq a b || QVariant.isNull a != QVariant.isNull b || QVariant.type a != QVariant.type b

theorem isNull_eq_of_differs {a b : V} (h : differs a b = false) :
    QVariant.isNull a = QVariant.isNull b := by
  simp only [differs, Bool.or_eq_false_iff, bne_eq_false_iff_eq] at h
  exact h.1.2

/-- The comparison does not tell the two values apart, in one order or the other.  It need not be
transitive. -/
def Alike (a b : V) : Prop := a = b ∨ differs a b = false ∨ differs b a = false

instance [DecidableEq V] (a b : V) : Decidable (Alike a b) :=
  inferInstanceAs (Decidable (_ ∨ _ ∨ _))

namespace Alike

@[simp] theorem refl (a : V) : Alike a a := Or.inl rfl

theorem of_differs {a b : V} (h : differs a b = false) : Alike a b := Or.inr (Or.inl h)

theorem symm {a b : V} (h : Alike a b) : Alike b a := by
  rcases h with rfl | h | h
  · exact refl a
  · exact Or.inr (Or.inr h)
  · exact Or.inr (Or.inl h)

theorem isNull_eq {a b : V} (h : Alike a b) : QVariant.isNull a = QVariant.isNull b := by
  rcases h with rfl | h | h
  · rfl
  · exact isNull_eq_of_differs h
  · exact (isNull_eq_of_differs h).symm

end Alike

/-- A value with the time stamp of the moment it was set. -/
structure TimedValue (V : Type) where
  value : V
  time : ℕ
  deriving DecidableEq

/-- `TimedValue::operator<` compares the time stamps. -/
def TimedValue.lt (a b : TimedValue V) : Bool := decide (a.time < b.time)

/-- Integers and null, as the library transports them: a `QVariant(int)` or the invalid variant. -/
instance : QVariant (Option ℤ) where
  invalid := none
  isNull := Option.isNone
  type v := if v.isSome then 2 else 0
  eq a b := decide (a = b)
  isNull_invalid := rfl

/-- Three values as elements of a list: `true`, `1` and `"true"`. -/
inductive ListElement
  | bool
  | int
  | string
  deriving DecidableEq

/-- `true` is equal to `1` as a number and to `"true"` as a text, and these two are not equal. -/
def ListElement.eq (a b : ListElement) : Bool := decide (a = b ∨ a = bool ∨ b = bool)

/-- Lists are compared element by element. -/
def ListElement.eqLists : Option (List ListElement) → Option (List ListElement) → Bool
  | none, none => true
  | some l, some m => decide (List.Forall₂ (fun a b => a.eq b = true) l m)
  | _, _ => false

/-- Lists of such elements, and null. -/
instance : QVariant (Option (List ListElement)) where
  invalid := none
  isNull := Option.isNone
  type v := if v.isSome then 9 else 0
  eq := ListElement.eqLists
  isNull_invalid := rfl

end ContextKit
