import ContextKit.Transition.Run

/-!
# Alternating calls

Two opposite calls (`true` and `false`, say open and close) *alternate* for a key when each is
followed by the other.  A caller that alternates its calls per key is described on its list of
events alone; `along_of_alternates` turns that into a fact about the state before each call, for a
system whose state tells which of the two calls comes next.
-/

namespace Transition

variable {σ ε κ : Type*}

/-- The calls alternate, and the first of them is `b`. -/
def Alternates : Bool → List Bool → Prop
  | _, [] => True
  | b, c :: cs => c = b ∧ Alternates (!b) cs

instance decidableAlternates : (b : Bool) → (cs : List Bool) → Decidable (Alternates b cs)
  | _, [] => isTrue trivial
  | b, c :: cs =>
    have := decidableAlternates (!b) cs
    inferInstanceAs (Decidable (c = b ∧ Alternates (!b) cs))

@[simp] theorem alternates_nil (b : Bool) : Alternates b [] := trivial

@[simp] theorem alternates_cons {b c : Bool} {cs : List Bool} :
    Alternates b (c :: cs) ↔ c = b ∧ Alternates (!b) cs := Iff.rfl

/-- The call that comes next after calls that alternate. -/
def turn (b : Bool) : List Bool → Bool
  | [] => b
  | _ :: cs => turn (!b) cs

theorem turn_append_singleton (b c : Bool) (cs : List Bool) :
    turn b (cs ++ [c]) = !turn b cs := by
  induction cs generalizing b with
  | nil => rfl
  | cons d cs ih => exact ih (!b)

theorem alternates_append_singleton {b c : Bool} {cs : List Bool} :
    Alternates b (cs ++ [c]) ↔ Alternates b cs ∧ c = turn b cs := by
  induction cs generalizing b with
  | nil => simp [turn]
  | cons d cs ih =>
    rw [List.cons_append, alternates_cons, alternates_cons, ih, and_assoc]
    rfl

/-- Suppose the state tells, by `next`, which call of each key comes next: an event that is no call
of a key leaves `next` as it is there, and the expected call turns it over.  If the calls of every
key alternate from the start, every call of the run is the expected one. -/
theorem along_of_alternates {step : σ → ε → Option σ} {call : κ → ε → Option Bool}
    (next : σ → κ → Bool)
    (hother : ∀ s e t k, step s e = some t → call k e = none → next t k = next s k)
    (hcall : ∀ s e t k, step s e = some t → call k e = some (next s k) → next t k = !next s k)
    {s : σ} {es : List ε} (h : ∀ k, Alternates (next s k) (es.filterMap (call k))) :
    Along step (fun s e => ∀ k b, call k e = some b → b = next s k) s es := by
  induction es generalizing s with
  | nil => trivial
  | cons e es ih =>
    have hfirst : ∀ k b, call k e = some b → b = next s k := by
      intro k b hk
      have hk' := h k
      rw [List.filterMap_cons_some hk, alternates_cons] at hk'
      exact hk'.1
    refine ⟨hfirst, fun t ht => ih fun k => ?_⟩
    have hk' := h k
    cases hk : call k e with
    | none =>
      rw [List.filterMap_cons_none hk] at hk'
      rwa [hother s e t k ht hk]
    | some b =>
      rw [List.filterMap_cons_some hk, alternates_cons] at hk'
      obtain rfl := hfirst k b hk
      rw [hcall s e t k ht hk]
      exact hk'.2

end Transition
