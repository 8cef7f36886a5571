import Mathlib.Data.List.Induction
import Mathlib.Tactic.Common

/-!
# Runs of partial step functions

A system is given by a step function `step : σ → ε → Option σ`: `step s e` is the state after the
event `e`, and `none` when `e` cannot happen in `s`.  Every choice the environment has (which queued
event is delivered, what a peer replies) is part of the event, so a list of events determines its
run.

* `run` folds a list of events;
* `Along C` says that every step of a run starts in a state, and takes an event, that satisfy `C`;
* `history` folds a variable along a run that the system itself does not store;
* `run_inv`, `run_inv_along`, `run_induction`, `history_inv` are the induction rules: what every
  step preserves, every run preserves; `run_inv_over` and `run_inv_along_over` build one invariant
  on another;
* `Leads C` says that some events satisfying `C` get from one state to another.
-/

namespace Transition

variable {σ ε β : Type*}

/-- The state after a list of events, `none` if one of them cannot happen. -/
def run (step : σ → ε → Option σ) : σ → List ε → Option σ
  | s, [] => some s
  | s, e :: es => (step s e).bind fun t => run step t es

/-- `s` is reached from `s₀` by some list of events. -/
def Reachable (step : σ → ε → Option σ) (s₀ s : σ) : Prop := ∃ es, run step s₀ es = some s

/-- Every step of the run of `es` from `s` starts in a state and takes an event satisfying `C`. -/
def Along (step : σ → ε → Option σ) (C : σ → ε → Prop) : σ → List ε → Prop
  | _, [] => True
  | s, e :: es => C s e ∧ ∀ t, step s e = some t → Along step C t es

/-- The value of a history variable after `es`: it is updated from the state before each step and
the event of the step. -/
def history (step : σ → ε → Option σ) (upd : σ → ε → β → β) : σ → β → List ε → β
  | _, b, [] => b
  | s, b, e :: es =>
    match step s e with
    | none => b
    | some t => history step upd t (upd s e b) es

section

variable {step : σ → ε → Option σ}

@[simp] theorem run_nil (s : σ) : run step s [] = some s := rfl

theorem run_cons (s : σ) (e : ε) (es : List ε) :
    run step s (e :: es) = (step s e).bind fun t => run step t es := rfl

theorem run_cons_eq_some {s u : σ} {e : ε} {es : List ε} :
    run step s (e :: es) = some u ↔ ∃ t, step s e = some t ∧ run step t es = some u := by
  rw [run_cons, Option.bind_eq_some_iff]

theorem run_append (s : σ) (es fs : List ε) :
    run step s (es ++ fs) = (run step s es).bind fun t => run step t fs := by
  induction es generalizing s with
  | nil => rfl
  | cons e es ih =>
    rw [List.cons_append, run_cons, run_cons]
    cases step s e with
    | none => rfl
    | some t => exact ih t

theorem run_append_of_eq {s t : σ} {es fs : List ε} (h : run step s es = some t) :
    run step s (es ++ fs) = run step t fs := by
  rw [run_append, h]; rfl

theorem Reachable.refl (s : σ) : Reachable step s s := ⟨[], rfl⟩

theorem Reachable.run {s₀ s t : σ} {es : List ε} (h : Reachable step s₀ s)
    (ht : Transition.run step s es = some t) : Reachable step s₀ t := by
  obtain ⟨fs, hfs⟩ := h
  exact ⟨fs ++ es, by rw [run_append_of_eq hfs, ht]⟩

/-- **Invariants of guarded runs**: what every step meeting `C` preserves holds after a run all of
whose steps meet `C`. -/
theorem run_inv_along {P : σ → Prop} {C : σ → ε → Prop}
    (hstep : ∀ s e t, P s → C s e → step s e = some t → P t)
    {s t : σ} {es : List ε} (h0 : P s) (hC : Along step C s es) (h : run step s es = some t) :
    P t := by
  induction es generalizing s with
  | nil => cases h; exact h0
  | cons e es ih =>
    obtain ⟨u, hu, hrun⟩ := run_cons_eq_some.1 h
    exact ih (hstep s e u h0 hC.1 hu) (hC.2 u hu) hrun

/-- **Invariants of runs.** -/
theorem run_inv {P : σ → Prop} (hstep : ∀ s e t, P s → step s e = some t → P t)
    {s t : σ} {es : List ε} (h0 : P s) (h : run step s es = some t) : P t := by
  induction es generalizing s with
  | nil => cases h; exact h0
  | cons e es ih =>
    obtain ⟨u, hu, hrun⟩ := run_cons_eq_some.1 h
    exact ih (hstep s e u h0 hu) hrun

/-- **An invariant over another**: what every step meeting `C` preserves from the states of the
first. -/
theorem run_inv_along_over {P Q : σ → Prop} {C : σ → ε → Prop}
    (hP : ∀ s e t, P s → step s e = some t → P t)
    (hQ : ∀ s e t, P s → Q s → C s e → step s e = some t → Q t)
    {s t : σ} {es : List ε} (hp : P s) (hq : Q s) (hC : Along step C s es)
    (h : run step s es = some t) : Q t := by
  have hinv : P t ∧ Q t := by
    refine run_inv_along (P := fun s => P s ∧ Q s) (fun s e t hs hc hst => ?_) ⟨hp, hq⟩ hC h
    exact ⟨hP s e t hs.1 hst, hQ s e t hs.1 hs.2 hc hst⟩
  exact hinv.2

theorem run_inv_over {P Q : σ → Prop} (hP : ∀ s e t, P s → step s e = some t → P t)
    (hQ : ∀ s e t, P s → Q s → step s e = some t → Q t)
    {s t : σ} {es : List ε} (hp : P s) (hq : Q s) (h : run step s es = some t) : Q t := by
  have hinv : P t ∧ Q t := by
    refine run_inv (P := fun s => P s ∧ Q s) (fun s e t hs hst => ?_) ⟨hp, hq⟩ h
    exact ⟨hP s e t hs.1 hst, hQ s e t hs.1 hs.2 hst⟩
  exact hinv.2

theorem Reachable.inv {P : σ → Prop} (hstep : ∀ s e t, P s → step s e = some t → P t)
    {s₀ s : σ} (h0 : P s₀) (h : Reachable step s₀ s) : P s := by
  obtain ⟨es, hes⟩ := h
  exact run_inv hstep h0 hes

theorem Along.and {C D : σ → ε → Prop} {s : σ} {es : List ε} (hC : Along step C s es)
    (hD : Along step D s es) : Along step (fun s e => C s e ∧ D s e) s es := by
  induction es generalizing s with
  | nil => trivial
  | cons e es ih => exact ⟨⟨hC.1, hD.1⟩, fun t ht => ih (hC.2 t ht) (hD.2 t ht)⟩

theorem Along.cons {C : σ → ε → Prop} {s t : σ} {e : ε} {es : List ε} (hC : C s e)
    (ht : step s e = some t) (h : Along step C t es) : Along step C s (e :: es) :=
  ⟨hC, fun u hu => by
    obtain rfl : t = u := Option.some.inj (ht.symm.trans hu)
    exact h⟩

/-- What holds of every step taken from an invariant that the run keeps. -/
theorem Along.of_inv {P : σ → Prop} {C D : σ → ε → Prop}
    (hstep : ∀ s e t, P s → C s e → step s e = some t → P t) (hD : ∀ s e, P s → C s e → D s e)
    {s : σ} {es : List ε} (h0 : P s) (hC : Along step C s es) : Along step D s es := by
  induction es generalizing s with
  | nil => trivial
  | cons e es ih =>
    exact ⟨hD s e h0 hC.1, fun t ht => ih (hstep s e t h0 hC.1 ht) (hC.2 t ht)⟩

/-- A condition on the events alone. -/
theorem along_of_forall {C : ε → Prop} {s : σ} {es : List ε} (h : ∀ e ∈ es, C e) :
    Along step (fun _ e => C e) s es := by
  induction es generalizing s with
  | nil => trivial
  | cons e es ih =>
    rw [List.forall_mem_cons] at h
    exact ⟨h.1, fun t _ => ih h.2⟩

theorem Along.append {C : σ → ε → Prop} {s t : σ} {es fs : List ε} (hes : Along step C s es)
    (hrun : run step s es = some t) (hfs : Along step C t fs) : Along step C s (es ++ fs) := by
  induction es generalizing s with
  | nil => cases hrun; exact hfs
  | cons e es ih =>
    obtain ⟨u, hu, hrun'⟩ := run_cons_eq_some.1 hrun
    refine ⟨hes.1, fun v hv => ?_⟩
    obtain rfl : u = v := Option.some.inj (hu.symm.trans hv)
    exact ih (hes.2 u hu) hrun'

theorem along_append {C : σ → ε → Prop} {s t : σ} {es fs : List ε} (hrun : run step s es = some t) :
    Along step C s (es ++ fs) ↔ Along step C s es ∧ Along step C t fs := by
  refine ⟨fun h => ?_, fun h => h.1.append hrun h.2⟩
  induction es generalizing s with
  | nil => cases hrun; exact ⟨trivial, h⟩
  | cons e es ih =>
    obtain ⟨u, hu, hrun'⟩ := run_cons_eq_some.1 hrun
    obtain ⟨hes, hfs⟩ := ih hrun' (h.2 u hu)
    exact ⟨.cons h.1 hu hes, hfs⟩

/-- **Induction on the end of a run**, for properties of the whole list of events and the state it
leads to. -/
theorem run_induction {P : List ε → σ → Prop} {C : σ → ε → Prop} {s₀ : σ} (h0 : P [] s₀)
    (hstep : ∀ es s e t, run step s₀ es = some s → P es s → C s e → step s e = some t →
      P (es ++ [e]) t)
    {es : List ε} {s : σ} (hC : Along step C s₀ es) (h : run step s₀ es = some s) : P es s := by
  induction es using List.reverseRecOn generalizing s with
  | nil => cases h; exact h0
  | append_singleton es e ih =>
    rw [run_append, Option.bind_eq_some_iff] at h
    obtain ⟨t, ht, hlast⟩ := h
    obtain ⟨u, hu, hnil⟩ := run_cons_eq_some.1 hlast
    cases hnil
    obtain ⟨hes, he⟩ := (along_append ht).1 hC
    exact hstep es t e s ht (ih hes ht) he.1 hu

theorem history_cons {upd : σ → ε → β → β} {s t : σ} {b : β} {e : ε} {es : List ε}
    (h : step s e = some t) :
    history step upd s b (e :: es) = history step upd t (upd s e b) es := by
  simp only [history, h]

/-- **Invariants of a run and a history variable along it.** -/
theorem history_inv {P : σ → β → Prop} (upd : σ → ε → β → β)
    (hstep : ∀ s b e t, P s b → step s e = some t → P t (upd s e b))
    {s t : σ} {b : β} {es : List ε} (h0 : P s b) (h : run step s es = some t) :
    P t (history step upd s b es) := by
  induction es generalizing s b with
  | nil => cases h; exact h0
  | cons e es ih =>
    obtain ⟨u, hu, hrun⟩ := run_cons_eq_some.1 h
    rw [history_cons hu]
    exact ih (hstep s b e u h0 hu) hrun

end

/-! ### Getting somewhere -/

/-- Some events that satisfy `C` get from `s` to `t`. -/
def Leads (step : σ → ε → Option σ) (C : ε → Prop) (s t : σ) : Prop :=
  ∃ es, (∀ e ∈ es, C e) ∧ run step s es = some t

section

variable {step : σ → ε → Option σ} {C : ε → Prop} {s t u : σ}

theorem Leads.refl (s : σ) : Leads step C s s := ⟨[], by simp, rfl⟩

theorem Leads.of_step {e : ε} (he : C e) (h : step s e = some t) : Leads step C s t :=
  ⟨[e], List.forall_mem_singleton.2 he, run_cons_eq_some.2 ⟨t, h, rfl⟩⟩

theorem Leads.trans (h : Leads step C s t) (h' : Leads step C t u) : Leads step C s u := by
  obtain ⟨es, hes, hrun⟩ := h
  obtain ⟨fs, hfs, hrun'⟩ := h'
  refine ⟨es ++ fs, fun e he => ?_, (run_append_of_eq hrun).trans hrun'⟩
  exact (List.mem_append.1 he).elim (hes e) (hfs e)

/-- What such events preserve. -/
theorem Leads.inv {P : σ → Prop} (hstep : ∀ s e t, P s → C e → step s e = some t → P t)
    (h0 : P s) (h : Leads step C s t) : P t := by
  obtain ⟨es, hes, hrun⟩ := h
  exact run_inv_along hstep h0 (along_of_forall hes) hrun

end

end Transition
