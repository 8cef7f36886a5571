import Mathlib.Logic.Relation
import ContextKit.Subscriber.ContextProperty

/-!
# What an unsubscribed `ContextProperty` still says

`unsubscribe` cuts the connection to the handle, but the calls of `onValueChanged` that are queued
already are delivered all the same, and the slot does not look at `subscribed`.  So an object that
is unsubscribed while a call is queued may still emit `valueChanged`.  `silence` says that there is
no other way, and `staysSilent_iff` that this is one whenever the handle can come to a value that
differs.
-/

namespace ContextSubscriber
open ContextKit Transition

namespace Listeners

variable {P O V : Type} [QVariant V] [DecidableEq O]

/-- An object that is not subscribed emits `valueChanged` in the course of an event. -/
def SpeaksUnsubscribed (s : Listeners P O V) (e : ListenersEvent O V) : Prop :=
  ∃ t o c d, s.step e = some t ∧ s.objects o = some c ∧ c.subscribed = false ∧
    t.objects o = some d ∧ c.emitted < d.emitted

omit [QVariant V] [DecidableEq O] in
/-- An object is unsubscribed while a call of its slot is queued. -/
def UnsubscribesQueued (s : Listeners P O V) (e : ListenersEvent O V) : Prop :=
  ∃ o c, e = .unsubscribe o ∧ s.objects o = some c ∧ c.subscribed = true ∧ 0 < c.queued

/-- Nothing that can happen makes `o` emit, as long as nobody subscribes it again. -/
def StaysSilent (s : Listeners P O V) (o : O) (n : ℕ) : Prop :=
  ∀ es t d, (∀ e ∈ es, e ≠ .subscribe o ∧ e ≠ .create o) → run step s es = some t →
    t.objects o = some d → d.emitted = n

/-! ### Nothing queued for an unsubscribed object -/

/-- No call is queued for an object that is not subscribed. -/
def Quiet (s : Listeners P O V) : Prop :=
  ∀ o c, s.objects o = some c → c.subscribed = false → c.queued = 0

theorem quiet_step {s t : Listeners P O V} {e : ListenersEvent O V} (h : s.Quiet)
    (hC : ¬ s.UnsubscribesQueued e) (hstep : s.step e = some t) : t.Quiet := by
  intro o
  have ho := objectStep hstep o
  generalize t.objects o = d at ho ⊢
  generalize t.handle.myValue = v at ho
  intro c hc hsub
  cases ho with
  | unchanged => exact h o c hc hsub
  | changed hd =>
    obtain ⟨b, hb, rfl⟩ := Option.map_eq_some_iff.1 hc
    by_cases hs : b.subscribed = true
    · rw [ContextProperty.notify, if_pos hs] at hsub
      exact absurd (hsub.symm.trans hs) (by decide)
    · rw [ContextProperty.notify, if_neg hs] at hsub ⊢
      exact h o b hb hsub
  | @delivered b hb hpos =>
    -- There was no call to deliver.
    obtain rfl := Option.some.inj hc
    have hbs : b.subscribed = false := by
      unfold ContextProperty.onValueChanged at hsub
      dsimp only at hsub
      split_ifs at hsub <;> exact hsub
    have := h o b hb hbs
    omega
  | created hb =>
    obtain rfl := Option.some.inj hc
    cases hsub
  | subscribed hb hs =>
    obtain rfl := Option.some.inj hc
    cases hsub
  | @unsubscribed b hb hs =>
    obtain rfl := Option.some.inj hc
    by_contra hq
    exact hC ⟨o, b, rfl, hb, hs, Nat.pos_of_ne_zero hq⟩
  | destroyed => cases hc

/-- The only event that makes an object emit is the delivery of a call. -/
theorem queued_of_emits {s t : Listeners P O V} {e : ListenersEvent O V} {o : O}
    {c d : ContextProperty V} (hstep : s.step e = some t) (hc : s.objects o = some c)
    (hd : t.objects o = some d) (hlt : c.emitted < d.emitted) :
    e = .deliver o ∧ 0 < c.queued := by
  have ho := objectStep hstep o
  generalize t.objects o = d' at ho hd
  generalize t.handle.myValue = v at ho
  cases ho with
  | unchanged =>
    obtain rfl := Option.some.inj (hc.symm.trans hd)
    exact absurd hlt (lt_irrefl _)
  | changed _ =>
    rw [hc, Option.map_some, Option.some.injEq] at hd
    subst hd
    unfold ContextProperty.notify at hlt
    split_ifs at hlt <;> exact absurd hlt (lt_irrefl _)
  | delivered hb hpos =>
    obtain rfl := Option.some.inj (hb.symm.trans hc)
    exact ⟨rfl, hpos⟩
  | created hb => exact absurd (hb.symm.trans hc) (by simp)
  | subscribed hb _ | unsubscribed hb _ =>
    obtain rfl := Option.some.inj (hb.symm.trans hc)
    obtain rfl := Option.some.inj hd
    exact absurd hlt (lt_irrefl _)
  | destroyed => cases hd

theorem not_speaksUnsubscribed {s : Listeners P O V} {e : ListenersEvent O V} (h : s.Quiet) :
    ¬ s.SpeaksUnsubscribed e := by
  rintro ⟨t, o, c, d, hstep, hc, hsub, hd, hlt⟩
  have hq := (queued_of_emits hstep hc hd hlt).2
  rw [h o c hc hsub] at hq
  exact absurd hq (lt_irrefl _)

/-! ### One `unsubscribe` -/

/-- A handle with the value `x` can come to the value `v`. -/
def Reaches (x v : V) : Prop := Relation.ReflTransGen (fun a b => differs a b = true) x v

/-- The object is gone, or it is unsubscribed, has emitted `n` times and no call can make it emit
again. -/
def SilentWith (s : Listeners P O V) (o : O) (n : ℕ) : Prop :=
  ∀ c, s.objects o = some c → c.subscribed = false ∧ c.emitted = n ∧
    (c.queued = 0 ∨ ∀ v, Reaches s.handle.myValue v → differs c.value v = false)

theorem silentWith_step {s t : Listeners P O V} {e : ListenersEvent O V} {o : O} {n : ℕ}
    (h : s.SilentWith o n) (he : e ≠ .subscribe o ∧ e ≠ .create o) (hstep : s.step e = some t) :
    t.SilentWith o n := by
  unfold SilentWith at h ⊢
  have ho := objectStep hstep o
  generalize t.objects o = d at ho ⊢
  generalize t.handle.myValue = v at ho ⊢
  intro c hc
  cases ho with
  | unchanged => exact h c hc
  | changed hd =>
    obtain ⟨b, hb, rfl⟩ := Option.map_eq_some_iff.1 hc
    obtain ⟨hs, hn, hsilent⟩ := h b hb
    rw [ContextProperty.notify, if_neg (ne_true_of_eq_false hs)]
    -- Whatever the handle can come to now it could come to before.
    exact ⟨hs, hn, hsilent.imp_right fun hv w hw => hv w (.head hd hw)⟩
  | @delivered b hb hpos =>
    obtain rfl := Option.some.inj hc
    obtain ⟨hs, hn, hq | hv⟩ := h b hb
    · omega
    · unfold ContextProperty.onValueChanged
      dsimp only
      rw [if_neg (ne_true_of_eq_false (hv _ .refl))]
      exact ⟨hs, hn, Or.inr hv⟩
  | created _ => exact absurd rfl he.2
  | subscribed _ _ => exact absurd rfl he.1
  | unsubscribed hb hs => exact absurd (hs.symm.trans (h _ hb).1) (by decide)
  | destroyed => cases hc

/-- What happens to a silent object leaves it silent. -/
theorem StaysSilent.step {s t : Listeners P O V} {e : ListenersEvent O V} {o : O} {n : ℕ}
    (h : s.StaysSilent o n) (he : e ≠ .subscribe o ∧ e ≠ .create o) (hstep : s.step e = some t) :
    t.StaysSilent o n := by
  intro es u d hes hrun hd
  refine h (e :: es) u d (List.forall_mem_cons.2 ⟨he, hes⟩) ?_ hd
  rw [run_cons, hstep]
  exact hrun

/-- A call that is queued makes the object emit once the handle has a value that differs from its
copy. -/
theorem exists_emission {s : Listeners P O V} {o : O} {c : ContextProperty V} {v : V}
    (hc : s.objects o = some c) (hsub : c.subscribed = false) (hq : 0 < c.queued)
    (hreach : Reaches s.handle.myValue v) (hv : differs c.value v = true) :
    ¬ s.StaysSilent o c.emitted := by
  intro h
  generalize hx : s.handle.myValue = x at hreach
  induction hreach using Relation.ReflTransGen.head_induction_on generalizing s with
  | refl =>
    have hslot : (c.onValueChanged s.handle).emitted = c.emitted + 1 := by
      unfold ContextProperty.onValueChanged
      dsimp only
      rw [hx, if_pos hv]
    have hn := h [.deliver o] (s.set o (c.onValueChanged s.handle, s.handle)) _ (by simp)
      (by rw [run_cons, step, hc]; simp only [if_pos hq]; rfl) (Function.update_self ..)
    rw [hslot] at hn
    omega
  | @head x w hd _ ih =>
    let t : Listeners P O V :=
      ⟨{ s.handle with myValue := w }, fun q => (s.objects q).map ContextProperty.notify⟩
    have ht : s.step (.changeValue w) = some t := by
      simp only [step, PropertyHandle.changeValue, hx, hd, if_true]
      rfl
    have hct : t.objects o = some c := by
      show (s.objects o).map ContextProperty.notify = _
      rw [hc, Option.map_some, ContextProperty.notify, if_neg (ne_true_of_eq_false hsub)]
    exact ih hct (h.step (by simp) ht) rfl

/-- After `unsubscribe` the object stays silent exactly if no call was queued for it (or no value the
handle can come to differs from its copy). -/
theorem staysSilent_iff {s t : Listeners P O V} {o : O} {c : ContextProperty V}
    (hc : s.objects o = some c) (hsub : c.subscribed = true)
    (hstep : s.step (.unsubscribe o) = some t) :
    t.StaysSilent o c.emitted ↔
      c.queued = 0 ∨ ∀ v, Reaches s.handle.myValue v → differs c.value v = false := by
  have htc : t.objects o = some { c with subscribed := false } ∧
      t.handle.myValue = s.handle.myValue := by
    simp only [step, hc, Option.map_some, Option.some.injEq] at hstep
    subst hstep
    simp only [set, Function.update_self, ContextProperty.unsubscribe, hsub]
    exact ⟨rfl, rfl⟩
  obtain ⟨htc, hvalue⟩ := htc
  constructor
  · intro h
    by_contra hno
    simp only [not_or, not_forall, Bool.not_eq_false] at hno
    obtain ⟨hq, v, hreach, hv⟩ := hno
    exact exists_emission htc rfl (Nat.pos_of_ne_zero hq) (hvalue ▸ hreach) hv h
  · intro hq es u d hes hrun hd
    have h0 : t.SilentWith o c.emitted := by
      intro c' hc'
      obtain rfl := Option.some.inj (htc.symm.trans hc')
      exact ⟨rfl, rfl, hvalue ▸ hq⟩
    have h : u.SilentWith o c.emitted :=
      run_inv_along (P := fun s => s.SilentWith o c.emitted)
        (fun _ _ _ h he hst => silentWith_step h he hst) h0 (along_of_forall hes) hrun
    exact (h d hd).2.1

end Listeners

/-- **When unsubscribed objects are silent.**  In a run in which no object is unsubscribed while a
call of its slot is queued, no unsubscribed object ever emits `valueChanged`.  And in every state
reached, an object that is unsubscribed then stays silent whatever happens, until somebody
subscribes it again, exactly if no call is queued for it (or no value the handle can come to differs
from its copy). -/
theorem silence {P O V : Type} [QVariant V] [DecidableEq O] {es : List (ListenersEvent O V)}
    {s : Listeners P O V} (hrun : run Listeners.step Listeners.init es = some s) :
    (Along Listeners.step (fun (s : Listeners P O V) e => ¬ s.UnsubscribesQueued e)
        Listeners.init es →
      s.Quiet ∧ Along Listeners.step (fun (s : Listeners P O V) e => ¬ s.SpeaksUnsubscribed e)
        Listeners.init es) ∧
      ∀ (o : O) (c : ContextProperty V) (t : Listeners P O V), s.objects o = some c →
        c.subscribed = true → s.step (.unsubscribe o) = some t →
        (t.StaysSilent o c.emitted ↔
          c.queued = 0 ∨ ∀ v, Listeners.Reaches s.handle.myValue v → differs c.value v = false) := by
  refine ⟨fun hC => ?_, fun o c t hc hsub hstep => Listeners.staysSilent_iff hc hsub hstep⟩
  have h0 : (Listeners.init : Listeners P O V).Quiet := fun o c hc => by cases hc
  have hkeeps : ∀ (s : Listeners P O V) e t, s.Quiet → ¬ s.UnsubscribesQueued e →
      s.step e = some t → t.Quiet := fun _ _ _ h hq hst => Listeners.quiet_step h hq hst
  exact ⟨run_inv_along hkeeps h0 hC hrun,
    .of_inv hkeeps (fun _ _ h _ => Listeners.not_speaksUnsubscribed h) h0 hC⟩

/-- One object hears of a value and is unsubscribed afterwards. -/
theorem silence_oneObject :
    ∃ s, run Listeners.step (Listeners.init : Listeners String String (Option ℤ))
        [.create "first", .changeValue (some 1), .deliver "first"] = some s ∧
      ∃ c t, s.objects "first" = some c ∧ c.subscribed = true ∧
        s.step (.unsubscribe "first") = some t ∧ t.StaysSilent "first" c.emitted := by
  have hrun : run Listeners.step (Listeners.init : Listeners String String (Option ℤ))
      [.create "first", .changeValue (some 1), .deliver "first"] = some _ := rfl
  exact ⟨_, hrun, _, _, rfl, rfl, rfl, ((silence hrun).2 "first" _ _ rfl rfl rfl).2 (Or.inl rfl)⟩

/-- The value changes, and the object is unsubscribed before it has been told: it emits. -/
theorem exists_unsubscribed_speaks :
    ∃ s, run Listeners.step (Listeners.init : Listeners String String (Option ℤ))
        [.create "first", .changeValue (some 1), .unsubscribe "first"] = some s ∧
      s.SpeaksUnsubscribed (.deliver "first") :=
  ⟨_, rfl, _, "first", _, _, rfl, rfl, rfl, rfl, by decide⟩

end ContextSubscriber
