import ContextKit.Subscriber.PropertyHandle
import ContextKit.Transition.Run

/-!
# `ContextProperty` objects over one handle

Any number of objects may share the handle of a key.  An object reads the handle's value directly,
but is told of changes by calls of its `onValueChanged` that are queued, and it compares the value
the handle has on delivery with a private copy.  The copy is only ever updated there, so a fresh or
newly subscribed object may hold a copy that is not the value its user reads, and a later change
back to the copy then passes for no change.  `Represents` is what the copy has to be.
-/

namespace ContextSubscriber
open ContextKit Transition

/-- The private parts of an object, the calls of `onValueChanged` queued for it, and how often it
has emitted `valueChanged`. -/
structure ContextProperty (V : Type) where
  subscribed : Bool
  value : V
  queued : ℕ
  emitted : ℕ

namespace ContextProperty

variable {P V : Type}

/-- What the constructor starts from, before it subscribes. -/
def init [QVariant V] : ContextProperty V := ⟨false, QVariant.invalid, 0, 0⟩

/-- The slot, when a queued call is delivered: the value is read from the handle. -/
def onValueChanged [QVariant V] (c : ContextProperty V) (handle : PropertyHandle P V) :
    ContextProperty V :=
  let newValue := handle.myValue
  let c := { c with queued := c.queued - 1 }
  if differs c.value newValue then { c with value := newValue, emitted := c.emitted + 1 } else c

/-- Connects to the handle and subscribes to it.  (What the handle does then about its providers
touches no object.) -/
def subscribe (c : ContextProperty V) (handle : PropertyHandle P V) :
    ContextProperty V × PropertyHandle P V :=
  if c.subscribed then (c, handle)
  else ({ c with subscribed := true },
    { handle with subscribeCount := handle.subscribeCount + 1 })

/-- Disconnects from the handle and unsubscribes from it.  Calls that are queued already stay
queued. -/
def unsubscribe (c : ContextProperty V) (handle : PropertyHandle P V) :
    ContextProperty V × PropertyHandle P V :=
  if !c.subscribed then (c, handle)
  else ({ c with subscribed := false },
    { handle with subscribeCount := handle.subscribeCount - 1 })

/-- The connection: an emission of the handle queues a call to each subscribed object. -/
def notify (c : ContextProperty V) : ContextProperty V :=
  if c.subscribed then { c with queued := c.queued + 1 } else c

end ContextProperty

/-- A handle and the objects on it. -/
structure Listeners (P O V : Type) where
  handle : PropertyHandle P V
  objects : O → Option (ContextProperty V)

/-- What can happen to them. -/
inductive ListenersEvent (O V : Type)
  | changeValue (newValue : V)
  | deliver (o : O)
  | create (o : O)
  | subscribe (o : O)
  | unsubscribe (o : O)
  | destroy (o : O)

namespace Listeners

variable {P O V : Type} [QVariant V] [DecidableEq O]

omit [DecidableEq O] in
/-- A fresh handle without objects. -/
def init : Listeners P O V := ⟨PropertyHandle.init, fun _ => none⟩

/-- The object `o` and the handle get new values. -/
def set (s : Listeners P O V) (o : O) (r : ContextProperty V × PropertyHandle P V) :
    Listeners P O V :=
  ⟨r.2, Function.update s.objects o (some r.1)⟩

/-- One event.  A call can be delivered only while it is queued, and a deleted object takes its
queued calls with it. -/
def step (s : Listeners P O V) : ListenersEvent O V → Option (Listeners P O V)
  | .changeValue newValue =>
    let r := s.handle.changeValue newValue
    some ⟨r.1, fun o => if r.2 then (s.objects o).map ContextProperty.notify else s.objects o⟩
  | .deliver o =>
    match s.objects o with
    | none => none
    | some c => if 0 < c.queued then some (s.set o (c.onValueChanged s.handle, s.handle)) else none
  | .create o =>
    match s.objects o with
    | none => some (s.set o (ContextProperty.init.subscribe s.handle))
    | some _ => none
  | .subscribe o => (s.objects o).map fun c => s.set o (c.subscribe s.handle)
  | .unsubscribe o => (s.objects o).map fun c => s.set o (c.unsubscribe s.handle)
  | .destroy o =>
    (s.objects o).map fun c =>
      ⟨(c.unsubscribe s.handle).2, Function.update s.objects o none⟩

/-- `o` exists and is subscribed. -/
def Subscribed (s : Listeners P O V) (o : O) : Prop :=
  ∃ c, s.objects o = some c ∧ c.subscribed = true

/-- From `s` on, `o` tells of every change between two quiet states if it stays subscribed. -/
def NotifiesChanges (s : Listeners P O V) (o : O) (c : ContextProperty V) : Prop :=
  ∀ es t d, run step s es = some t → Along step (fun s _ => s.Subscribed o) s es →
    t.objects o = some d → d.subscribed = true → d.queued = 0 →
    s.handle.myValue ≠ t.handle.myValue → differs s.handle.myValue t.handle.myValue = true →
    c.emitted < d.emitted

/-- The copy `a` stands for the value `x`: whatever is taken for `a` is taken for `x` as well. -/
def Represents (a x : V) : Prop := ∀ v, differs a v = false → v = x ∨ differs x v = false

/-- An object is subscribed, or created, or a delivery tells it nothing new, while its copy does not
stand for the value of the handle and no call is queued that would tell it more. -/
def LeavesStale (s : Listeners P O V) (e : ListenersEvent O V) : Prop :=
  match e with
  | .create _ => ¬ Represents QVariant.invalid s.handle.myValue
  | .subscribe o =>
    ∃ c, s.objects o = some c ∧ c.subscribed = false ∧ c.queued = 0 ∧
      ¬ Represents c.value s.handle.myValue
  | .deliver o =>
    ∃ c, s.objects o = some c ∧ c.subscribed = true ∧ c.queued = 1 ∧
      differs c.value s.handle.myValue = false ∧ ¬ Represents c.value s.handle.myValue
  | _ => False

/-! ### One event at one object -/

/-- What an event can do to the object `o` and to the value of the handle. -/
inductive ObjectStep (s : Listeners P O V) (o : O) :
    ListenersEvent O V → V → Option (ContextProperty V) → Prop
  | unchanged {e : ListenersEvent O V} : ObjectStep s o e s.handle.myValue (s.objects o)
  | changed {v : V} (h : differs s.handle.myValue v = true) :
      ObjectStep s o (.changeValue v) v ((s.objects o).map ContextProperty.notify)
  | delivered {c : ContextProperty V} (hc : s.objects o = some c) (hq : 0 < c.queued) :
      ObjectStep s o (.deliver o) s.handle.myValue (some (c.onValueChanged s.handle))
  | created (hc : s.objects o = none) :
      ObjectStep s o (.create o) s.handle.myValue
        (some { ContextProperty.init with subscribed := true })
  | subscribed {c : ContextProperty V} (hc : s.objects o = some c) (hs : c.subscribed = false) :
      ObjectStep s o (.subscribe o) s.handle.myValue (some { c with subscribed := true })
  | unsubscribed {c : ContextProperty V} (hc : s.objects o = some c) (hs : c.subscribed = true) :
      ObjectStep s o (.unsubscribe o) s.handle.myValue (some { c with subscribed := false })
  | destroyed : ObjectStep s o (.destroy o) s.handle.myValue none

theorem objectStep {s t : Listeners P O V} {e : ListenersEvent O V} (h : s.step e = some t)
    (o : O) : ObjectStep s o e t.handle.myValue (t.objects o) := by
  cases e with
  | changeValue v =>
    simp only [step, PropertyHandle.changeValue, Option.some.injEq] at h
    subst h
    by_cases hd : differs s.handle.myValue v = true
    · simp only [hd, if_true]
      exact .changed hd
    · simp only [hd]
      exact .unchanged
  | deliver q =>
    simp only [step] at h
    cases hc : s.objects q with
    | none => simp [hc] at h
    | some c =>
      simp only [hc, Option.ite_none_right_eq_some, Option.some.injEq] at h
      obtain ⟨hq, rfl⟩ := h
      rcases eq_or_ne o q with rfl | hne
      · simp only [set, Function.update_self]
        exact .delivered hc hq
      · simp only [set, Function.update_of_ne hne]
        exact .unchanged
  | create q =>
    simp only [step] at h
    cases hc : s.objects q with
    | some c => simp [hc] at h
    | none =>
      simp only [hc, Option.some.injEq] at h
      subst h
      rcases eq_or_ne o q with rfl | hne
      · simp only [set, Function.update_self]
        exact .created hc
      · simp only [set, Function.update_of_ne hne]
        exact .unchanged
  | subscribe q =>
    obtain ⟨c, hc, rfl⟩ := Option.map_eq_some_iff.1 h
    rcases eq_or_ne o q with rfl | hne
    · simp only [set, Function.update_self, ContextProperty.subscribe]
      split_ifs with hs
      · rw [← hc]
        exact .unchanged
      · exact .subscribed hc (by simpa using hs)
    · simp only [set, Function.update_of_ne hne, ContextProperty.subscribe]
      split_ifs <;> exact .unchanged
  | unsubscribe q =>
    obtain ⟨c, hc, rfl⟩ := Option.map_eq_some_iff.1 h
    rcases eq_or_ne o q with rfl | hne
    · simp only [set, Function.update_self, ContextProperty.unsubscribe]
      split_ifs with hs
      · rw [← hc]
        exact .unchanged
      · exact .unsubscribed hc (by simpa using hs)
    · simp only [set, Function.update_of_ne hne, ContextProperty.unsubscribe]
      split_ifs <;> exact .unchanged
  | destroy q =>
    obtain ⟨c, hc, rfl⟩ := Option.map_eq_some_iff.1 h
    have hv : (c.unsubscribe s.handle).2.myValue = s.handle.myValue := by
      unfold ContextProperty.unsubscribe
      split_ifs <;> rfl
    rcases eq_or_ne o q with rfl | hne
    · simp only [Function.update_self, hv]
      exact .destroyed
    · simp only [Function.update_of_ne hne, hv]
      exact .unchanged

/-! ### Runs -/

omit [DecidableEq O] in
theorem represents_self (x : V) : Represents x x := fun _ h => Or.inr h

/-- A subscribed object without queued calls holds a copy that stands for the value of the
handle. -/
def CopyAt (s : Listeners P O V) (o : O) : Prop :=
  ∀ c, s.objects o = some c → c.subscribed = true → c.queued = 0 →
    Represents c.value s.handle.myValue

theorem copy_step {s t : Listeners P O V} {e : ListenersEvent O V} (o : O) (h : s.CopyAt o)
    (hstale : ¬ s.LeavesStale e) (hstep : s.step e = some t) : t.CopyAt o := by
  unfold CopyAt at h ⊢
  have ho := objectStep hstep o
  generalize t.objects o = d at ho ⊢
  generalize t.handle.myValue = v at ho ⊢
  intro c hc hsub hq
  cases ho with
  | unchanged => exact h c hc hsub hq
  | changed hd =>
    -- The call of this change is still queued.
    obtain ⟨b, hb, rfl⟩ := Option.map_eq_some_iff.1 hc
    by_cases hs : b.subscribed = true
    · rw [ContextProperty.notify, if_pos hs] at hq
      exact absurd hq (Nat.succ_ne_zero _)
    · rw [ContextProperty.notify, if_neg hs] at hsub
      exact absurd hsub hs
  | @delivered b hb hpos =>
    obtain rfl := Option.some.inj hc
    unfold ContextProperty.onValueChanged at hsub hq ⊢
    dsimp only at hsub hq ⊢
    split_ifs at hsub hq ⊢ with hd
    · exact represents_self _
    · by_contra hnot
      have hone : b.queued = 1 := by
        dsimp only at hq
        omega
      exact hstale ⟨b, hb, hsub, hone, by simpa using hd, hnot⟩
  | created hb =>
    obtain rfl := Option.some.inj hc
    exact not_not.1 hstale
  | @subscribed b hb hs =>
    obtain rfl := Option.some.inj hc
    by_contra hnot
    exact hstale ⟨b, hb, hs, hq, hnot⟩
  | unsubscribed hb hs =>
    obtain rfl := Option.some.inj hc
    cases hsub
  | destroyed => cases hc

/-- Since the state with value `v` and emission count `n`, when the copy was `a`: either the object
has emitted, or its copy is still `a` and, unless a call is queued, the value still `v` or one that
is taken for `a`. -/
def SilentAt (v a : V) (n : ℕ) (s : Listeners P O V) (o : O) : Prop :=
  ∀ c, s.objects o = some c →
    n < c.emitted ∨ c.emitted = n ∧ c.value = a ∧
      (c.queued = 0 → s.handle.myValue = v ∨ differs a s.handle.myValue = false)

theorem silent_step {v a : V} {n : ℕ} {s t : Listeners P O V} {e : ListenersEvent O V} {o : O}
    (h : SilentAt v a n s o) (hsub : s.Subscribed o) (hstep : s.step e = some t) :
    SilentAt v a n t o := by
  unfold SilentAt at h ⊢
  obtain ⟨b, hb, hbs⟩ := hsub
  have ho := objectStep hstep o
  generalize t.objects o = d at ho ⊢
  generalize t.handle.myValue = w at ho ⊢
  intro c hc
  cases ho with
  | unchanged => exact h c hc
  | changed hd =>
    rw [hb, Option.map_some, Option.some.injEq] at hc
    subst hc
    rw [ContextProperty.notify, if_pos hbs]
    exact (h b hb).imp_right fun ⟨hn, ha, _⟩ => ⟨hn, ha, fun hq => absurd hq (Nat.succ_ne_zero _)⟩
  | @delivered b' hb' hpos =>
    obtain rfl := Option.some.inj (hb'.symm.trans hb)
    obtain rfl := Option.some.inj hc
    unfold ContextProperty.onValueChanged
    dsimp only
    split_ifs with hd
    · refine Or.inl ?_
      rcases h b' hb with hn | ⟨hn, -, -⟩ <;> dsimp only <;> omega
    · -- A delivery that finds no difference finds a value that is taken for the copy.
      refine (h b' hb).imp_right fun ⟨hn, ha, _⟩ => ⟨hn, ha, fun _ => Or.inr ?_⟩
      rw [← ha]
      simpa using hd
  | created hb' => exact absurd (hb'.symm.trans hb) (by simp)
  | subscribed hb' hs =>
    obtain rfl := Option.some.inj (hb'.symm.trans hb)
    exact absurd (hs.symm.trans hbs) (by decide)
  | unsubscribed hb' hs =>
    obtain rfl := Option.some.inj (hb'.symm.trans hb)
    obtain rfl := Option.some.inj hc
    have hb' := h _ hb
    exact hb'
  | destroyed => cases hc

/-- An object whose copy stands for the value misses no change. -/
theorem notifiesChanges_of_copy {s : Listeners P O V} {o : O} {c : ContextProperty V}
    (hc : s.objects o = some c) (hcopy : Represents c.value s.handle.myValue) :
    s.NotifiesChanges o c := by
  intro es t d hrun hsub hd _ hdq hne hdiffers
  have h0 : SilentAt s.handle.myValue c.value c.emitted s o := by
    intro c' hc'
    obtain rfl := Option.some.inj (hc.symm.trans hc')
    exact Or.inr ⟨rfl, rfl, fun _ => Or.inl rfl⟩
  have h := run_inv_along (P := fun t => SilentAt s.handle.myValue c.value c.emitted t o)
    (fun _ _ _ h hs hst => silent_step h hs hst) h0 hsub hrun
  refine (h d hd).resolve_right fun ⟨_, _, hquiet⟩ => ?_
  have hsame : t.handle.myValue = s.handle.myValue ∨
      differs s.handle.myValue t.handle.myValue = false :=
    (hquiet hdq).elim Or.inl (hcopy _)
  rcases hsame with hsame | hsame
  · exact hne hsame.symm
  · exact absurd (hsame.symm.trans hdiffers) (by decide)

/-- A quiet object whose copy does not stand for the value misses a change of the handle to some
value that is taken for the copy. -/
theorem not_notifiesChanges {s : Listeners P O V} {o : O} {c : ContextProperty V}
    (hc : s.objects o = some c) (hsub : c.subscribed = true) (hq : c.queued = 0)
    (hcopy : ¬ Represents c.value s.handle.myValue) : ¬ s.NotifiesChanges o c := by
  intro h
  simp only [Represents, not_forall, not_or, Bool.not_eq_false] at hcopy
  obtain ⟨v, hv, hne, hd⟩ := hcopy
  let t : Listeners P O V :=
    ⟨{ s.handle with myValue := v }, fun q => (s.objects q).map ContextProperty.notify⟩
  have ht : s.step (.changeValue v) = some t := by
    simp only [step, PropertyHandle.changeValue, hd, if_true]
    rfl
  have hct : t.objects o = some { c with queued := 1 } := by
    show (s.objects o).map ContextProperty.notify = _
    rw [hc, Option.map_some, ContextProperty.notify, if_pos hsub, hq]
  have hdeliver : t.step (.deliver o) = some (t.set o ({ c with queued := 0 }, t.handle)) := by
    have hslot : ContextProperty.onValueChanged { c with queued := 1 } t.handle =
        { c with queued := 0 } := by
      unfold ContextProperty.onValueChanged
      exact if_neg (ne_true_of_eq_false hv)
    simp only [step, hct, Nat.one_pos, if_true, hslot]
  have hrun : run step s [.changeValue v, .deliver o] =
      some (t.set o ({ c with queued := 0 }, t.handle)) := by
    rw [run_cons, ht, Option.bind_some, run_cons, hdeliver, Option.bind_some, run_nil]
  refine absurd (h _ _ { c with queued := 0 } hrun ?_ ?_ hsub rfl (Ne.symm hne) hd) (lt_irrefl _)
  · exact .cons ⟨c, hc, hsub⟩ ht (.cons ⟨_, hct, hsub⟩ hdeliver trivial)
  · exact Function.update_self ..

end Listeners

/-- **No change goes unnoticed, exactly when the copy is right.**  In every reachable state, a
subscribed object without queued calls will notify every change exactly when its private copy stands
for the value of the handle; and so it is after a run in which no event leaves an object with another
copy. -/
theorem notifiesChanges_iff {P O V : Type} [QVariant V] [DecidableEq O]
    {es : List (ListenersEvent O V)} {s : Listeners P O V} {o : O} {c : ContextProperty V}
    (hrun : run Listeners.step Listeners.init es = some s) (hc : s.objects o = some c)
    (hsub : c.subscribed = true) (hq : c.queued = 0) :
    (s.NotifiesChanges o c ↔ Listeners.Represents c.value s.handle.myValue) ∧
      (Along Listeners.step (fun (s : Listeners P O V) e => ¬ s.LeavesStale e)
          Listeners.init es →
        s.NotifiesChanges o c) := by
  refine ⟨⟨fun h => ?_, Listeners.notifiesChanges_of_copy hc⟩, fun hstale => ?_⟩
  · by_contra hcopy
    exact Listeners.not_notifiesChanges hc hsub hq hcopy h
  · have hcopy : s.CopyAt o :=
      run_inv_along (P := fun s => s.CopyAt o)
        (fun _ _ _ h hs hst => Listeners.copy_step o h hs hst)
        (fun c hc => by cases hc) hstale hrun
    exact Listeners.notifiesChanges_of_copy hc (hcopy c hc hsub hq)

/-! ### A second object on a handle that has a value -/

/-- The first object sees the value come and go; the second is created in between. -/
def secondObject : List (ListenersEvent String (Option ℤ)) :=
  [.create "first", .changeValue (some 1), .deliver "first", .create "second"]

theorem notifiesChanges_iff_secondObject :
    ∃ s c, run Listeners.step (Listeners.init : Listeners String String (Option ℤ)) secondObject =
        some s ∧
      (s.NotifiesChanges "first" c ↔ Listeners.Represents c.value s.handle.myValue) ∧
      (Along Listeners.step (fun (s : Listeners String String (Option ℤ)) e =>
          ¬ s.LeavesStale e) Listeners.init secondObject →
        s.NotifiesChanges "first" c) := by
  have hrun : run Listeners.step (Listeners.init : Listeners String String (Option ℤ))
      secondObject = some _ := rfl
  exact ⟨_, _, hrun, notifiesChanges_iff hrun rfl rfl rfl⟩

/-- The value becomes null again, and the second object is subscribed and quiet before and after,
but never emits. -/
theorem exists_change_unnoticed :
    ∃ s t c d, run Listeners.step (Listeners.init : Listeners String String (Option ℤ))
        secondObject = some s ∧
      run Listeners.step s [.changeValue none, .deliver "first", .deliver "second"] = some t ∧
      Along Listeners.step (fun s _ => s.Subscribed "second") s
        [.changeValue none, .deliver "first", .deliver "second"] ∧
      s.objects "second" = some c ∧ c.queued = 0 ∧
      t.objects "second" = some d ∧ d.subscribed = true ∧ d.queued = 0 ∧
      s.handle.myValue ≠ t.handle.myValue ∧ differs s.handle.myValue t.handle.myValue = true ∧
      d.emitted = c.emitted := by
  refine ⟨_, _, _, _, rfl, rfl, ?_, rfl, rfl, rfl, rfl, rfl, by decide, by decide, rfl⟩
  exact .cons ⟨_, rfl, rfl⟩ rfl (.cons ⟨_, rfl, rfl⟩ rfl (.cons ⟨_, rfl, rfl⟩ rfl trivial))

end ContextSubscriber
