import ContextKit.Subscriber.Session

/-!
# The bookkeeping of a `Provider` agrees with the wire

`subscribedKeys` is the intention, the wire is what the plugin was told, and the two schedules are
the difference between them: `Agrees`.  In the ready state every slot keeps this as long as the
callers alternate `subscribe` and `unsubscribe` for each key, and `ready` establishes it from any
state before, since it drops the schedules and asks for the whole intention.
-/

namespace ContextSubscriber
open ContextKit Transition

variable {K V : Type} [DecidableEq K]

/-- The calls made for `key`: `true` for `subscribe`, `false` for `unsubscribe`. -/
def SessionEvent.callFor (key : K) : SessionEvent K V → Option Bool
  | .subscribe k => if k = key then some true else none
  | .unsubscribe k => if k = key then some false else none
  | .plugin _ => none

/-- The calls of each key alternate, starting with `subscribe`. -/
def AlternatingCalls (es : List (SessionEvent K V)) : Prop :=
  ∀ key, Alternates true (es.filterMap (SessionEvent.callFor key))

namespace Session

/-- The schedules are the difference between the wire and the intention, and while there is one its
handling is queued. -/
structure Agrees (s : Session K V) : Prop where
  disjoint : ∀ k ∈ s.provider.toSubscribe, k ∉ s.wire
  subset : ∀ k ∈ s.provider.toUnsubscribe, k ∈ s.wire
  keys : ∀ k, k ∈ s.provider.subscribedKeys ↔
    k ∈ s.wire ∧ k ∉ s.provider.toUnsubscribe ∨ k ∈ s.provider.toSubscribe
  queued : ∀ k, k ∈ s.provider.toSubscribe ∨ k ∈ s.provider.toUnsubscribe →
    Method.handleSubscribes ∈ s.provider.callQueue

theorem Agrees.subscribe {s : Session K V} (h : s.Agrees) {key : K}
    (hkey : key ∉ s.provider.subscribedKeys) : (s.subscribe key).1.Agrees where
  disjoint := by
    intro k hk
    simp only [Session.subscribe, Provider.mem_subscribe_toSubscribe] at hk ⊢
    rcases hk with hk | ⟨rfl, hk⟩
    · exact h.disjoint k hk
    · exact fun hw => hkey ((h.keys k).2 (Or.inl ⟨hw, hk⟩))
  subset := by
    intro k hk
    simp only [Session.subscribe, Provider.subscribe_toUnsubscribe, Finset.mem_erase] at hk ⊢
    exact h.subset k hk.2
  keys := by
    intro k
    have hs := h.subset k
    have hk := h.keys k
    simp only [Session.subscribe, Provider.subscribe_subscribedKeys, Finset.mem_insert,
      Provider.subscribe_toUnsubscribe, Finset.mem_erase, Provider.mem_subscribe_toSubscribe, hk]
    by_cases hkk : k = key
    · subst hkk; grind
    · simp [hkk]
  queued := by
    intro k hk
    have hq := h.queued k
    simp only [Session.subscribe, Provider.subscribe_toUnsubscribe, Finset.mem_erase,
      Provider.mem_subscribe_toSubscribe, Provider.mem_subscribe_callQueue] at hk ⊢
    grind

theorem Agrees.unsubscribe {s : Session K V} (h : s.Agrees) {key : K}
    (hkey : key ∈ s.provider.subscribedKeys) : (s.unsubscribe key).Agrees where
  disjoint := by
    intro k hk
    simp only [Session.unsubscribe, Provider.unsubscribe_toSubscribe, Finset.mem_erase] at hk ⊢
    exact h.disjoint k hk.2
  subset := by
    intro k hk
    simp only [Session.unsubscribe, Provider.mem_unsubscribe_toUnsubscribe] at hk ⊢
    rcases hk with hk | ⟨rfl, hk⟩
    · exact h.subset k hk
    · exact (((h.keys k).1 hkey).resolve_right hk).1
  keys := by
    intro k
    have hd := h.disjoint k
    have hk := h.keys k
    simp only [Session.unsubscribe, Provider.unsubscribe_subscribedKeys, Finset.mem_erase, hk,
      Provider.unsubscribe_toSubscribe, Provider.mem_unsubscribe_toUnsubscribe]
    by_cases hkk : k = key
    · subst hkk; grind
    · simp [hkk]
  queued := by
    intro k hk
    have hq := h.queued k
    simp only [Session.unsubscribe, Provider.unsubscribe_toSubscribe, Finset.mem_erase,
      Provider.mem_unsubscribe_toUnsubscribe, Provider.mem_unsubscribe_callQueue] at hk ⊢
    grind

/-- Handling the schedules brings the wire to the intention. -/
theorem Agrees.wire_handled {s : Session K V} (h : s.Agrees) :
    (s.wire ∪ s.provider.toSubscribe) \ s.provider.toUnsubscribe = s.provider.subscribedKeys := by
  ext k
  have hd := h.disjoint k
  have hs := h.subset k
  rw [h.keys k, Finset.mem_sdiff, Finset.mem_union]
  grind

omit [DecidableEq K] in
/-- Without schedules and with the intention on the wire everything agrees. -/
theorem agrees_of_empty {s : Session K V} (h₁ : s.provider.toSubscribe = ∅)
    (h₂ : s.provider.toUnsubscribe = ∅) (hw : s.wire = s.provider.subscribedKeys) : s.Agrees where
  disjoint := by simp [h₁]
  subset := by simp [h₂]
  keys := by simp [h₁, h₂, hw]
  queued := by simp [h₁, h₂]

omit [DecidableEq K] in
theorem agrees_congr {s t : Session K V} (hw : t.wire = s.wire)
    (hp : t.provider = { s.provider with values := t.provider.values }) (h : s.Agrees) :
    t.Agrees := by
  constructor <;> rw [hp] <;> try rw [hw]
  exacts [h.disjoint, h.subset, h.keys, h.queued]

/-- One step keeps the agreement of the ready state, if a call is made only where it changes the
intention. -/
theorem agrees_step {s t : Session K V} {e : SessionEvent K V}
    (h : s.provider.pluginState = .ready → s.Agrees)
    (hcall : ∀ key b, e.callFor key = some b → b = decide (key ∉ s.provider.subscribedKeys))
    (hstep : s.step e = some t) (ht : t.provider.pluginState = .ready) : t.Agrees := by
  cases e with
  | subscribe key =>
    have hkey := hcall key true (if_pos rfl)
    simp only [step, Option.some.injEq] at hstep
    subst hstep
    exact (h (by simpa [Session.subscribe] using ht)).subscribe (by simpa using hkey)
  | unsubscribe key =>
    have hkey := hcall key false (if_pos rfl)
    simp only [step, Option.some.injEq] at hstep
    subst hstep
    exact (h (by simpa [Session.unsubscribe] using ht)).unsubscribe (by simpa using hkey)
  | plugin e =>
    obtain ⟨⟨t', o⟩, he, rfl⟩ := Option.map_eq_some_iff.1 hstep
    cases pluginStep_cases he with
    | handled hq hr => exact agrees_of_empty rfl rfl (h hr).wire_handled
    | handledFailed hq hr => exact absurd (hr.symm.trans ht) (by decide)
    | handledInitializing hq hr => exact absurd (hr.symm.trans ht) (by decide)
    | ready hr => exact agrees_of_empty rfl rfl rfl
    | failed => cases ht
    | report hrep he =>
      obtain ⟨hp, hw⟩ := pluginStep_of_isReport hrep he
      rw [hp] at ht
      exact agrees_congr hw hp (h ht)

/-- A call sets the intention for its key, and nothing else changes it. -/
theorem step_subscribedKeys {s t : Session K V} {e : SessionEvent K V} (h : s.step e = some t)
    (k : K) : k ∈ t.provider.subscribedKeys ↔
      (e.callFor k).getD (decide (k ∈ s.provider.subscribedKeys)) = true := by
  cases e with
  | subscribe key =>
    simp only [step, Option.some.injEq] at h
    subst h
    rcases eq_or_ne key k with rfl | hk
    · simp [Session.subscribe, SessionEvent.callFor]
    · simp [Session.subscribe, SessionEvent.callFor, hk, hk.symm]
  | unsubscribe key =>
    simp only [step, Option.some.injEq] at h
    subst h
    rcases eq_or_ne key k with rfl | hk
    · simp [Session.unsubscribe, SessionEvent.callFor]
    · simp [Session.unsubscribe, SessionEvent.callFor, hk, hk.symm]
  | plugin e =>
    obtain ⟨⟨t', o⟩, he, rfl⟩ := Option.map_eq_some_iff.1 h
    simp only [SessionEvent.callFor, Option.getD_none, decide_eq_true_eq]
    cases pluginStep_cases he with
    | handled | handledFailed | handledInitializing | ready | failed => rfl
    | report hrep he => rw [(pluginStep_of_isReport hrep he).1]

/-- If the calls of each key alternate, each call finds the key where it does not want it. -/
theorem along_of_alternatingCalls {s : Session K V} {es : List (SessionEvent K V)}
    (hs : s.provider.subscribedKeys = ∅) (h : AlternatingCalls es) :
    Along step (fun s e => ∀ key b, SessionEvent.callFor key e = some b →
      b = decide (key ∉ s.provider.subscribedKeys)) s es := by
  refine along_of_alternates
    (fun (s : Session K V) k => decide (k ∉ s.provider.subscribedKeys)) ?_ ?_ ?_
  · intro s e t k ht hk
    have := step_subscribedKeys ht k
    simp only [hk, Option.getD_none, decide_eq_true_eq] at this
    simp [this]
  · intro s e t k ht hk
    have := step_subscribedKeys ht k
    simp only [hk, Option.getD_some, decide_eq_true_eq] at this
    simp [this]
  · intro k
    simpa [hs] using h k

end Session

/-- **The bookkeeping of a provider agrees with the wire.**  In every ready state that alternating
calls, `handleSubscribes`, `ready` and `failed` can reach, the keys to subscribe are not on the wire
and the keys to unsubscribe are, the intention is the wire as the schedules will change it, and a
schedule that is not empty is queued to be handled; with nothing queued the wire is the
intention. -/
theorem bookkeeping_agrees {es : List (SessionEvent K V)} {s : Session K V}
    (hcalls : AlternatingCalls es) (hrun : run Session.step Session.init es = some s)
    (hready : s.provider.pluginState = .ready) :
    Disjoint s.provider.toSubscribe s.wire ∧
      s.provider.toUnsubscribe ⊆ s.wire ∧
      s.provider.subscribedKeys = (s.wire \ s.provider.toUnsubscribe) ∪ s.provider.toSubscribe ∧
      (s.provider.toSubscribe.Nonempty ∨ s.provider.toUnsubscribe.Nonempty →
        Method.handleSubscribes ∈ s.provider.callQueue) ∧
      (Method.handleSubscribes ∉ s.provider.callQueue → s.wire = s.provider.subscribedKeys) := by
  have h : s.Agrees :=
    run_inv_along (P := fun s : Session K V => s.provider.pluginState = .ready → s.Agrees)
      (fun s e t hs hcall hst ht => Session.agrees_step hs hcall hst ht)
      (fun h => by cases h) (Session.along_of_alternatingCalls rfl hcalls) hrun hready
  have hqueued : s.provider.toSubscribe.Nonempty ∨ s.provider.toUnsubscribe.Nonempty →
      Method.handleSubscribes ∈ s.provider.callQueue := by
    rintro (⟨k, hk⟩ | ⟨k, hk⟩)
    · exact h.queued k (Or.inl hk)
    · exact h.queued k (Or.inr hk)
  refine ⟨Finset.disjoint_left.2 h.disjoint, h.subset, ?_, hqueued, fun hq => ?_⟩
  · ext k
    rw [h.keys k, Finset.mem_union, Finset.mem_sdiff]
  · have h₁ : s.provider.toSubscribe = ∅ :=
      Finset.not_nonempty_iff_eq_empty.1 fun hne => hq (hqueued (Or.inl hne))
    have h₂ : s.provider.toUnsubscribe = ∅ :=
      Finset.not_nonempty_iff_eq_empty.1 fun hne => hq (hqueued (Or.inr hne))
    rw [← h.wire_handled, h₁, h₂, Finset.union_empty, Finset.sdiff_empty]

/-- A key taken back before the main loop runs again, after its subscription was handled. -/
def takenBack : List (SessionEvent String (Option ℤ)) :=
  [.plugin .ready, .subscribe "Screen.TopEdge", .plugin .handleSubscribes,
    .unsubscribe "Screen.TopEdge"]

theorem bookkeeping_agrees_takenBack :
    ∃ s, run Session.step Session.init takenBack = some s ∧
      s.provider.pluginState = .ready ∧
      Disjoint s.provider.toSubscribe s.wire ∧
      s.provider.toUnsubscribe ⊆ s.wire ∧
      s.provider.subscribedKeys = (s.wire \ s.provider.toUnsubscribe) ∪ s.provider.toSubscribe ∧
      (s.provider.toSubscribe.Nonempty ∨ s.provider.toUnsubscribe.Nonempty →
        Method.handleSubscribes ∈ s.provider.callQueue) ∧
      (Method.handleSubscribes ∉ s.provider.callQueue → s.wire = s.provider.subscribedKeys) := by
  have hcalls : AlternatingCalls takenBack := by
    intro key
    by_cases h : "Screen.TopEdge" = key <;>
      simp [takenBack, List.filterMap_cons, SessionEvent.callFor, h]
  exact ⟨_, rfl, rfl, bookkeeping_agrees hcalls rfl rfl⟩

end ContextSubscriber
