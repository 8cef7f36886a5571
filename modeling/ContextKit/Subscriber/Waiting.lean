import ContextKit.Subscriber.World

/-!
# Whom a handle waits for

A handle waits for the providers in `pendingSubscriptions`.  The wait is over when the provider
emits `subscribeFinished`, and it does so for every key the plugin answers for and, after a failure,
for every key that is still in `toSubscribe`.  Keys already handed over to the plugin are remembered
nowhere, so a failure leaves a handle waiting for them.  Where this does not happen, a handle waits
only for an answer that can still come.
-/

namespace ContextSubscriber
open ContextKit Transition

variable {P K V : Type} [DecidableEq P] [DecidableEq K]

/-- The plugin of `p` fails while a handle waits for a key that was handed over to it. -/
def World.FailsWaiting (w : World P K V) (e : WorldEvent P K V) (p : P) : Prop :=
  e = .plugin p .failed ∧
    ∃ k, p ∈ (w.handles k).pendingSubscriptions ∧ k ∉ (w.sessions p).provider.toSubscribe

/-- Why a handle that waits for `s` on `k` is going to be released: the key is scheduled and the
schedule will be handled, or the plugin has been asked and still has to answer. -/
def Session.WillFinish (s : Session K V) (k : K) : Prop :=
  k ∈ s.provider.toSubscribe ∧ (s.provider.pluginState = .initializing ∨
      Method.handleSubscribes ∈ s.provider.callQueue) ∨
    s.provider.pluginState = .ready ∧ k ∈ s.unanswered

omit [DecidableEq K] in
theorem Session.WillFinish.frame {s t : Session K V} {k : K} (h : s.WillFinish k)
    (hs : s.SameAt k t) : t.WillFinish k := by
  unfold WillFinish at h ⊢
  rw [hs.toSubscribe, hs.pluginState, hs.unanswered]
  exact h.imp_left fun ⟨hk, hq⟩ => ⟨hk, hq.imp_right hs.queued⟩

/-- Whenever the calls of a handle make it wait, the key is scheduled. -/
theorem Session.willFinish_subscribeTimes {s : Session K V} {k : K} {m : ℕ}
    (hm : 0 < m ∧ k ∉ s.provider.toUnsubscribe ∨ 1 < m) :
    (s.subscribeTimes k m).WillFinish k := by
  refine Or.inl ⟨?_, Or.inr ?_⟩
  · simp [subscribeTimes, hm]
  · simp [subscribeTimes, hm]

namespace World

variable [QVariant V] {cfg : Setup P K V}

/-- The handle of `k` waits for `p` with reason. -/
def WaitAt (w : World P K V) (p : P) (k : K) : Prop :=
  p ∈ (w.handles k).pendingSubscriptions →
    (w.handles k).Wants p ∧ (w.sessions p).WillFinish k

omit [QVariant V] [DecidableEq P] in
/-- One event from the plugin's side: the reason stays, or the wait is over. -/
theorem willFinish_plugin {s t : Session K V} {e : PluginEvent K V} {o : Signals K} {k : K}
    (he : s.pluginStep e = some (t, o)) (hs : k ∈ s.provider.subscribedKeys)
    (hfail : e = .failed → k ∈ s.provider.toSubscribe) (h : s.WillFinish k)
    (hk : k ∉ o.finished) : t.WillFinish k := by
  cases Session.pluginStep_cases he with
  | handled hq hready =>
    refine Or.inr ⟨hready, ?_⟩
    simpa [or_comm] using h.imp And.left And.right
  | handledFailed hq hf =>
    rcases h with ⟨hts, -⟩ | ⟨hready, -⟩
    · exact absurd hts hk
    · exact absurd (hf.symm.trans hready) (by decide)
  | handledInitializing hq hf =>
    rcases h with ⟨hts, -⟩ | ⟨hready, -⟩
    · exact Or.inl ⟨hts, Or.inl hf⟩
    · exact absurd (hf.symm.trans hready) (by decide)
  | ready hn => exact Or.inr ⟨rfl, by simp [hs]⟩
  | failed => exact absurd (hfail rfl) hk
  | report hrep he =>
    obtain ⟨hp, -⟩ := Session.pluginStep_of_isReport hrep he
    unfold Session.WillFinish
    rw [hp]
    refine h.imp_right fun ⟨hready, hu⟩ => ⟨hready, ?_⟩
    rcases Session.pluginStep_report_account hrep he with ⟨hu', -⟩ | ⟨key, -, hu', -, ho⟩
    · rwa [hu']
    · -- The answer for `k` itself would have been passed on.
      rw [hu', Session.answer_unanswered, Finset.mem_erase]
      refine ⟨?_, hu⟩
      rintro rfl
      exact hk (by simp [ho, hs])

/-- One event without such a failure keeps every wait reasonable. -/
theorem wait_step {w w' : World P K V} {e : WorldEvent P K V} (hi : ∀ p k, w.IntentAt p k)
    (h : ∀ p k, w.WaitAt p k) (hfail : ∀ p, ¬ w.FailsWaiting e p)
    (hstep : w.step cfg e = some w') (p : P) (k : K) : w'.WaitAt p k := by
  have hw := h p k
  have hf := hfail p
  unfold WaitAt at hw ⊢
  generalize ht : w'.sessions p = t
  generalize hg : w'.handles k = g
  have hcell := cellStep hstep p k
  rw [ht, hg] at hcell
  intro hpend
  cases hcell with
  | frame _ hs hc hl hp =>
    obtain ⟨⟨hpos, hmem⟩, hfin⟩ := hw (hp.1 hpend)
    exact ⟨⟨hc.2 hpos, hl ▸ hmem⟩, hfin.frame hs⟩
  | subscribed hcount hc hl hp =>
    have hm := hp.1 hpend
    refine ⟨?_, Session.willFinish_subscribeTimes hm⟩
    rw [PropertyHandle.wants_iff_count hc, hl]
    omega
  | unsubscribed hcount hc hl hp => simp [hp] at hpend
  | rerouted hcount hs hc hl hp =>
    have hm := hp.1 hpend
    refine ⟨?_, Session.willFinish_subscribeTimes hm⟩
    rw [PropertyHandle.wants_iff_count hc, hl]
    omega
  | relisted hcount hs hc hp =>
    -- Nobody waits on a handle that is not subscribed.
    rw [hp] at hpend
    exact absurd (hw hpend).1 (PropertyHandle.not_wants_of_eq_zero hcount)
  | @plugin e _ o _ he hc hl hp =>
    obtain ⟨hpend, hk⟩ := hp.1 hpend
    obtain ⟨hwants, hfin⟩ := hw hpend
    refine ⟨(PropertyHandle.wants_congr (by rw [hc]) hl).2 hwants, ?_⟩
    refine willFinish_plugin he ((hi p k).2 hwants) ?_ hfin hk
    rintro rfl
    by_contra hts
    exact hf ⟨rfl, k, hpend, hts⟩

omit [DecidableEq P] [DecidableEq K] in
theorem wait_init (p : P) (k : K) : (init : World P K V).WaitAt p k := by
  simp [WaitAt, init, PropertyHandle.init]

end World

/-- **Nobody waits for an answer that is not coming.**  After a run without a failure that a handle
is waiting through, a handle waits, apart from a queued `handleSubscribes`, only for a plugin that
is still initializing or for one that is ready and has been asked for the key without having
answered; so after a failure it does not wait at all. -/
theorem pending_has_reason [QVariant V] {cfg : Setup P K V} {es : List (WorldEvent P K V)}
    {w : World P K V}
    (hfail : Along (World.step cfg) (fun w e => ∀ p, ¬ w.FailsWaiting e p) World.init es)
    (hrun : run (World.step cfg) World.init es = some w) {p : P}
    (hq : Method.handleSubscribes ∉ (w.sessions p).provider.callQueue) :
    (∀ k, p ∈ (w.handles k).pendingSubscriptions →
      (w.sessions p).provider.pluginState = .initializing ∨
        (w.sessions p).provider.pluginState = .ready ∧ k ∈ (w.sessions p).unanswered) ∧
      ((w.sessions p).provider.pluginState = .failed →
        ∀ k, p ∉ (w.handles k).pendingSubscriptions) := by
  have h : ∀ p k, w.WaitAt p k :=
    run_inv_along_over (P := fun w : World P K V => ∀ p k, w.IntentAt p k)
      (Q := fun w => ∀ p k, w.WaitAt p k) (fun _ _ _ hi hst => World.intent_step hi hst)
      (fun _ _ _ hi h hf hst => World.wait_step hi h hf hst)
      World.intent_init World.wait_init hfail hrun
  have hreason : ∀ k, p ∈ (w.handles k).pendingSubscriptions →
      (w.sessions p).provider.pluginState = .initializing ∨
        (w.sessions p).provider.pluginState = .ready ∧ k ∈ (w.sessions p).unanswered := by
    intro k hk
    rcases (h p k hk).2 with ⟨-, hinit | hq'⟩ | hready
    · exact Or.inl hinit
    · exact absurd hq' hq
    · exact Or.inr hready
  refine ⟨hreason, fun hf k hk => ?_⟩
  rcases hreason k hk with hs | ⟨hs, -⟩
  · exact absurd (hf.symm.trans hs) (by decide)
  · exact absurd (hf.symm.trans hs) (by decide)

/-! ### A failure after the key was handed over, and one before -/

/-- The socket of the plugin is closed before it answers. -/
def failedUnanswered : List (WorldEvent String String (Option ℤ)) :=
  [.plugin "session" .ready, .updateProvider "Screen.TopEdge" ["session"],
    .subscribe "Screen.TopEdge", .plugin "session" .handleSubscribes, .plugin "session" .failed]

theorem exists_waiting_after_failed :
    ∃ w, run (World.step plain) World.init failedUnanswered = some w ∧
      Method.handleSubscribes ∉ (w.sessions "session").provider.callQueue ∧
      "session" ∈ (w.handles "Screen.TopEdge").pendingSubscriptions ∧
      (w.sessions "session").provider.pluginState = .failed ∧
      "Screen.TopEdge" ∉ (w.sessions "session").unanswered :=
  ⟨_, rfl, by decide, by decide, by decide, by decide⟩

/-- The failure comes before the main loop has handed the key over. -/
def failedScheduled : List (WorldEvent String String (Option ℤ)) :=
  [.plugin "session" .ready, .updateProvider "Screen.TopEdge" ["session"],
    .subscribe "Screen.TopEdge", .plugin "session" .failed, .plugin "session" .handleSubscribes]

theorem pending_has_reason_failedScheduled :
    ∃ w, run (World.step plain) World.init failedScheduled = some w ∧
      (∀ k, "session" ∈ (w.handles k).pendingSubscriptions →
        (w.sessions "session").provider.pluginState = .initializing ∨
          (w.sessions "session").provider.pluginState = .ready ∧
            k ∈ (w.sessions "session").unanswered) ∧
      ((w.sessions "session").provider.pluginState = .failed →
        ∀ k, "session" ∉ (w.handles k).pendingSubscriptions) := by
  have hfail : Along (World.step plain) (fun w e => ∀ p, ¬ w.FailsWaiting e p) World.init
      failedScheduled := by
    refine .cons ?_ rfl <| .cons ?_ rfl <| .cons ?_ rfl <| .cons ?_ rfl <| .cons ?_ rfl trivial
    · rintro p ⟨h, -⟩
      cases h
    · rintro p ⟨h, -⟩
      cases h
    · rintro p ⟨h, -⟩
      cases h
    · rintro p ⟨h, k, hk, hts⟩
      obtain rfl : "session" = p := by
        cases h
        rfl
      rcases eq_or_ne k "Screen.TopEdge" with rfl | hne
      · exact hts (by decide)
      · rw [World.subscribe_handles_of_ne _ hne, World.updateProvider_handles_of_ne _ hne] at hk
        change "session" ∈ (∅ : Finset String) at hk
        simp at hk
    · rintro p ⟨h, -⟩
      cases h
  exact ⟨_, rfl, pending_has_reason hfail rfl (by decide)⟩

end ContextSubscriber
