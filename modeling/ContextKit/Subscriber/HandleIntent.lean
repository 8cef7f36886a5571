import ContextKit.Subscriber.World

/-!
# What a handle wants, and what its providers are asked for

A handle wants its key at a provider when somebody has subscribed it and the provider is in its
list, and `Provider::subscribedKeys` always says just that.  The plugin, however, is only told of
the schedules, and two calls in a row for one key (the list may name a provider twice) schedule more
than they cancel: after `unsubscribe` and `unsubscribe` of a key that was waiting in `toSubscribe`
the key waits in `toUnsubscribe`, and a single `subscribe` then cancels that and leaves the plugin
without a call.  `LosesCall` is the step at which this happens; along runs without it the plugins
are subscribed to what the handles want.
-/

namespace ContextSubscriber
open ContextKit Transition

variable {P K V : Type} [DecidableEq P] [DecidableEq K]

/-- A single `Provider::subscribe` is about to cancel an unsubscription of `key` that would have
been of no effect, as the plugin of `p` is ready and not subscribed to `key`. -/
def World.LosesCall (cfg : Setup P K V) (w : World P K V) (e : WorldEvent P K V) (p : P) : Prop :=
  match e with
  | .subscribe key =>
    (w.handles key).subscribeCount = 0 ∧ (w.sessions p).provider.pluginState = .ready ∧
      key ∈ (w.sessions p).provider.toUnsubscribe ∧ key ∉ (w.sessions p).wire ∧
      (w.handles key).myProviders.count p = 1
  | .updateProvider key infos =>
    0 < (w.handles key).subscribeCount ∧ (w.sessions p).provider.pluginState = .ready ∧
      (key ∈ (w.sessions p).provider.toUnsubscribe ∨ 1 < (w.handles key).myProviders.count p) ∧
      key ∉ (w.sessions p).wire ∧ (w.newProviders cfg infos).count p = 1
  | _ => False

namespace Session

/-- The schedules of `p` lead the plugin to what the handle `h` of `k` wants.  In the ready state a
wanted key that is on the wire may be scheduled all the same, but then two calls stand behind it,
and the next round of calls leaves the key on the wire. -/
structure Routed (s : Session K V) (h : PropertyHandle P V) (p : P) (k : K) : Prop where
  wanted : s.provider.pluginState = .ready → h.Wants p →
    k ∉ s.provider.toUnsubscribe ∧ (k ∈ s.wire ∨ k ∈ s.provider.toSubscribe) ∧
      (k ∈ s.wire → k ∈ s.provider.toSubscribe → 1 < h.myProviders.count p)
  unwanted : s.provider.pluginState = .ready → ¬ h.Wants p →
    k ∉ s.provider.toSubscribe ∧ (k ∈ s.wire → k ∈ s.provider.toUnsubscribe)
  queued : s.provider.pluginState = .ready →
    k ∈ s.provider.toSubscribe ∨ k ∈ s.provider.toUnsubscribe →
    Method.handleSubscribes ∈ s.provider.callQueue

omit [DecidableEq K] in
theorem Routed.frame {s t : Session K V} {h h' : PropertyHandle P V} {p : P} {k : K}
    (hr : s.Routed h p k) (hs : s.SameAt k t)
    (hc : 0 < h'.subscribeCount ↔ 0 < h.subscribeCount) (hl : h'.myProviders = h.myProviders) :
    t.Routed h' p k := by
  have hw := PropertyHandle.wants_congr (p := p) hc hl
  constructor
  · rw [hs.pluginState, hw, hs.toUnsubscribe, hs.wire, hs.toSubscribe, hl]
    exact hr.wanted
  · rw [hs.pluginState, hw, hs.toSubscribe, hs.wire, hs.toUnsubscribe]
    exact hr.unwanted
  · rw [hs.pluginState, hs.toSubscribe, hs.toUnsubscribe]
    exact fun hready hk => hs.queued (hr.queued hready hk)

variable {s : Session K V} {h h' : PropertyHandle P V} {p : P} {k : K}

/-- The first subscription calls `p` once for each time it is listed. -/
theorem Routed.subscribed (hr : s.Routed h p k) (hcount : h.subscribeCount = 0)
    (hc : 0 < h'.subscribeCount) (hl : h'.myProviders = h.myProviders)
    (hloss : ¬ (s.provider.pluginState = .ready ∧ k ∈ s.provider.toUnsubscribe ∧ k ∉ s.wire ∧
      h.myProviders.count p = 1)) :
    (s.subscribeTimes k (h.myProviders.count p)).Routed h' p k := by
  have hnot : ¬ h.Wants p := PropertyHandle.not_wants_of_eq_zero hcount
  have hw : h'.Wants p ↔ 0 < h.myProviders.count p := by
    rw [PropertyHandle.wants_iff_count hc, hl]
  constructor
  · intro hready hpos
    simp only [subscribeTimes, Provider.subscribeTimes_pluginState] at hready
    obtain ⟨hs, hu⟩ := hr.unwanted hready hnot
    rw [hw] at hpos
    rw [hl]
    simp only [subscribeTimes, Provider.mem_subscribeTimes_toUnsubscribe,
      Provider.mem_subscribeTimes_toSubscribe]
    refine ⟨by simp [hpos], ?_, ?_⟩
    · by_cases ht : k ∈ s.provider.toUnsubscribe
      · by_cases hwire : k ∈ s.wire
        · exact Or.inl hwire
        · -- A single call would cancel the unsubscription and leave the plugin without a call.
          have hone : h.myProviders.count p ≠ 1 := fun h1 => hloss ⟨hready, ht, hwire, h1⟩
          have : 1 < h.myProviders.count p := by omega
          exact Or.inr (Or.inr ⟨trivial, Or.inr this⟩)
      · exact Or.inr (Or.inr ⟨trivial, Or.inl ⟨hpos, ht⟩⟩)
    · rintro hwire (ht | ⟨-, ⟨-, ht⟩ | h1⟩)
      · exact absurd ht hs
      · exact absurd (hu hwire) ht
      · exact h1
  · intro hready hpos
    simp only [subscribeTimes, Provider.subscribeTimes_pluginState] at hready
    rw [hw, Nat.pos_iff_ne_zero, not_not] at hpos
    simpa [subscribeTimes, hpos] using hr.unwanted hready hnot
  · intro hready hk
    simp only [subscribeTimes, Provider.subscribeTimes_pluginState] at hready
    have hq := hr.queued hready
    simp only [subscribeTimes, Provider.mem_subscribeTimes_toUnsubscribe,
      Provider.mem_subscribeTimes_toSubscribe, Provider.mem_subscribeTimes_callQueue] at hk ⊢
    grind

/-- The last unsubscription calls `p` once for each time it is listed. -/
theorem Routed.unsubscribed (hr : s.Routed h p k) (hcount : 0 < h.subscribeCount)
    (hc : h'.subscribeCount = 0) :
    (s.unsubscribeTimes k (h.myProviders.count p)).Routed h' p k := by
  have hnot : ¬ h'.Wants p := PropertyHandle.not_wants_of_eq_zero hc
  have hw : h.Wants p ↔ 0 < h.myProviders.count p := PropertyHandle.wants_iff_count hcount
  constructor
  · exact fun _ hpos => absurd hpos hnot
  · intro hready _
    simp only [unsubscribeTimes, Provider.unsubscribeTimes_pluginState] at hready
    simp only [unsubscribeTimes, Provider.mem_unsubscribeTimes_toUnsubscribe,
      Provider.mem_unsubscribeTimes_toSubscribe]
    rcases Nat.eq_zero_or_pos (h.myProviders.count p) with h0 | hpos
    · obtain ⟨hs, hu⟩ := hr.unwanted hready (by rw [hw]; omega)
      exact ⟨fun ht => hs ht.1, fun hwire => Or.inl (hu hwire)⟩
    · obtain ⟨-, -, hdouble⟩ := hr.wanted hready (hw.2 hpos)
      refine ⟨fun ht => ht.2 ⟨trivial, hpos⟩, fun hwire => Or.inr ⟨trivial, ?_⟩⟩
      by_cases ht : k ∈ s.provider.toSubscribe
      · exact Or.inr (hdouble hwire ht)
      · exact Or.inl ⟨hpos, ht⟩
  · intro hready hk
    simp only [unsubscribeTimes, Provider.unsubscribeTimes_pluginState] at hready
    have hq := hr.queued hready
    simp only [unsubscribeTimes, Provider.mem_unsubscribeTimes_toUnsubscribe,
      Provider.mem_unsubscribeTimes_toSubscribe, Provider.mem_unsubscribeTimes_callQueue] at hk ⊢
    grind

omit [DecidableEq K] in
/-- The list of a handle that nobody has subscribed is free to change. -/
theorem Routed.relisted (hr : s.Routed h p k) (hcount : h.subscribeCount = 0)
    (hc : h'.subscribeCount = 0) : s.Routed h' p k where
  wanted := fun _ hw => absurd hw (PropertyHandle.not_wants_of_eq_zero hc)
  unwanted := fun hready _ => hr.unwanted hready (PropertyHandle.not_wants_of_eq_zero hcount)
  queued := hr.queued

/-- One event from the plugin's side. -/
theorem Routed.plugin (hr : s.Routed h p k) (hi : k ∈ s.provider.subscribedKeys ↔ h'.Wants p)
    {t : Session K V} {e : PluginEvent K V} {o : Signals K}
    (he : s.pluginStep e = some (t, o))
    (hc : h'.subscribeCount = h.subscribeCount) (hl : h'.myProviders = h.myProviders) :
    t.Routed h' p k := by
  have hframe : s.Routed h' p k := hr.frame (SameAt.refl k s) (by rw [hc]) hl
  cases pluginStep_cases he with
  | handled hq hready =>
    refine ⟨fun _ hw => ?_, fun _ hw => ?_, fun _ hk => ?_⟩
    · obtain ⟨hu, hs, -⟩ := hframe.wanted hready hw
      simp [Provider.clearSchedules, hu, hs]
    · obtain ⟨-, hu⟩ := hframe.unwanted hready hw
      have hs := (hframe.unwanted hready hw).1
      simp only [Provider.clearSchedules, Finset.mem_sdiff, Finset.mem_union, Finset.notMem_empty,
        not_false_iff, true_and]
      rintro ⟨hwire | ht, hn⟩
      · exact hn (hu hwire)
      · exact hs ht
    · simp [Provider.clearSchedules] at hk
  | handledFailed hq hf =>
    refine ⟨fun hready => ?_, fun hready => ?_, fun hready => ?_⟩ <;>
      exact absurd (hf.symm.trans hready) (by decide)
  | handledInitializing hq hf =>
    refine ⟨fun hready => ?_, fun hready => ?_, fun hready => ?_⟩ <;>
      exact absurd (hf.symm.trans hready) (by decide)
  | ready hn => exact ⟨by simp [hi], by simp [hi], by simp⟩
  | failed => exact ⟨by simp, by simp, by simp⟩
  | report hrep he =>
    obtain ⟨hp, hwire⟩ := pluginStep_of_isReport hrep he
    refine ⟨?_, ?_, ?_⟩ <;> rw [hp] <;> try rw [hwire]
    exacts [hframe.wanted, hframe.unwanted, hframe.queued]

end Session

namespace World

variable [QVariant V] {cfg : Setup P K V}

/-- One event that loses no call keeps every pair of a provider and a handle routed. -/
theorem routed_step {w w' : World P K V} {e : WorldEvent P K V}
    (hi : ∀ p k, w.IntentAt p k) (h : ∀ p k, (w.sessions p).Routed (w.handles k) p k)
    (hloss : ∀ p, ¬ w.LosesCall cfg e p)
    (hstep : w.step cfg e = some w') (p : P) (k : K) :
    (w'.sessions p).Routed (w'.handles k) p k := by
  have hr := h p k
  have hp := hloss p
  generalize ht : w'.sessions p = t
  generalize hg : w'.handles k = g
  have hcell := cellStep hstep p k
  have hi' := hcell.intent (hi p k)
  rw [ht, hg] at hcell hi'
  cases hcell with
  | frame _ hs hc hl _ => exact hr.frame hs hc hl
  | subscribed hcount hc hl _ =>
    refine hr.subscribed hcount hc hl fun ⟨h₁, h₂, h₃, h₄⟩ => hp ?_
    exact ⟨hcount, h₁, h₂, h₃, h₄⟩
  | unsubscribed hcount hc hl _ => exact hr.unsubscribed hcount hc
  | @rerouted infos s _ hcount hs hc hl _ =>
    -- All unsubscribed, relisted, and subscribed again.
    have hrs : s.Routed (w.handles k) p k := hr.frame hs .rfl rfl
    let g₀ : PropertyHandle P V := { g with subscribeCount := 0 }
    have hr₀ : (s.unsubscribeTimes k ((w.handles k).myProviders.count p)).Routed g₀ p k :=
      hrs.unsubscribed hcount rfl
    rw [← hl]
    refine hr₀.subscribed rfl hc rfl ?_
    rintro ⟨hready, ht, hwire, hone⟩
    have hwire : k ∉ s.wire := hwire
    simp only [Session.unsubscribeTimes, Provider.unsubscribeTimes_pluginState] at hready
    simp only [Session.unsubscribeTimes, Provider.mem_unsubscribeTimes_toUnsubscribe] at ht
    refine hp ⟨hcount, ?_, ?_, ?_, ?_⟩
    · rw [← hs.pluginState, hready]
    · rcases ht with ht | ⟨-, ⟨hpos, hn⟩ | ht⟩
      · exact Or.inl (hs.toUnsubscribe.1 ht)
      · obtain ⟨-, h₂, -⟩ := hrs.wanted hready ⟨hcount, List.count_pos_iff.1 hpos⟩
        exact absurd h₂ (not_or.2 ⟨hwire, hn⟩)
      · exact Or.inr ht
    · rwa [← hs.wire]
    · rw [← hl]
      exact hone
  | relisted hcount hs hc _ => exact (hr.frame hs .rfl rfl).relisted hcount hc
  | plugin he hc hl _ =>
    rw [Session.pluginStep_subscribedKeys he] at hi'
    exact hr.plugin hi' he hc hl

omit [DecidableEq K] in
theorem routed_init (p : P) (k : K) :
    ((init : World P K V).sessions p).Routed ((init : World P K V).handles k) p k := by
  constructor <;> simp [init, Session.init, Provider.init, PropertyHandle.init,
    PropertyHandle.Wants]

end World

/-- **What the handles want reaches the providers.**  After a run that loses no call, a ready
provider without a queued `handleSubscribes` has its plugin subscribed to a key exactly when the
handle of the key is subscribed and lists the provider. -/
theorem wire_iff_wants [QVariant V] {cfg : Setup P K V} {es : List (WorldEvent P K V)}
    {w : World P K V}
    (hloss : Along (World.step cfg) (fun w e => ∀ p, ¬ w.LosesCall cfg e p) World.init es)
    (hrun : run (World.step cfg) World.init es = some w) {p : P} {k : K}
    (hready : (w.sessions p).provider.pluginState = .ready)
    (hq : Method.handleSubscribes ∉ (w.sessions p).provider.callQueue) :
    k ∈ (w.sessions p).wire ↔
      0 < (w.handles k).subscribeCount ∧ p ∈ (w.handles k).myProviders := by
  have hr : (w.sessions p).Routed (w.handles k) p k :=
    run_inv_along_over (P := fun w : World P K V => ∀ p k, w.IntentAt p k)
      (Q := fun w => ∀ p k, (w.sessions p).Routed (w.handles k) p k)
      (fun _ _ _ hi hst => World.intent_step hi hst)
      (fun _ _ _ hi h hl hst => World.routed_step hi h hl hst)
      World.intent_init World.routed_init hloss hrun p k
  have hempty : k ∉ (w.sessions p).provider.toSubscribe ∧
      k ∉ (w.sessions p).provider.toUnsubscribe :=
    not_or.1 fun hk => hq (hr.queued hready hk)
  constructor
  · intro hwire
    by_contra hw
    exact hempty.2 ((hr.unwanted hready hw).2 hwire)
  · intro hw
    exact (hr.wanted hready hw).2.1.resolve_right hempty.1

/-! ### The registry lists a provider twice, and then once -/

/-- A key whose list is reduced to a single entry before the doubled subscription was handled. -/
def relistedOnce : List (WorldEvent String String (Option ℤ)) :=
  [.plugin "session" .ready, .updateProvider "Screen.TopEdge" ["session", "session"],
    .subscribe "Screen.TopEdge", .updateProvider "Screen.TopEdge" ["session"],
    .plugin "session" .handleSubscribes]

/-- The key is subscribed, but the plugin is never asked for it. -/
theorem exists_wanted_not_on_wire :
    ∃ w, run (World.step plain) World.init relistedOnce = some w ∧
      (w.sessions "session").provider.pluginState = .ready ∧
      Method.handleSubscribes ∉ (w.sessions "session").provider.callQueue ∧
      0 < (w.handles "Screen.TopEdge").subscribeCount ∧
      "session" ∈ (w.handles "Screen.TopEdge").myProviders ∧
      "Screen.TopEdge" ∉ (w.sessions "session").wire :=
  ⟨_, rfl, by decide, by decide, by decide, by decide, by decide⟩

/-- The same list, handled before it is reduced. -/
def handledBetween : List (WorldEvent String String (Option ℤ)) :=
  [.plugin "session" .ready, .updateProvider "Screen.TopEdge" ["session", "session"],
    .subscribe "Screen.TopEdge", .plugin "session" .handleSubscribes,
    .updateProvider "Screen.TopEdge" ["session"], .plugin "session" .handleSubscribes]

theorem wire_iff_wants_handledBetween :
    ∃ w, run (World.step plain) World.init handledBetween = some w ∧
      ("Screen.TopEdge" ∈ (w.sessions "session").wire ↔
        0 < (w.handles "Screen.TopEdge").subscribeCount ∧
          "session" ∈ (w.handles "Screen.TopEdge").myProviders) := by
  have hloss : Along (World.step plain) (fun w e => ∀ p, ¬ w.LosesCall plain e p) World.init
      handledBetween := by
    refine .cons (fun p h => h) rfl <| .cons ?_ rfl <| .cons ?_ rfl <| .cons (fun p h => h) rfl <|
      .cons ?_ rfl <| .cons (fun p h => h) rfl trivial
    · rintro p ⟨hpos, -⟩
      exact absurd hpos (by decide)
    · rintro p ⟨-, -, -, -, hone⟩
      change ["session", "session"].count p = 1 at hone
      by_cases hp : "session" = p <;> simp [hp] at hone
    · rintro p ⟨-, -, -, hwire, hone⟩
      change ["session"].count p = 1 at hone
      obtain rfl : p = "session" := List.mem_singleton.1 (List.count_pos_iff.1 (by omega))
      exact hwire (by decide)
  exact ⟨_, rfl, wire_iff_wants hloss rfl (by decide) (by decide)⟩

end ContextSubscriber
