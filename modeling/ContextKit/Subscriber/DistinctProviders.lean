import ContextKit.Subscriber.HandleIntent

/-!
# No provider is listed twice

Where every list of providers names each of them once, the calls a provider gets for a key
alternate, and a scheduled unsubscription is always one of a key that is on the wire: no call is
lost.
-/

namespace ContextSubscriber
open ContextKit Transition

variable {P K V : Type} [DecidableEq P] [DecidableEq K]

/-- An event that lists no provider twice. -/
def WorldEvent.Distinct : WorldEvent P K V → Prop
  | .updateProvider _ infos => infos.Nodup
  | _ => True

namespace World

/-- What is scheduled to be unsubscribed is on the wire. -/
def SharpAt (w : World P K V) (p : P) (k : K) : Prop :=
  (w.sessions p).provider.pluginState = .ready → k ∈ (w.sessions p).provider.toUnsubscribe →
    k ∈ (w.sessions p).wire

/-! ### What an event does to the count and the list of a handle -/

section

variable (w : World P K V) (key : K)

theorem subscribe_handles :
    ((w.subscribe key).handles key).subscribeCount = (w.handles key).subscribeCount + 1 ∧
      ((w.subscribe key).handles key).myProviders = (w.handles key).myProviders := by
  unfold subscribe
  dsimp only
  split_ifs <;> simp

theorem unsubscribe_handles :
    ((w.unsubscribe key).handles key).subscribeCount = (w.handles key).subscribeCount - 1 ∧
      ((w.unsubscribe key).handles key).myProviders = (w.handles key).myProviders := by
  unfold unsubscribe
  dsimp only
  split_ifs <;> simp

theorem unsubscribe_handles_of_ne {k : K} (hk : k ≠ key) :
    (w.unsubscribe key).handles k = w.handles k := by
  unfold unsubscribe
  dsimp only
  split_ifs <;> exact Function.update_of_ne hk ..

theorem updateProvider_handles [QVariant V] (cfg : Setup P K V) (infos : List P) :
    ((w.updateProvider cfg key infos).handles key).subscribeCount =
        (w.handles key).subscribeCount ∧
      ((w.updateProvider cfg key infos).handles key).myProviders = newProviders cfg w infos := by
  unfold updateProvider
  dsimp only
  split_ifs
  · simp only [Function.update_self]
    rw [onValueChanged_fst]
    exact ⟨rfl, rfl⟩
  · simp
  · simp

end

/-- The count and the list stay, whatever the plugins do. -/
theorem plugin_handles [QVariant V] {cfg : Setup P K V} {w w' : World P K V} {p : P}
    {e : PluginEvent K V} (hstep : w.step cfg (.plugin p e) = some w') (k : K) :
    (w'.handles k).subscribeCount = (w.handles k).subscribeCount ∧
      (w'.handles k).myProviders = (w.handles k).myProviders := by
  obtain ⟨⟨t, o⟩, -, rfl⟩ := Option.map_eq_some_iff.1 hstep
  obtain ⟨hc, hl, -⟩ := route_handles cfg
    { w with sessions := Function.update w.sessions p t } p k p o
  exact ⟨hc, hl⟩

/-! ### Runs that list no provider twice -/

/-- The invariant of runs that list no provider twice. -/
structure Clean (w : World P K V) : Prop where
  nodup : ∀ k, (w.handles k).myProviders.Nodup
  intent : ∀ p k, w.IntentAt p k
  routed : ∀ p k, (w.sessions p).Routed (w.handles k) p k
  sharp : ∀ p k, w.SharpAt p k

variable {cfg : Setup P K V} {w w' : World P K V} {e : WorldEvent P K V}

omit [DecidableEq P] [DecidableEq K] in
theorem nodup_newProviders {infos : List P} (h : infos.Nodup) :
    (newProviders cfg w infos).Nodup := by
  unfold newProviders
  split_ifs
  · exact List.nodup_singleton _
  · exact h

omit [DecidableEq K] in
/-- Such an event loses no call. -/
theorem Clean.not_losesCall (h : w.Clean) (he : e.Distinct) (p : P) : ¬ w.LosesCall cfg e p := by
  cases e with
  | subscribe key =>
    rintro ⟨-, hready, ht, hwire, -⟩
    exact hwire (h.sharp p key hready ht)
  | updateProvider key infos =>
    rintro ⟨-, hready, ht | hcount, hwire, -⟩
    · exact hwire (h.sharp p key hready ht)
    · have := List.nodup_iff_count_le_one.1 (h.nodup key) p
      omega
  | unsubscribe | commander | plugin => exact id

/-- What a handle's last unsubscription schedules is on the wire. -/
theorem sharp_unsubscribeTimes {s : Session K V} {h : PropertyHandle P V} {p : P} {k : K}
    (hr : s.Routed h p k) (hcount : 0 < h.subscribeCount) (hnodup : h.myProviders.Nodup)
    (hs : s.provider.pluginState = .ready → k ∈ s.provider.toUnsubscribe → k ∈ s.wire)
    (hready : s.provider.pluginState = .ready)
    (hk : k ∈ (s.unsubscribeTimes k (h.myProviders.count p)).provider.toUnsubscribe) :
    k ∈ s.wire := by
  have hone := List.nodup_iff_count_le_one.1 hnodup p
  simp only [Session.unsubscribeTimes, Provider.mem_unsubscribeTimes_toUnsubscribe, true_and] at hk
  rcases hk with ht | ⟨hpos, hn⟩ | hmore
  · exact hs hready ht
  · obtain ⟨-, hwanted, -⟩ := hr.wanted hready ((PropertyHandle.wants_iff_count hcount).2 hpos)
    exact hwanted.resolve_right hn
  · omega

theorem sharp_step [QVariant V] (h : w.Clean) (hstep : w.step cfg e = some w') (p : P) (k : K) :
    w'.SharpAt p k := by
  have hs := h.sharp p k
  have hr := h.routed p k
  have hnodup := h.nodup k
  unfold SharpAt at hs ⊢
  generalize ht : w'.sessions p = t
  generalize hg : w'.handles k = g
  have hcell := cellStep hstep p k
  rw [ht, hg] at hcell
  cases hcell with
  | frame _ hsame _ _ _ =>
    rw [hsame.pluginState, hsame.toUnsubscribe, hsame.wire]
    exact hs
  | subscribed hcount hc hl _ =>
    simp only [Session.subscribeTimes, Provider.subscribeTimes_pluginState,
      Provider.mem_subscribeTimes_toUnsubscribe]
    exact fun hready hk => hs hready hk.1
  | unsubscribed hcount hc _ _ =>
    intro hready
    simp only [Session.unsubscribeTimes, Provider.unsubscribeTimes_pluginState] at hready
    exact sharp_unsubscribeTimes hr hcount hnodup hs hready
  | @rerouted infos s _ hcount hsame hc hl _ =>
    have hrs : s.Routed (w.handles k) p k := hr.frame hsame .rfl rfl
    intro hready hk
    simp only [Session.subscribeTimes, Session.unsubscribeTimes,
      Provider.subscribeTimes_pluginState, Provider.unsubscribeTimes_pluginState] at hready
    simp only [Session.subscribeTimes, Provider.mem_subscribeTimes_toUnsubscribe] at hk
    have hs' : s.provider.pluginState = .ready → k ∈ s.provider.toUnsubscribe → k ∈ s.wire := by
      rw [hsame.pluginState, hsame.toUnsubscribe, hsame.wire]
      exact hs
    have hwire : k ∈ s.wire := sharp_unsubscribeTimes hrs hcount hnodup hs' hready hk.1
    exact hwire
  | relisted _ hsame _ _ =>
    rw [hsame.pluginState, hsame.toUnsubscribe, hsame.wire]
    exact hs
  | plugin he _ _ _ =>
    cases Session.pluginStep_cases he with
    | handled => simp [Provider.clearSchedules]
    | handledFailed hq hf => exact fun hready => absurd (hf.symm.trans hready) (by decide)
    | handledInitializing hq hf => exact fun hready => absurd (hf.symm.trans hready) (by decide)
    | ready => simp
    | failed => simp
    | report hrep he =>
      obtain ⟨hp, hwire⟩ := Session.pluginStep_of_isReport hrep he
      rw [hp, hwire]
      exact hs

theorem nodup_step [QVariant V] (h : w.Clean) (he : e.Distinct) (hstep : w.step cfg e = some w')
    (k : K) : (w'.handles k).myProviders.Nodup := by
  have hk := h.nodup k
  cases e with
  | subscribe key =>
    obtain rfl := Option.some.inj hstep
    rcases eq_or_ne k key with rfl | hne
    · rwa [(subscribe_handles w k).2]
    · rwa [subscribe_handles_of_ne w hne]
  | unsubscribe key =>
    obtain ⟨-, rfl⟩ := Option.ite_some_none_eq_some.1 hstep
    rcases eq_or_ne k key with rfl | hne
    · rwa [(unsubscribe_handles w k).2]
    · rwa [unsubscribe_handles_of_ne w key hne]
  | updateProvider key infos =>
    obtain rfl := Option.some.inj hstep
    rcases eq_or_ne k key with rfl | hne
    · rw [(updateProvider_handles w k cfg infos).2]
      exact nodup_newProviders he
    · rwa [updateProvider_handles_of_ne w hne]
  | commander presence =>
    obtain rfl := Option.some.inj hstep
    exact hk
  | plugin p e => rwa [(plugin_handles hstep k).2]

/-- **One event** that lists no provider twice. -/
theorem clean_step [QVariant V] (h : w.Clean) (he : e.Distinct) (hstep : w.step cfg e = some w') :
    w'.Clean where
  nodup := nodup_step h he hstep
  intent := intent_step h.intent hstep
  routed := routed_step h.intent h.routed (h.not_losesCall he) hstep
  sharp := sharp_step h hstep

omit [DecidableEq K] in
theorem clean_init [QVariant V] : (init : World P K V).Clean where
  nodup _ := List.nodup_nil
  intent := intent_init
  routed := routed_init
  sharp p k := by simp [SharpAt, init, Session.init, Provider.init]

omit [DecidableEq K] in
/-- What is on the wire of a ready provider that has nothing to handle. -/
theorem Clean.wire_iff (h : w.Clean) {p : P} {k : K}
    (hready : (w.sessions p).provider.pluginState = .ready)
    (hq : Method.handleSubscribes ∉ (w.sessions p).provider.callQueue) :
    k ∈ (w.sessions p).wire ↔ (w.handles k).Wants p := by
  have hr := h.routed p k
  have hempty := not_or.1 fun hk => hq (hr.queued hready hk)
  constructor
  · intro hwire
    by_contra hw
    exact hempty.2 ((hr.unwanted hready hw).2 hwire)
  · intro hw
    exact (hr.wanted hready hw).2.1.resolve_right hempty.1

end World

end ContextSubscriber
