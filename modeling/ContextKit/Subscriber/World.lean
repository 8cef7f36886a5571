import ContextKit.Subscriber.PropertyHandle

/-!
# What one event does to one provider and one handle

A handle calls each provider as often as it occurs in the handle's list, so what an event does at a
provider `p` to a key `k` is given by the number of these calls: `subscribe` or `unsubscribe`
iterated.  Everything below is about one such pair `(p, k)`: what the iterated calls do to the
fields, what each event does to `w.sessions p` and `w.handles k`, and the facts about the pair that
hold whatever the callers do.
-/

namespace ContextSubscriber
open ContextKit Transition

namespace Provider

variable {K V : Type} [DecidableEq K]

/-- `m` calls of `subscribe key`. -/
def subscribeTimes (key : K) (m : ℕ) : Provider K V → Provider K V :=
  (fun p => (p.subscribe key).1)^[m]

/-- `m` calls of `unsubscribe key`. -/
def unsubscribeTimes (key : K) (m : ℕ) : Provider K V → Provider K V :=
  (fun p => p.unsubscribe key)^[m]

variable (p : Provider K V) (key : K) (m : ℕ)

theorem subscribeTimes_succ :
    p.subscribeTimes key (m + 1) = ((p.subscribeTimes key m).subscribe key).1 :=
  Function.iterate_succ_apply' _ m p

theorem unsubscribeTimes_succ :
    p.unsubscribeTimes key (m + 1) = (p.unsubscribeTimes key m).unsubscribe key :=
  Function.iterate_succ_apply' _ m p

@[simp] theorem subscribeTimes_pluginState :
    (p.subscribeTimes key m).pluginState = p.pluginState := by
  induction m with
  | zero => rfl
  | succ m ih => rw [subscribeTimes_succ, subscribe_pluginState, ih]

@[simp] theorem unsubscribeTimes_pluginState :
    (p.unsubscribeTimes key m).pluginState = p.pluginState := by
  induction m with
  | zero => rfl
  | succ m ih => rw [unsubscribeTimes_succ, unsubscribe_pluginState, ih]

@[simp] theorem mem_subscribeTimes_subscribedKeys {k : K} :
    k ∈ (p.subscribeTimes key m).subscribedKeys ↔ k ∈ p.subscribedKeys ∨ k = key ∧ 0 < m := by
  induction m with
  | zero => simp [subscribeTimes]
  | succ m ih =>
    rw [subscribeTimes_succ, subscribe_subscribedKeys, Finset.mem_insert, ih]
    simp only [Nat.zero_lt_succ, and_true]
    grind

@[simp] theorem mem_unsubscribeTimes_subscribedKeys {k : K} :
    k ∈ (p.unsubscribeTimes key m).subscribedKeys ↔
      k ∈ p.subscribedKeys ∧ ¬ (k = key ∧ 0 < m) := by
  induction m with
  | zero => simp [unsubscribeTimes]
  | succ m ih =>
    rw [unsubscribeTimes_succ, unsubscribe_subscribedKeys, Finset.mem_erase, ih]
    simp only [Nat.zero_lt_succ, and_true]
    grind

@[simp] theorem mem_subscribeTimes_toUnsubscribe {k : K} :
    k ∈ (p.subscribeTimes key m).toUnsubscribe ↔
      k ∈ p.toUnsubscribe ∧ ¬ (k = key ∧ 0 < m) := by
  induction m with
  | zero => simp [subscribeTimes]
  | succ m ih =>
    rw [subscribeTimes_succ, subscribe_toUnsubscribe, Finset.mem_erase, ih]
    simp only [Nat.zero_lt_succ, and_true]
    grind

@[simp] theorem mem_unsubscribeTimes_toSubscribe {k : K} :
    k ∈ (p.unsubscribeTimes key m).toSubscribe ↔
      k ∈ p.toSubscribe ∧ ¬ (k = key ∧ 0 < m) := by
  induction m with
  | zero => simp [unsubscribeTimes]
  | succ m ih =>
    rw [unsubscribeTimes_succ, unsubscribe_toSubscribe, Finset.mem_erase, ih]
    simp only [Nat.zero_lt_succ, and_true]
    grind

/-- A call that comes after another one of the same kind is always scheduled: `scheduled m` is what
`m` calls come to, and `undone` that the first one takes back a call of the other kind. -/
theorem scheduled_iff (scheduled : ℕ → Prop) (mine undone : Prop) {before : Prop}
    (hzero : scheduled 0 ↔ before)
    (hsucc : ∀ m, scheduled (m + 1) ↔ scheduled m ∨ mine ∧ ¬ (undone ∧ ¬ 0 < m)) (m : ℕ) :
    scheduled m ↔ before ∨ mine ∧ (0 < m ∧ ¬ undone ∨ 1 < m) := by
  induction m with
  | zero => simp [hzero]
  | succ m ih =>
    rw [hsucc, ih]
    rcases Nat.eq_zero_or_pos m with rfl | hm
    · simp
    · have h₁ : 0 < m + 1 := Nat.succ_pos m
      have h₂ : 1 < m + 1 := by omega
      simp only [hm, h₁, h₂]
      grind

@[simp] theorem mem_subscribeTimes_toSubscribe {k : K} :
    k ∈ (p.subscribeTimes key m).toSubscribe ↔
      k ∈ p.toSubscribe ∨ k = key ∧ (0 < m ∧ key ∉ p.toUnsubscribe ∨ 1 < m) := by
  refine scheduled_iff (fun m => k ∈ (p.subscribeTimes key m).toSubscribe) (k = key)
    (key ∈ p.toUnsubscribe) Iff.rfl (fun m => ?_) m
  simp [subscribeTimes_succ]

@[simp] theorem mem_unsubscribeTimes_toUnsubscribe {k : K} :
    k ∈ (p.unsubscribeTimes key m).toUnsubscribe ↔
      k ∈ p.toUnsubscribe ∨ k = key ∧ (0 < m ∧ key ∉ p.toSubscribe ∨ 1 < m) := by
  refine scheduled_iff (fun m => k ∈ (p.unsubscribeTimes key m).toUnsubscribe) (k = key)
    (key ∈ p.toSubscribe) Iff.rfl (fun m => ?_) m
  simp [unsubscribeTimes_succ]

/-- Whatever is scheduled is also queued to be handled. -/
@[simp] theorem mem_subscribeTimes_callQueue :
    Method.handleSubscribes ∈ (p.subscribeTimes key m).callQueue ↔
      Method.handleSubscribes ∈ p.callQueue ∨ 0 < m ∧ key ∉ p.toUnsubscribe ∨ 1 < m := by
  have h := scheduled_iff (fun m => Method.handleSubscribes ∈ (p.subscribeTimes key m).callQueue)
    True (key ∈ p.toUnsubscribe) Iff.rfl (fun m => by simp [subscribeTimes_succ]) m
  rwa [true_and] at h

@[simp] theorem mem_unsubscribeTimes_callQueue :
    Method.handleSubscribes ∈ (p.unsubscribeTimes key m).callQueue ↔
      Method.handleSubscribes ∈ p.callQueue ∨ 0 < m ∧ key ∉ p.toSubscribe ∨ 1 < m := by
  have h := scheduled_iff (fun m => Method.handleSubscribes ∈ (p.unsubscribeTimes key m).callQueue)
    True (key ∈ p.toSubscribe) Iff.rfl (fun m => by simp [unsubscribeTimes_succ]) m
  rwa [true_and] at h

end Provider

/-! ### The calls of a handle, provider by provider -/

section

variable {P K V : Type} [DecidableEq P] [DecidableEq K]

/-- The session after `m` calls of `Provider::subscribe`. -/
def Session.subscribeTimes (key : K) (m : ℕ) (s : Session K V) : Session K V :=
  { s with provider := s.provider.subscribeTimes key m }

/-- The session after `m` calls of `Provider::unsubscribe`. -/
def Session.unsubscribeTimes (key : K) (m : ℕ) (s : Session K V) : Session K V :=
  { s with provider := s.provider.unsubscribeTimes key m }

theorem unsubscribeEach_apply (key : K) (ps : List P) (ss : P → Session K V) (p : P) :
    unsubscribeEach key ps ss p = (ss p).unsubscribeTimes key (ps.count p) := by
  induction ps generalizing ss with
  | nil => rfl
  | cons q ps ih =>
    rw [unsubscribeEach, ih]
    rcases eq_or_ne p q with rfl | hp
    · rw [Function.update_self, List.count_cons_self]
      rfl
    · rw [Function.update_of_ne hp, List.count_cons_of_ne hp.symm]

theorem subscribeEach_fst_apply (key : K) (ps : List P) (ss : P → Session K V) (pending : Finset P)
    (p : P) :
    (subscribeEach key ps (ss, pending)).1 p = (ss p).subscribeTimes key (ps.count p) := by
  induction ps generalizing ss pending with
  | nil => rfl
  | cons q ps ih =>
    rw [subscribeEach, ih]
    rcases eq_or_ne p q with rfl | hp
    · rw [Function.update_self, List.count_cons_self]
      rfl
    · rw [Function.update_of_ne hp, List.count_cons_of_ne hp.symm]

/-- A provider has to be waited for unless its only call cancelled a scheduled unsubscription. -/
theorem mem_subscribeEach_snd (key : K) (ps : List P) (ss : P → Session K V) (pending : Finset P)
    (p : P) :
    p ∈ (subscribeEach key ps (ss, pending)).2 ↔
      p ∈ pending ∨ 0 < ps.count p ∧ key ∉ (ss p).provider.toUnsubscribe ∨ 1 < ps.count p := by
  induction ps generalizing ss pending with
  | nil => simp [subscribeEach]
  | cons q ps ih =>
    rw [subscribeEach, ih]
    rcases eq_or_ne p q with rfl | hp
    · have hn : key ∉ ((ss p).subscribe key).1.provider.toUnsubscribe := by
        simp [Session.subscribe]
      have hr : ((ss p).subscribe key).2 = decide (key ∉ (ss p).provider.toUnsubscribe) :=
        Provider.subscribe_snd _ _
      rw [Function.update_self, List.count_cons_self, hr]
      have h₁ : p ∈ (if decide (key ∉ (ss p).provider.toUnsubscribe) = true
          then insert p pending else pending) ↔
            p ∈ pending ∨ key ∉ (ss p).provider.toUnsubscribe := by
        by_cases ht : key ∈ (ss p).provider.toUnsubscribe <;> simp [ht]
      rw [h₁]
      grind
    · rw [Function.update_of_ne hp, List.count_cons_of_ne hp.symm]
      split_ifs <;> simp [hp]

/-- The handle should be subscribed at `p`. -/
def PropertyHandle.Wants (h : PropertyHandle P V) (p : P) : Prop :=
  0 < h.subscribeCount ∧ p ∈ h.myProviders

omit [DecidableEq K] [DecidableEq P] in
theorem PropertyHandle.wants_congr {h h' : PropertyHandle P V} {p : P}
    (hc : 0 < h'.subscribeCount ↔ 0 < h.subscribeCount) (hl : h'.myProviders = h.myProviders) :
    h'.Wants p ↔ h.Wants p := by
  rw [Wants, Wants, hc, hl]

omit [DecidableEq K] [DecidableEq P] in
theorem PropertyHandle.not_wants_of_eq_zero {h : PropertyHandle P V} {p : P}
    (hc : h.subscribeCount = 0) : ¬ h.Wants p := by
  rintro ⟨hpos, -⟩
  omega

omit [DecidableEq K] in
theorem PropertyHandle.wants_iff_count {h : PropertyHandle P V} {p : P}
    (hc : 0 < h.subscribeCount) : h.Wants p ↔ 0 < h.myProviders.count p := by
  rw [Wants, List.count_pos_iff]
  exact and_iff_right hc

/-! ### One event at one pair -/

/-- Nothing has changed at `k` from `s` to `t`, except that handling may have been queued. -/
structure Session.SameAt (k : K) (s t : Session K V) : Prop where
  pluginState : t.provider.pluginState = s.provider.pluginState
  subscribedKeys : k ∈ t.provider.subscribedKeys ↔ k ∈ s.provider.subscribedKeys
  toSubscribe : k ∈ t.provider.toSubscribe ↔ k ∈ s.provider.toSubscribe
  toUnsubscribe : k ∈ t.provider.toUnsubscribe ↔ k ∈ s.provider.toUnsubscribe
  queued : Method.handleSubscribes ∈ s.provider.callQueue →
    Method.handleSubscribes ∈ t.provider.callQueue
  wire : k ∈ t.wire ↔ k ∈ s.wire
  unanswered : k ∈ t.unanswered ↔ k ∈ s.unanswered
  answered : k ∈ t.answered ↔ k ∈ s.answered

omit [DecidableEq K] in
theorem Session.SameAt.refl (k : K) (s : Session K V) : s.SameAt k s :=
  ⟨rfl, .rfl, .rfl, .rfl, id, .rfl, .rfl, .rfl⟩

omit [DecidableEq K] in
theorem Session.SameAt.trans {k : K} {s t u : Session K V} (h : s.SameAt k t) (h' : t.SameAt k u) :
    s.SameAt k u where
  pluginState := h'.pluginState.trans h.pluginState
  subscribedKeys := h'.subscribedKeys.trans h.subscribedKeys
  toSubscribe := h'.toSubscribe.trans h.toSubscribe
  toUnsubscribe := h'.toUnsubscribe.trans h.toUnsubscribe
  queued := fun hq => h'.queued (h.queued hq)
  wire := h'.wire.trans h.wire
  unanswered := h'.unanswered.trans h.unanswered
  answered := h'.answered.trans h.answered

theorem Session.sameAt_subscribeTimes {k key : K} (hk : k ≠ key) (m : ℕ) (s : Session K V) :
    s.SameAt k (s.subscribeTimes key m) := by
  constructor <;> simp [subscribeTimes, hk]
  exact fun hq => Or.inl hq

theorem Session.sameAt_unsubscribeTimes {k key : K} (hk : k ≠ key) (m : ℕ) (s : Session K V) :
    s.SameAt k (s.unsubscribeTimes key m) := by
  constructor <;> simp [unsubscribeTimes, hk]
  exact fun hq => Or.inl hq

namespace World

omit [DecidableEq K] in
theorem sameAt_clearCommander (cfg : Setup P K V) (w : World P K V) (k : K) (p : P) :
    (w.sessions p).SameAt k (clearCommander cfg w p) := by
  unfold clearCommander
  split_ifs
  · rcases eq_or_ne p cfg.commander with rfl | hp
    · rw [Function.update_self]
      exact ⟨rfl, .rfl, .rfl, .rfl, id, .rfl, .rfl, .rfl⟩
    · rw [Function.update_of_ne hp]
      exact Session.SameAt.refl k (w.sessions p)
  · exact Session.SameAt.refl k (w.sessions p)

/-- What an event of the world can do to the session of `p` and the handle of `k`. -/
inductive CellStep (cfg : Setup P K V) (w : World P K V) (p : P) (k : K) :
    WorldEvent P K V → Session K V → PropertyHandle P V → Prop
  | frame {e : WorldEvent P K V} {t : Session K V} {h : PropertyHandle P V}
      (he : ∀ e', e ≠ .plugin p e') (hs : (w.sessions p).SameAt k t)
      (hc : 0 < h.subscribeCount ↔ 0 < (w.handles k).subscribeCount)
      (hl : h.myProviders = (w.handles k).myProviders)
      (hp : p ∈ h.pendingSubscriptions ↔ p ∈ (w.handles k).pendingSubscriptions) :
      CellStep cfg w p k e t h
  | subscribed {h : PropertyHandle P V} (hcount : (w.handles k).subscribeCount = 0)
      (hc : 0 < h.subscribeCount) (hl : h.myProviders = (w.handles k).myProviders)
      (hp : p ∈ h.pendingSubscriptions ↔
        0 < (w.handles k).myProviders.count p ∧ k ∉ (w.sessions p).provider.toUnsubscribe ∨
          1 < (w.handles k).myProviders.count p) :
      CellStep cfg w p k (.subscribe k)
        ((w.sessions p).subscribeTimes k ((w.handles k).myProviders.count p)) h
  | unsubscribed {h : PropertyHandle P V} (hcount : 0 < (w.handles k).subscribeCount)
      (hc : h.subscribeCount = 0) (hl : h.myProviders = (w.handles k).myProviders)
      (hp : h.pendingSubscriptions = ∅) :
      CellStep cfg w p k (.unsubscribe k)
        ((w.sessions p).unsubscribeTimes k ((w.handles k).myProviders.count p)) h
  | rerouted {infos : List P} {s : Session K V} {h : PropertyHandle P V}
      (hcount : 0 < (w.handles k).subscribeCount) (hs : (w.sessions p).SameAt k s)
      (hc : 0 < h.subscribeCount) (hl : h.myProviders = newProviders cfg w infos)
      (hp : p ∈ h.pendingSubscriptions ↔
        0 < (newProviders cfg w infos).count p ∧ k ∉ (s.unsubscribeTimes k
          ((w.handles k).myProviders.count p)).provider.toUnsubscribe ∨
          1 < (newProviders cfg w infos).count p) :
      CellStep cfg w p k (.updateProvider k infos)
        ((s.unsubscribeTimes k ((w.handles k).myProviders.count p)).subscribeTimes k
          ((newProviders cfg w infos).count p)) h
  | relisted {infos : List P} {t : Session K V} {h : PropertyHandle P V}
      (hcount : (w.handles k).subscribeCount = 0) (hs : (w.sessions p).SameAt k t)
      (hc : h.subscribeCount = 0)
      (hp : h.pendingSubscriptions = (w.handles k).pendingSubscriptions) :
      CellStep cfg w p k (.updateProvider k infos) t h
  | plugin {e : PluginEvent K V} {t : Session K V} {o : Signals K} {h : PropertyHandle P V}
      (hs : (w.sessions p).pluginStep e = some (t, o))
      (hc : h.subscribeCount = (w.handles k).subscribeCount)
      (hl : h.myProviders = (w.handles k).myProviders)
      (hp : p ∈ h.pendingSubscriptions ↔
        p ∈ (w.handles k).pendingSubscriptions ∧ k ∉ o.finished) :
      CellStep cfg w p k (.plugin p e) t h

theorem subscribe_handles_of_ne (w : World P K V) {k key : K} (hk : k ≠ key) :
    (w.subscribe key).handles k = w.handles k := by
  unfold subscribe
  dsimp only
  split_ifs <;> exact Function.update_of_ne hk ..

theorem updateProvider_handles_of_ne [QVariant V] {cfg : Setup P K V} (w : World P K V) {k key : K}
    (hk : k ≠ key) (infos : List P) :
    (w.updateProvider cfg key infos).handles k = w.handles k := by
  unfold updateProvider
  dsimp only
  split_ifs <;> exact Function.update_of_ne hk ..

section

variable [QVariant V] (cfg : Setup P K V) (w : World P K V) (p : P) (k : K)

omit [DecidableEq P] [DecidableEq K] in
/-- Recomputing the value leaves the rest of a handle alone. -/
theorem onValueChanged_fst (key : K) (get : P → TimedValue V) (h : PropertyHandle P V) :
    (h.onValueChanged cfg key get).1 =
      { h with myValue := (h.onValueChanged cfg key get).1.myValue } := by
  unfold PropertyHandle.onValueChanged PropertyHandle.changeValue
  dsimp only
  split_ifs <;> rfl

omit [QVariant V] in
theorem cellStep_subscribe (key : K) :
    CellStep cfg w p k (.subscribe key) ((w.subscribe key).sessions p)
      ((w.subscribe key).handles k) := by
  unfold subscribe
  dsimp only
  rcases eq_or_ne k key with rfl | hk
  · split_ifs with hcount
    · have hcount : (w.handles k).subscribeCount = 0 := by omega
      simp only [subscribeEach_fst_apply, Function.update_self]
      refine .subscribed hcount (Nat.succ_pos _) rfl ?_
      simp [mem_subscribeEach_snd]
    · simp only [Function.update_self]
      exact .frame (by simp) (Session.SameAt.refl k _) (by dsimp only; omega) rfl .rfl
  · split_ifs with hcount
    · simp only [subscribeEach_fst_apply, Function.update_of_ne hk]
      exact .frame (by simp) (Session.sameAt_subscribeTimes hk _ _) .rfl rfl .rfl
    · simp only [Function.update_of_ne hk]
      exact .frame (by simp) (Session.SameAt.refl k _) .rfl rfl .rfl

omit [QVariant V] in
theorem cellStep_unsubscribe {key : K} (hpos : 0 < (w.handles key).subscribeCount) :
    CellStep cfg w p k (.unsubscribe key) ((w.unsubscribe key).sessions p)
      ((w.unsubscribe key).handles k) := by
  unfold unsubscribe
  dsimp only
  rcases eq_or_ne k key with rfl | hk
  · split_ifs with hcount
    · simp only [unsubscribeEach_apply, Function.update_self]
      exact .unsubscribed hpos hcount rfl rfl
    · simp only [Function.update_self]
      exact .frame (by simp) (Session.SameAt.refl k _) (by dsimp only; omega) rfl .rfl
  · split_ifs with hcount
    · simp only [unsubscribeEach_apply, Function.update_of_ne hk]
      exact .frame (by simp) (Session.sameAt_unsubscribeTimes hk _ _) .rfl rfl .rfl
    · simp only [Function.update_of_ne hk]
      exact .frame (by simp) (Session.SameAt.refl k _) .rfl rfl .rfl

theorem cellStep_updateProvider (key : K) (infos : List P) :
    CellStep cfg w p k (.updateProvider key infos) ((w.updateProvider cfg key infos).sessions p)
      ((w.updateProvider cfg key infos).handles k) := by
  have hclear := sameAt_clearCommander cfg w k p
  unfold updateProvider
  dsimp only
  rcases eq_or_ne k key with rfl | hk
  · split_ifs with hcount hpending
    · simp only [Function.update_self]
      rw [onValueChanged_fst]
      simp only [subscribeEach_fst_apply, unsubscribeEach_apply]
      refine .rerouted hcount hclear hcount rfl ?_
      simp [mem_subscribeEach_snd, unsubscribeEach_apply]
    · simp only [Function.update_self, subscribeEach_fst_apply, unsubscribeEach_apply]
      refine .rerouted hcount hclear hcount rfl ?_
      simp [mem_subscribeEach_snd, unsubscribeEach_apply]
    · simp only [Function.update_self]
      exact .relisted (by omega) hclear (by dsimp only; omega) rfl
  · split_ifs with hcount
    all_goals simp only [Function.update_of_ne hk, subscribeEach_fst_apply, unsubscribeEach_apply]
    all_goals refine .frame (by simp) ?_ .rfl rfl .rfl
    · exact (hclear.trans (Session.sameAt_unsubscribeTimes hk _ _)).trans
        (Session.sameAt_subscribeTimes hk _ _)
    · exact (hclear.trans (Session.sameAt_unsubscribeTimes hk _ _)).trans
        (Session.sameAt_subscribeTimes hk _ _)
    · exact hclear

/-- The slots run on the signals of `q` only ever take `q` off the handle's waiting list. -/
theorem route_handles (q : P) (o : Signals K) :
    ((w.route cfg q o).handles k).subscribeCount = (w.handles k).subscribeCount ∧
      ((w.route cfg q o).handles k).myProviders = (w.handles k).myProviders ∧
      (p ∈ ((w.route cfg q o).handles k).pendingSubscriptions ↔
        p ∈ (w.handles k).pendingSubscriptions ∧ ¬ (p = q ∧ k ∈ o.finished)) := by
  unfold route
  by_cases hf : k ∈ o.finished <;> by_cases hch : k ∈ o.changed
  · simp only [hf, hch, if_true]
    rw [onValueChanged_fst]
    simp [PropertyHandle.setSubscribeFinished, and_comm]
  · simp [hf, hch, PropertyHandle.setSubscribeFinished, and_comm]
  · simp only [hf, hch, if_true, if_false]
    rw [onValueChanged_fst]
    simp
  · simp [hf, hch]

/-- **One event at one pair.** -/
theorem cellStep {cfg : Setup P K V} {w w' : World P K V} {e : WorldEvent P K V}
    (h : w.step cfg e = some w') (p : P) (k : K) :
    CellStep cfg w p k e (w'.sessions p) (w'.handles k) := by
  cases e with
  | subscribe key =>
    simp only [step, Option.some.injEq] at h
    subst h
    exact cellStep_subscribe cfg w p k key
  | unsubscribe key =>
    simp only [step, Option.ite_none_right_eq_some, Option.some.injEq] at h
    obtain ⟨hpos, rfl⟩ := h
    exact cellStep_unsubscribe cfg w p k hpos
  | updateProvider key infos =>
    simp only [step, Option.some.injEq] at h
    subst h
    exact cellStep_updateProvider cfg w p k key infos
  | commander presence =>
    simp only [step, Option.some.injEq] at h
    subst h
    exact .frame (by simp) (Session.SameAt.refl k _) .rfl rfl .rfl
  | plugin q e =>
    obtain ⟨⟨t, o⟩, ht, rfl⟩ := Option.map_eq_some_iff.1 h
    obtain ⟨hc, hl, hp⟩ := route_handles cfg
      { w with sessions := Function.update w.sessions q t } p k q o
    rcases eq_or_ne p q with rfl | hpq
    · have hs : (route cfg { w with sessions := Function.update w.sessions p t } p o).sessions p
          = t := by simp [route]
      rw [hs]
      exact .plugin ht hc hl (by simpa using hp)
    · refine .frame (by simp [Ne.symm hpq]) ?_ (by rw [hc]) hl (by simpa [hpq] using hp)
      simp only [route, Function.update_of_ne hpq]
      exact Session.SameAt.refl k _

end

/-- The intention a provider saves for `k` is that of the handle, whatever the lists are. -/
def IntentAt (w : World P K V) (p : P) (k : K) : Prop :=
  k ∈ (w.sessions p).provider.subscribedKeys ↔ (w.handles k).Wants p

theorem CellStep.intent {cfg : Setup P K V} {w : World P K V} {p : P} {k : K}
    {e : WorldEvent P K V} {t : Session K V} {h : PropertyHandle P V}
    (hcell : CellStep cfg w p k e t h) (hi : w.IntentAt p k) :
    k ∈ t.provider.subscribedKeys ↔ h.Wants p := by
  unfold IntentAt at hi
  cases hcell with
  | frame _ hs hc hl _ =>
    rw [hs.subscribedKeys, hi, PropertyHandle.wants_congr hc hl]
  | subscribed hcount hc hl _ =>
    have hn := PropertyHandle.not_wants_of_eq_zero (p := p) hcount
    rw [PropertyHandle.wants_iff_count hc, hl]
    simp [Session.subscribeTimes, hi, hn]
  | unsubscribed hcount hc hl _ =>
    rw [PropertyHandle.wants_iff_count hcount] at hi
    have hn := PropertyHandle.not_wants_of_eq_zero (p := p) hc
    simp [Session.unsubscribeTimes, hi, hn]
  | rerouted hcount hs hc hl _ =>
    rw [PropertyHandle.wants_iff_count hcount] at hi
    rw [PropertyHandle.wants_iff_count hc, hl]
    simp [Session.unsubscribeTimes, Session.subscribeTimes, hs.subscribedKeys, hi]
  | relisted hcount hs hc _ =>
    rw [hs.subscribedKeys, hi]
    exact iff_of_false (PropertyHandle.not_wants_of_eq_zero hcount)
      (PropertyHandle.not_wants_of_eq_zero hc)
  | plugin he hc hl _ =>
    rw [Session.pluginStep_subscribedKeys he, hi, PropertyHandle.wants_congr (by rw [hc]) hl]

/-- A provider that is failed stays so until its plugin is ready. -/
theorem CellStep.failed {cfg : Setup P K V} {w : World P K V} {p : P} {k : K}
    {e : WorldEvent P K V} {t : Session K V} {h : PropertyHandle P V}
    (hcell : CellStep cfg w p k e t h) (hf : (w.sessions p).provider.pluginState = .failed)
    (he : e ≠ .plugin p .ready) : t.provider.pluginState = .failed := by
  cases hcell with
  | frame _ hs _ _ _ => rw [hs.pluginState, hf]
  | subscribed => simpa [Session.subscribeTimes] using hf
  | unsubscribed => simpa [Session.unsubscribeTimes] using hf
  | rerouted _ hs _ _ _ =>
    simpa [Session.subscribeTimes, Session.unsubscribeTimes, hs.pluginState] using hf
  | relisted _ hs _ _ => rw [hs.pluginState, hf]
  | plugin hp _ _ _ =>
    cases Session.pluginStep_cases hp with
    | handled | handledFailed | handledInitializing => exact hf
    | ready => exact absurd rfl he
    | failed => rfl
    | report hrep hp => rw [(Session.pluginStep_of_isReport hrep hp).1, hf]

theorem intent_step [QVariant V] {cfg : Setup P K V} {w w' : World P K V} {e : WorldEvent P K V}
    (h : ∀ p k, w.IntentAt p k) (hstep : w.step cfg e = some w') (p : P) (k : K) :
    w'.IntentAt p k :=
  (cellStep hstep p k).intent (h p k)

/-- The value of a handle changes only while the handle is subscribed. -/
theorem myValue_of_unsubscribed [QVariant V] {cfg : Setup P K V} {w w' : World P K V}
    {e : WorldEvent P K V} {k : K} (hi : ∀ p, w.IntentAt p k)
    (hcount : (w.handles k).subscribeCount = 0) (hstep : w.step cfg e = some w') :
    (w'.handles k).myValue = (w.handles k).myValue := by
  cases e with
  | subscribe key =>
    obtain rfl := Option.some.inj hstep
    rcases eq_or_ne k key with rfl | hne
    · unfold subscribe
      dsimp only
      split_ifs <;> simp
    · rw [subscribe_handles_of_ne w hne]
  | unsubscribe key =>
    obtain ⟨hpos, rfl⟩ := Option.ite_some_none_eq_some.1 hstep
    have hne : k ≠ key := by
      rintro rfl
      omega
    unfold unsubscribe
    dsimp only
    split_ifs <;> simp [Function.update_of_ne hne]
  | updateProvider key infos =>
    obtain rfl := Option.some.inj hstep
    rcases eq_or_ne k key with rfl | hne
    · unfold updateProvider
      simp [hcount]
    · rw [updateProvider_handles_of_ne w hne]
  | commander presence =>
    obtain rfl := Option.some.inj hstep
    rfl
  | plugin p e =>
    obtain ⟨⟨t, o⟩, ht, rfl⟩ := Option.map_eq_some_iff.1 hstep
    have hnot : k ∉ o.changed := fun hk =>
      PropertyHandle.not_wants_of_eq_zero hcount ((hi p).1 (Session.pluginStep_changed ht hk))
    unfold route
    simp only [hnot, if_false]
    split_ifs <;> rfl

omit [DecidableEq P] [DecidableEq K] in
theorem intent_init [QVariant V] (p : P) (k : K) : (init : World P K V).IntentAt p k := by
  simp [IntentAt, init, Session.init, Provider.init, PropertyHandle.init, PropertyHandle.Wants]

end World

end

/-- Commanding and the type check turned off, with names for providers and keys. -/
def plain : Setup String String (Option ℤ) := ⟨false, "", false, fun _ _ => true⟩

end ContextSubscriber
