import ContextKit.Subscriber.Account

/-!
# What is known when a handle no longer waits

`waitForSubscription` ends when `isSubscribePending` is false, and the handle then has a value or
every one of its providers should have answered.  The handle learns that from `subscribeFinished`,
and from the result of `Provider::subscribe`, which is false when the call only cancelled a
scheduled unsubscription.  Neither asks whether the last request has been answered:
`CancelsUnanswered` and `AnswersOther` are the steps where it has not, and an `Account` tells which
request an answer is for.

A provider that fails releases the handles as well.  When it becomes ready again the keys are asked
for once more, but no handle starts to wait; `ReadyUnawaited` is that step.  The results come in two
forms: without a restriction on it, where a failure counts for as long as the key is wanted, and
with it, where only a provider that is failed now counts.
-/

namespace ContextSubscriber
open ContextKit Transition

variable {P K V : Type} [DecidableEq P] [DecidableEq K]

namespace Account

/-- A single `Provider::subscribe` cancels an unsubscription while the plugin of `p` has not
answered the last request for the key. -/
def CancelsUnanswered (cfg : Setup P K V) (a : Account P K V) (e : WorldEvent P K V × ℕ) (p : P) :
    Prop :=
  match e.1 with
  | .subscribe key =>
    (a.world.handles key).subscribeCount = 0 ∧ (a.world.handles key).myProviders.count p = 1 ∧
      key ∈ (a.world.sessions p).provider.toUnsubscribe ∧ ¬ a.LastAnswered p key ∧
      (a.world.sessions p).provider.pluginState ≠ .failed
  | .updateProvider key infos =>
    0 < (a.world.handles key).subscribeCount ∧ (a.world.newProviders cfg infos).count p = 1 ∧
      (key ∈ (a.world.sessions p).provider.toUnsubscribe ∨
        0 < (a.world.handles key).myProviders.count p ∧
          key ∉ (a.world.sessions p).provider.toSubscribe ∨
        1 < (a.world.handles key).myProviders.count p) ∧
      ¬ a.LastAnswered p key ∧ (a.world.sessions p).provider.pluginState ≠ .failed
  | _ => False

/-- An answer for a key that a handle waits for reaches `p`, which is not failed, and it is not for
the request that the handle waits for: that one is still to be made, or has been made and stays
unanswered. -/
def AnswersOther (a : Account P K V) (e : WorldEvent P K V × ℕ) (p : P) : Prop :=
  ∃ e' key, e.1 = .plugin p e' ∧ e'.Answers key ∧
    p ∈ (a.world.handles key).pendingSubscriptions ∧
    (a.world.sessions p).provider.pluginState ≠ .failed ∧
    (key ∈ (a.world.sessions p).provider.toSubscribe ∨
      e.2 + 1 ≠ a.made p key ∧ ¬ a.LastAnswered p key)

/-- The plugin of `p` becomes ready while a key is wanted that nobody waits for. -/
def ReadyUnawaited (a : Account P K V) (e : WorldEvent P K V × ℕ) (p : P) : Prop :=
  e.1 = .plugin p .ready ∧
    ∃ k, (a.world.handles k).Wants p ∧ p ∉ (a.world.handles k).pendingSubscriptions

/-- `p` has failed at some time since `k` has been wanted there. -/
def HasFailed [QVariant V] (cfg : Setup P K V) (es : List (WorldEvent P K V × ℕ)) (p : P) (k : K) :
    Prop :=
  ∃ es₁ es₂ a₁, es = es₁ ++ es₂ ∧ run (step cfg) init es₁ = some a₁ ∧
    (a₁.world.sessions p).provider.pluginState = .failed ∧
    Along (step cfg) (fun a _ => (a.world.handles k).Wants p) a₁ es₂

end Account

namespace Session

/-- What a handle may take for granted about `k` at `p`, where `made` requests were made and those
in `answered` were answered, and `failed` says that `p` counts as failed. -/
structure Answering (s : Session K V) (h : PropertyHandle P V) (p : P) (k : K) (made : ℕ)
    (answered : Finset ℕ) (failed : Prop) : Prop where
  schedules : k ∈ s.provider.toSubscribe → k ∉ s.provider.toUnsubscribe
  initializing : s.provider.pluginState = .initializing → made = 0
  waiting : p ∈ h.pendingSubscriptions → h.Wants p
  notWaiting : h.Wants p → p ∉ h.pendingSubscriptions →
    failed ∨ (∃ n ∈ answered, made = n + 1) ∧ k ∉ s.provider.toSubscribe

variable {s t : Session K V} {h h' : PropertyHandle P V} {p : P} {k : K} {made : ℕ}
  {answered : Finset ℕ} {failed failed' : Prop}

omit [DecidableEq P] [DecidableEq K] in
theorem Answering.frame (ha : s.Answering h p k made answered failed) (hs : s.SameAt k t)
    (hc : 0 < h'.subscribeCount ↔ 0 < h.subscribeCount) (hl : h'.myProviders = h.myProviders)
    (hp : p ∈ h'.pendingSubscriptions ↔ p ∈ h.pendingSubscriptions)
    (hkeep : h.Wants p → failed → failed') : t.Answering h' p k made answered failed' := by
  have hw := PropertyHandle.wants_congr (p := p) hc hl
  constructor
  · rw [hs.toSubscribe, hs.toUnsubscribe]
    exact ha.schedules
  · rw [hs.pluginState]
    exact ha.initializing
  · rw [hp, hw]
    exact ha.waiting
  · rw [hw, hp, hs.toSubscribe]
    exact fun hwants hpend => (ha.notWaiting hwants hpend).imp_left (hkeep hwants)

omit [DecidableEq P] in
/-- The calls of a handle: whoever is not waited for afterwards has answered, or counts as
failed. -/
theorem Answering.subscribed {n : ℕ}
    (hsched : k ∈ s.provider.toSubscribe → k ∉ s.provider.toUnsubscribe)
    (hinit : s.provider.pluginState = .initializing → made = 0)
    (hcancel : ¬ (n = 1 ∧ k ∈ s.provider.toUnsubscribe ∧ (¬ ∃ n ∈ answered, made = n + 1) ∧
      s.provider.pluginState ≠ .failed))
    (hw : h.Wants p ↔ 0 < n)
    (hp : p ∈ h.pendingSubscriptions ↔ 0 < n ∧ k ∉ s.provider.toUnsubscribe ∨ 1 < n)
    (hfailed : s.provider.pluginState = .failed → failed) :
    (s.subscribeTimes k n).Answering h p k made answered failed := by
  constructor
  · simp only [subscribeTimes, Provider.mem_subscribeTimes_toSubscribe,
      Provider.mem_subscribeTimes_toUnsubscribe]
    grind
  · simpa [subscribeTimes] using hinit
  · rw [hp, hw]
    omega
  · rw [hp, hw]
    intro hpos hpend
    -- Only one call, and it cancelled an unsubscription.
    have hone : n = 1 := by omega
    have hu : k ∈ s.provider.toUnsubscribe := by
      by_contra hu
      exact hpend (Or.inl ⟨hpos, hu⟩)
    by_cases hf : s.provider.pluginState = .failed
    · exact Or.inl (hfailed hf)
    · have hans : ∃ n ∈ answered, made = n + 1 := by
        by_contra hans
        exact hcancel ⟨hone, hu, hans, hf⟩
      have hts : k ∉ s.provider.toSubscribe := fun hts => hsched hts hu
      refine Or.inr ⟨hans, ?_⟩
      simp [subscribeTimes, hone, hu, hts]

omit [DecidableEq P] [DecidableEq K] in
/-- A report of the plugin: whoever stops to wait has the answer to the last request, or the
provider counts as failed. -/
theorem Answering.report (ha : s.Answering h p k made answered failed) {answered' : Finset ℕ}
    (hpr : t.provider = { s.provider with values := t.provider.values })
    (hc : h'.subscribeCount = h.subscribeCount) (hl : h'.myProviders = h.myProviders)
    (hp : p ∈ h'.pendingSubscriptions → p ∈ h.pendingSubscriptions)
    (hmore : answered ⊆ answered')
    (hstop : h.Wants p → p ∈ h.pendingSubscriptions → p ∉ h'.pendingSubscriptions →
      failed' ∨ (∃ n ∈ answered', made = n + 1) ∧ k ∉ s.provider.toSubscribe)
    (hkeep : h.Wants p → failed → failed') : t.Answering h' p k made answered' failed' := by
  have hw : h'.Wants p ↔ h.Wants p := PropertyHandle.wants_congr (by rw [hc]) hl
  constructor
  · rw [hpr]
    exact ha.schedules
  · rw [hpr]
    exact ha.initializing
  · rw [hw]
    exact fun hpend => ha.waiting (hp hpend)
  · rw [hw, hpr]
    intro hwants hpend
    by_cases hpend' : p ∈ h.pendingSubscriptions
    · exact hstop hwants hpend' hpend
    · refine (ha.notWaiting hwants hpend').imp (hkeep hwants) (And.imp_left ?_)
      exact fun ⟨n, hn, hlast⟩ => ⟨n, hmore hn, hlast⟩

omit [DecidableEq P] in
/-- One event from the plugin's side, with the number of the request it is for if it is an
answer. -/
theorem Answering.plugin (ha : s.Answering h p k made answered failed) {e : PluginEvent K V} {n : ℕ}
    {o : Signals K} (he : s.pluginStep e = some (t, o))
    (hc : h'.subscribeCount = h.subscribeCount) (hl : h'.myProviders = h.myProviders)
    (hp : p ∈ h'.pendingSubscriptions ↔ p ∈ h.pendingSubscriptions ∧ k ∉ o.finished)
    (hother : e.Answers k → p ∈ h.pendingSubscriptions → s.provider.pluginState ≠ .failed →
      k ∉ s.provider.toSubscribe ∧ (n + 1 = made ∨ ∃ n ∈ answered, made = n + 1))
    (hnow : s.provider.pluginState = .failed → failed)
    (hfailed : t.provider.pluginState = .failed → failed')
    (hkeep : h.Wants p → failed → failed' ∨ e = .ready ∧ p ∈ h.pendingSubscriptions) :
    t.Answering h' p k (made + (s.calls e).countP (PluginCall.asks k))
      (if e.answers k && decide (n < made) then insert n answered else answered) failed' := by
  have hw : h'.Wants p ↔ h.Wants p := PropertyHandle.wants_congr (by rw [hc]) hl
  have hwait : p ∈ h'.pendingSubscriptions → h'.Wants p := fun hpend =>
    hw.2 (ha.waiting (hp.1 hpend).1)
  cases pluginStep_cases he with
  | handled hq hready =>
    refine ⟨by simp [Provider.clearSchedules], fun hinit => ?_, hwait, fun hwants hpend => ?_⟩
    · exact absurd (hready.symm.trans hinit) (by decide)
    · rw [hp] at hpend
      have hwants := hw.1 hwants
      rcases ha.notWaiting hwants (by simpa using hpend) with hf | ⟨hans, hts⟩
      · exact Or.inl (by simpa using hkeep hwants hf)
      · -- The key is not among those asked for.
        have hnone : (s.calls .handleSubscribes).countP (PluginCall.asks k) = 0 := by
          rw [Account.countP_handleSubscribes, if_neg fun hk => hts hk.2]
        refine Or.inr ⟨?_, by simp [Provider.clearSchedules]⟩
        simpa [hnone, PluginEvent.answers] using hans
  | handledFailed hq hf =>
    refine ⟨by simp [Provider.clearSchedules], fun hinit => ?_, hwait,
      fun _ _ => Or.inl (hfailed hf)⟩
    exact absurd (hf.symm.trans hinit) (by decide)
  | handledInitializing hq hinit =>
    have hnone : (s.calls .handleSubscribes).countP (PluginCall.asks k) = 0 := by
      rw [Account.countP_handleSubscribes, if_neg (by simp [hinit])]
    rw [hnone]
    refine ⟨ha.schedules, fun _ => ha.initializing hinit, hwait, fun hwants hpend => ?_⟩
    rw [hp] at hpend
    have hwants := hw.1 hwants
    refine (ha.notWaiting hwants (by simpa using hpend)).imp_left fun hf => ?_
    simpa using hkeep hwants hf
  | ready hn =>
    refine ⟨by simp, by simp, hwait, fun hwants hpend => ?_⟩
    rw [hp] at hpend
    have hpend : p ∉ h.pendingSubscriptions := by simpa using hpend
    have hwants := hw.1 hwants
    have hf : failed := by
      rcases ha.notWaiting hwants hpend with hf | ⟨⟨n, -, hlast⟩, -⟩
      · exact hf
      · -- Nothing is asked before the plugin is ready for the first time.
        cases hst : s.provider.pluginState with
        | initializing => simp [ha.initializing hst] at hlast
        | ready => exact absurd hst hn
        | failed => exact hnow hst
    rcases hkeep hwants hf with hf' | ⟨-, hpend'⟩
    · exact Or.inl hf'
    · exact absurd hpend' hpend
  | failed => exact ⟨by simp, by simp, hwait, fun _ _ => Or.inl (hfailed rfl)⟩
  | report hrep he =>
    obtain ⟨hpr, -⟩ := pluginStep_of_isReport hrep he
    have hcalls : s.calls e = [] ∧ e ≠ .ready := by
      rcases hrep with ⟨_, _, rfl⟩ | ⟨_, rfl⟩ | ⟨_, _, rfl⟩ <;> simp [calls]
    rw [hcalls.1, List.countP_nil, Nat.add_zero]
    refine ha.report hpr hc hl (fun hpend => (hp.1 hpend).1) ?_ (fun hwants hpend hstop => ?_)
      fun hwants hf => (hkeep hwants hf).resolve_right fun hready => hcalls.2 hready.1
    · split_ifs
      exacts [Finset.subset_insert .., subset_rfl]
    · have hfin : k ∈ o.finished := by
        by_contra hfin
        exact hstop (hp.2 ⟨hpend, hfin⟩)
      have hans : e.Answers k := by
        rcases pluginStep_report_account hrep he with ⟨-, -, ho⟩ | ⟨key, hans, -, -, ho⟩
        · simp [ho] at hfin
        · rw [ho, Provider.mem_signalSubscribeFinished] at hfin
          exact hfin.1 ▸ hans
      by_cases hf : s.provider.pluginState = .failed
      · exact Or.inl (hfailed (by rw [hpr]; exact hf))
      · obtain ⟨hts, hlast⟩ := hother hans hpend hf
        refine Or.inr ⟨?_, hts⟩
        rcases hlast with rfl | ⟨m, hm, hlast⟩
        · exact ⟨n, by simp [PluginEvent.answers_iff.2 hans], rfl⟩
        · refine ⟨m, ?_, hlast⟩
          split_ifs
          exacts [Finset.mem_insert_of_mem hm, hm]

omit [DecidableEq P] in
/-- The two schedules stay apart when a handle unsubscribes. -/
theorem schedules_unsubscribeTimes (m : ℕ)
    (h : k ∈ s.provider.toSubscribe → k ∉ s.provider.toUnsubscribe) :
    k ∈ (s.unsubscribeTimes k m).provider.toSubscribe →
      k ∉ (s.unsubscribeTimes k m).provider.toUnsubscribe := by
  simp only [unsubscribeTimes, Provider.mem_unsubscribeTimes_toSubscribe,
    Provider.mem_unsubscribeTimes_toUnsubscribe]
  grind

end Session

namespace Account

/-- `Session.Answering` at one pair of an account. -/
def AnsweringAt (a : Account P K V) (p : P) (k : K) (failed : Prop) : Prop :=
  (a.world.sessions p).Answering (a.world.handles k) p k (a.made p k) (a.answered p k) failed

variable [QVariant V] {cfg : Setup P K V}

/-- One event, with `failed` and `failed'` for the providers that count as failed before and
after. -/
theorem answering_step {a b : Account P K V} {e : WorldEvent P K V × ℕ}
    {failed failed' : P → K → Prop} (h : ∀ p k, a.AnsweringAt p k (failed p k))
    (hcancel : ∀ p, ¬ a.CancelsUnanswered cfg e p) (hother : ∀ p, ¬ a.AnswersOther e p)
    (hnow : ∀ p k, (a.world.sessions p).provider.pluginState = .failed → failed p k)
    (hfailed : ∀ p k, (b.world.sessions p).provider.pluginState = .failed → failed' p k)
    (hkeep : ∀ p k, (a.world.handles k).Wants p → failed p k →
      failed' p k ∨ e.1 = .plugin p .ready ∧ p ∈ (a.world.handles k).pendingSubscriptions)
    (hstep : a.step cfg e = some b) (p : P) (k : K) : b.AnsweringAt p k (failed' p k) := by
  have ha := h p k
  have hc := hcancel p
  have hf' := hfailed p k
  have hk := hkeep p k
  have hcell := World.cellStep (world_step hstep) p k
  -- Only the plugin's own events change the account.
  have hsame : (∀ e', e.1 ≠ .plugin p e') →
      b.made p k = a.made p k ∧ b.answered p k = a.answered p k :=
    fun hne => account_of_ne hstep hne k
  unfold AnsweringAt at ha ⊢
  generalize ht : b.world.sessions p = t at hf' hcell ⊢
  generalize hg : b.world.handles k = g at hcell ⊢
  obtain ⟨e, n⟩ := e
  cases hcell with
  | frame hne hs hc hl hp =>
    rw [(hsame hne).1, (hsame hne).2]
    refine ha.frame hs hc hl hp fun hwants hf => ?_
    exact (hk hwants hf).resolve_right fun hready => hne _ hready.1
  | subscribed hcount hc' hl hp =>
    rw [(hsame (by simp)).1, (hsame (by simp)).2]
    refine Session.Answering.subscribed ha.schedules ha.initializing ?_ ?_ hp ?_
    · rintro ⟨hone, hu, hans, hst⟩
      exact hc ⟨hcount, hone, hu, hans, hst⟩
    · rw [PropertyHandle.wants_iff_count hc', hl]
    · simpa [Session.subscribeTimes] using hf'
  | unsubscribed hcount hc' hl hp =>
    rw [(hsame (by simp)).1, (hsame (by simp)).2]
    have hn := PropertyHandle.not_wants_of_eq_zero (p := p) hc'
    refine ⟨Session.schedules_unsubscribeTimes _ ha.schedules, ?_, ?_, fun hw => absurd hw hn⟩
    · simpa [Session.unsubscribeTimes] using ha.initializing
    · simp [hp]
  | @rerouted infos s _ hcount hs hc' hl hp =>
    rw [(hsame (by simp)).1, (hsame (by simp)).2]
    have hsched : k ∈ s.provider.toSubscribe → k ∉ s.provider.toUnsubscribe := by
      rw [hs.toSubscribe, hs.toUnsubscribe]
      exact ha.schedules
    refine Session.Answering.subscribed (Session.schedules_unsubscribeTimes _ hsched) ?_ ?_ ?_ hp ?_
    · simp only [Session.unsubscribeTimes, Provider.unsubscribeTimes_pluginState]
      rw [hs.pluginState]
      exact ha.initializing
    · simp only [Session.unsubscribeTimes, Provider.unsubscribeTimes_pluginState,
        Provider.mem_unsubscribeTimes_toUnsubscribe]
      rw [hs.pluginState, hs.toUnsubscribe, hs.toSubscribe]
      rintro ⟨hone, hu, hans, hst⟩
      exact hc ⟨hcount, hone, hu.imp_right And.right, hans, hst⟩
    · rw [PropertyHandle.wants_iff_count hc', hl]
    · simpa [Session.unsubscribeTimes, Session.subscribeTimes] using hf'
  | relisted hcount hs hc' hp =>
    rw [(hsame (by simp)).1, (hsame (by simp)).2]
    have hn := PropertyHandle.not_wants_of_eq_zero (p := p) hc'
    refine ⟨?_, ?_, fun hpend => ?_, fun hw => absurd hw hn⟩
    · rw [hs.toSubscribe, hs.toUnsubscribe]
      exact ha.schedules
    · rw [hs.pluginState]
      exact ha.initializing
    · rw [hp] at hpend
      exact absurd (ha.waiting hpend) (PropertyHandle.not_wants_of_eq_zero hcount)
  | @plugin e _ o _ he hc' hl hp =>
    rw [(account_plugin hstep k).1, (account_plugin hstep k).2]
    refine ha.plugin he hc' hl hp (fun hans hpend hst => ?_) (hnow p k) hf' fun hwants hf => ?_
    · have hno : ¬ (k ∈ (a.world.sessions p).provider.toSubscribe ∨
          n + 1 ≠ a.made p k ∧ ¬ a.LastAnswered p k) := fun hno =>
        hother p ⟨e, k, rfl, hans, hpend, hst, hno⟩
      rw [not_or, not_and_or, not_not, not_not] at hno
      exact hno
    · simpa using hk hwants hf

omit [DecidableEq P] [DecidableEq K] in
theorem answering_init (p : P) (k : K) (failed : Prop) :
    (init : Account P K V).AnsweringAt p k failed := by
  constructor <;> simp [init, World.init, Session.init, Provider.init, PropertyHandle.init,
    PropertyHandle.Wants]

theorem hasFailed_of_failed {es : List (WorldEvent P K V × ℕ)} {a : Account P K V} {p : P}
    (hrun : run (step cfg) init es = some a)
    (h : (a.world.sessions p).provider.pluginState = .failed) (k : K) : HasFailed cfg es p k :=
  ⟨es, [], a, (List.append_nil es).symm, hrun, h, trivial⟩

theorem HasFailed.snoc {es : List (WorldEvent P K V × ℕ)} {a : Account P K V} {p : P} {k : K}
    (h : HasFailed cfg es p k) (hrun : run (step cfg) init es = some a)
    (hw : (a.world.handles k).Wants p) (e : WorldEvent P K V × ℕ) :
    HasFailed cfg (es ++ [e]) p k := by
  obtain ⟨es₁, es₂, a₁, rfl, hrun₁, hf, halong⟩ := h
  rw [run_append_of_eq hrun₁] at hrun
  exact ⟨es₁, es₂ ++ [e], a₁, List.append_assoc .., hrun₁, hf,
    halong.append hrun ⟨hw, fun _ _ => trivial⟩⟩

end Account

/-- **A finished wait means an answer.**  After a run without the two slips, when a subscribed
handle does not wait, it has a value or each of its providers has answered the last request for the
key or has failed since the key is wanted; if moreover no provider became ready over the head of a
handle, each of them has answered or is failed now. -/
theorem answered_of_not_pending [QVariant V] {cfg : Setup P K V}
    {es : List (WorldEvent P K V × ℕ)} {a : Account P K V}
    (hslip : Along (Account.step cfg)
      (fun a e => ∀ p, ¬ a.CancelsUnanswered cfg e p ∧ ¬ a.AnswersOther e p) Account.init es)
    (hrun : run (Account.step cfg) Account.init es = some a) {k : K}
    (hcount : 0 < (a.world.handles k).subscribeCount)
    (hpend : (a.world.handles k).isSubscribePending cfg a.world.commanderListener = false) :
    (QVariant.isNull (a.world.handles k).myValue = false ∨
      ∀ p ∈ (a.world.handles k).myProviders,
        a.LastAnswered p k ∨ Account.HasFailed cfg es p k) ∧
    (Along (Account.step cfg) (fun a e => ∀ p, ¬ a.ReadyUnawaited e p) Account.init es →
      QVariant.isNull (a.world.handles k).myValue = false ∨
      ∀ p ∈ (a.world.handles k).myProviders,
        a.LastAnswered p k ∨ (a.world.sessions p).provider.pluginState = .failed) := by
  by_cases hnull : QVariant.isNull (a.world.handles k).myValue = true
  swap
  · have hnull : QVariant.isNull (a.world.handles k).myValue = false := by simpa using hnull
    exact ⟨Or.inl hnull, fun _ => Or.inl hnull⟩
  have hempty : (a.world.handles k).pendingSubscriptions = ∅ := by
    unfold PropertyHandle.isSubscribePending at hpend
    split_ifs at hpend
    · simp_all
    · simpa using hpend
  have hnone : ∀ p, p ∉ (a.world.handles k).pendingSubscriptions := by simp [hempty]
  refine ⟨Or.inr fun p hp => ?_, fun hready => Or.inr fun p hp => ?_⟩
  · have h := run_induction (P := fun es (a : Account P K V) =>
        ∀ p k, a.AnsweringAt p k (Account.HasFailed cfg es p k))
      (fun p k => Account.answering_init p k _) ?_ hslip hrun
    · have ha := (h p k).notWaiting ⟨hcount, hp⟩ (hnone p)
      exact ha.symm.imp_left And.left
    · intro es a e b hrun h hC hst
      refine Account.answering_step h (fun p => (hC p).1)
        (fun p => (hC p).2) (fun p k hf => Account.hasFailed_of_failed hrun hf k) ?_ ?_ hst
      · refine fun p k hf => Account.hasFailed_of_failed ?_ hf k
        rw [run_append_of_eq hrun, run_cons, hst]
        rfl
      · exact fun p k hw hf => Or.inl (hf.snoc hrun hw e)
  · have h := run_inv_along (P := fun a : Account P K V => ∀ p k, a.AnsweringAt p k
        ((a.world.sessions p).provider.pluginState = .failed)) ?_
      (fun p k => Account.answering_init p k _) (hslip.and hready) hrun
    · have ha := (h p k).notWaiting ⟨hcount, hp⟩ (hnone p)
      exact ha.symm.imp_left And.left
    · intro a e b h hC hst
      refine Account.answering_step h (fun p => (hC.1 p).1) (fun p => (hC.1 p).2)
        (fun p k hf => hf) (fun p k hf => hf) ?_ hst
      intro p k hw hf
      by_cases he : e.1 = .plugin p .ready
      · refine Or.inr ⟨he, ?_⟩
        by_contra hpend
        exact hC.2 p ⟨he, k, hw, hpend⟩
      · exact Or.inl ((World.cellStep (Account.world_step hst) p k).failed hf he)

/-! ### A key taken back before and after its answer -/

/-- A key is unsubscribed and subscribed again while the plugin still owes the answer. -/
def takenBackUnanswered : List (WorldEvent String String (Option ℤ) × ℕ) :=
  [(.updateProvider "Screen.TopEdge" ["session"], 0), (.plugin "session" .ready, 0),
    (.subscribe "Screen.TopEdge", 0), (.plugin "session" .handleSubscribes, 0),
    (.unsubscribe "Screen.TopEdge", 0), (.subscribe "Screen.TopEdge", 0)]

/-- Nobody waits, there is no value, and the provider has neither answered nor ever failed. -/
theorem exists_unanswered_not_pending :
    ∃ a, run (Account.step plain) Account.init takenBackUnanswered = some a ∧
      0 < (a.world.handles "Screen.TopEdge").subscribeCount ∧
      (a.world.handles "Screen.TopEdge").isSubscribePending plain a.world.commanderListener =
        false ∧
      QVariant.isNull (a.world.handles "Screen.TopEdge").myValue = true ∧
      "session" ∈ (a.world.handles "Screen.TopEdge").myProviders ∧
      a.made "session" "Screen.TopEdge" = 1 ∧ ¬ a.LastAnswered "session" "Screen.TopEdge" ∧
      (a.world.sessions "session").provider.pluginState ≠ .failed ∧
      Along (Account.step plain)
        (fun a _ => (a.world.sessions "session").provider.pluginState ≠ .failed)
        Account.init takenBackUnanswered := by
  refine ⟨_, rfl, by decide, by decide, by decide, by decide, by decide, by decide, by decide, ?_⟩
  exact .cons (by decide) rfl <| .cons (by decide) rfl <| .cons (by decide) rfl <|
    .cons (by decide) rfl <| .cons (by decide) rfl <| .cons (by decide) rfl trivial

/-- The same calls, with the answer in between. -/
def takenBackAnswered : List (WorldEvent String String (Option ℤ) × ℕ) :=
  [(.updateProvider "Screen.TopEdge" ["session"], 0), (.plugin "session" .ready, 0),
    (.subscribe "Screen.TopEdge", 0), (.plugin "session" .handleSubscribes, 0),
    (.plugin "session" (.subscribeFailed "Screen.TopEdge"), 0),
    (.unsubscribe "Screen.TopEdge", 0), (.subscribe "Screen.TopEdge", 0)]

theorem answered_of_not_pending_takenBackAnswered :
    ∃ a, run (Account.step plain) Account.init takenBackAnswered = some a ∧
      (QVariant.isNull (a.world.handles "Screen.TopEdge").myValue = false ∨
        ∀ p ∈ (a.world.handles "Screen.TopEdge").myProviders,
          a.LastAnswered p "Screen.TopEdge" ∨
            Account.HasFailed plain takenBackAnswered p "Screen.TopEdge") ∧
      (Along (Account.step plain) (fun a e => ∀ p, ¬ a.ReadyUnawaited e p) Account.init
          takenBackAnswered →
        QVariant.isNull (a.world.handles "Screen.TopEdge").myValue = false ∨
        ∀ p ∈ (a.world.handles "Screen.TopEdge").myProviders,
          a.LastAnswered p "Screen.TopEdge" ∨
            (a.world.sessions p).provider.pluginState = .failed) := by
  have hslip : Along (Account.step plain)
      (fun a e => ∀ p, ¬ a.CancelsUnanswered plain e p ∧ ¬ a.AnswersOther e p) Account.init
      takenBackAnswered := by
    refine .cons (fun p => ⟨?_, ?_⟩) rfl <| .cons (fun p => ⟨id, ?_⟩) rfl <|
      .cons (fun p => ⟨?_, ?_⟩) rfl <| .cons (fun p => ⟨id, ?_⟩) rfl <|
      .cons (fun p => ⟨id, ?_⟩) rfl <| .cons (fun p => ⟨id, ?_⟩) rfl <|
      .cons (fun p => ⟨?_, ?_⟩) rfl trivial
    · rintro ⟨hpos, -⟩
      exact absurd hpos (by decide)
    · rintro ⟨e, key, he, -⟩
      cases he
    · rintro ⟨e, key, he, ⟨value, h⟩ | h, -⟩ <;> cases he <;> cases h
    · rintro ⟨-, hone, hu, -⟩
      change ["session"].count p = 1 at hone
      obtain rfl : p = "session" := List.mem_singleton.1 (List.count_pos_iff.1 (by omega))
      exact absurd hu (by decide)
    · rintro ⟨e, key, he, -⟩
      cases he
    · rintro ⟨e, key, he, ⟨value, h⟩ | h, -⟩ <;> cases he <;> cases h
    · rintro ⟨e, key, he, ⟨value, h⟩ | h, -, -, hother⟩ <;> cases he <;> cases h
      exact absurd hother (by decide)
    · rintro ⟨e, key, he, -⟩
      cases he
    · rintro ⟨-, hone, -, hans, -⟩
      change ["session"].count p = 1 at hone
      obtain rfl : p = "session" := List.mem_singleton.1 (List.count_pos_iff.1 (by omega))
      exact hans (by decide)
    · rintro ⟨e, key, he, -⟩
      cases he
  exact ⟨_, rfl, answered_of_not_pending hslip rfl (by decide) (by decide)⟩

end ContextSubscriber
