import Mathlib.Data.Fintype.Basic
import ContextKit.Subscriber.World

/-!
# Re-evaluating the providers

Every change of the registry makes every handle look up its providers again (`updateProvider`), and
usually finds the ones it has.  Unsubscribing from and subscribing to the same provider cancel out
before the plugin hears of it, so nothing is asked again, and what the caches and the handle hold
has to be kept.  Two things spoil this.

* The cache of the commander is cleared on the way, also where the handle was routed to it already,
  and nobody reports the values of its keys a second time.
* The value of a handle may be older than its list: while a new provider has to be waited for, the
  value of the old one is kept, and it stays when the provider finishes without a value.  The next
  time the list is re-evaluated nothing has to be waited for, and the value is recomputed.
-/

namespace ContextSubscriber
open ContextKit Transition

/-- The same value, set at the same time unless it is null. -/
def SameValue {V : Type} [QVariant V] (a b : TimedValue V) : Prop :=
  b.value = a.value ∧ (QVariant.isNull a.value = false → b.time = a.time)

theorem SameValue.refl {V : Type} [QVariant V] (a : TimedValue V) : SameValue a a :=
  ⟨rfl, fun _ => rfl⟩

namespace PropertyHandle

variable {P K V : Type} [QVariant V]

/-- The handle shows the newest value of its providers, or one that it is taken for, unless the
newest is of the wrong type. -/
def UpToDate (cfg : Setup P K V) (key : K) (get : P → TimedValue V) (h : PropertyHandle P V) :
    Prop :=
  (h.myValue = h.newestValue get ∨ differs h.myValue (h.newestValue get) = false) ∨
    cfg.typeCheckEnabled = true ∧
      QVariant.isNull (h.newestValue get) = false ∧ cfg.typeCheck key (h.newestValue get) = false

/-- Recomputing the value of a handle keeps it exactly if it is up to date. -/
theorem onValueChanged_keeps (cfg : Setup P K V) (key : K) (get : P → TimedValue V)
    (h : PropertyHandle P V) :
    (h.onValueChanged cfg key get).1.myValue = h.myValue ↔ h.UpToDate cfg key get := by
  rw [onValueChanged_eq_newestValue]
  unfold UpToDate
  by_cases ht : cfg.typeCheckEnabled = true ∧ QVariant.isNull (h.newestValue get) = false ∧
      cfg.typeCheck key (h.newestValue get) = false
  · obtain ⟨hc, hn, ht⟩ := ht
    simp [hc, hn, ht]
  · have hcond : (cfg.typeCheckEnabled && !QVariant.isNull (h.newestValue get) &&
        !cfg.typeCheck key (h.newestValue get)) = false := by
      by_contra hcond
      exact ht (by simpa [and_assoc] using hcond)
    rw [hcond, if_neg Bool.false_ne_true, or_iff_left ht]
    unfold changeValue
    split_ifs with hd
    · rw [hd, or_iff_left (by decide)]
      exact eq_comm
    · exact iff_of_true rfl (Or.inr (by simpa using hd))

/-- Only the values that are not null count. -/
theorem latestValue_congr {get get' : P → TimedValue V} (ps : List P)
    (h : ∀ p ∈ ps, SameValue (get p) (get' p)) (latest : Option (TimedValue V)) :
    latestValue latest (ps.map get') = latestValue latest (ps.map get) := by
  induction ps generalizing latest with
  | nil => rfl
  | cons p ps ih =>
    rw [List.forall_mem_cons] at h
    obtain ⟨hvalue, htime⟩ := h.1
    have hrest := ih h.2
    simp only [List.map_cons, latestValue]
    rw [hvalue]
    split_ifs with hn
    · exact hrest latest
    · have hsame : get' p = get p := by
        rw [Bool.not_eq_true] at hn
        cases hp : get p with
        | mk v t =>
          cases hp' : get' p with
          | mk v' t' =>
            rw [hp, hp'] at hvalue htime
            rw [hp] at hn
            obtain rfl : v' = v := hvalue
            obtain rfl : t' = t := htime hn
            rfl
      rw [hsame]
      cases latest <;> exact hrest _

theorem newestValue_congr {h : PropertyHandle P V} {get get' : P → TimedValue V}
    (hs : ∀ p ∈ h.myProviders, SameValue (get p) (get' p)) :
    h.newestValue get' = h.newestValue get := by
  unfold newestValue
  rw [latestValue_congr h.myProviders hs]

end PropertyHandle

variable {P K V : Type} [DecidableEq P] [DecidableEq K]

/-! ### What is scheduled -/

/-- A key is scheduled in one way only, and no schedule is forgotten by a provider whose plugin has
become ready or has failed.  Before that no request is answered. -/
structure Session.Scheduled (s : Session K V) (k : K) : Prop where
  apart : k ∈ s.provider.toSubscribe → k ∉ s.provider.toUnsubscribe
  queued : s.provider.pluginState ≠ .initializing → k ∈ s.provider.toSubscribe →
    Method.handleSubscribes ∈ s.provider.callQueue
  initializing : s.provider.pluginState = .initializing → k ∉ s.unanswered ∧ k ∉ s.answered

namespace Session

variable {s t : Session K V} {k : K}

omit [DecidableEq K] in
theorem Scheduled.frame (h : s.Scheduled k) (hs : s.SameAt k t) : t.Scheduled k := by
  constructor
  · rw [hs.toSubscribe, hs.toUnsubscribe]
    exact h.apart
  · rw [hs.pluginState, hs.toSubscribe]
    exact fun hn hk => hs.queued (h.queued hn hk)
  · rw [hs.pluginState, hs.unanswered, hs.answered]
    exact h.initializing

theorem Scheduled.subscribeTimes (h : s.Scheduled k) (m : ℕ) :
    (s.subscribeTimes k m).Scheduled k := by
  have hapart := h.apart
  have hqueued := h.queued
  constructor
  · simp only [Session.subscribeTimes, Provider.mem_subscribeTimes_toSubscribe,
      Provider.mem_subscribeTimes_toUnsubscribe]
    grind
  · simp only [Session.subscribeTimes, Provider.mem_subscribeTimes_toSubscribe,
      Provider.mem_subscribeTimes_callQueue, Provider.subscribeTimes_pluginState]
    grind
  · simpa [Session.subscribeTimes] using h.initializing

theorem Scheduled.unsubscribeTimes (h : s.Scheduled k) (m : ℕ) :
    (s.unsubscribeTimes k m).Scheduled k := by
  have hapart := h.apart
  have hqueued := h.queued
  constructor
  · simp only [Session.unsubscribeTimes, Provider.mem_unsubscribeTimes_toSubscribe,
      Provider.mem_unsubscribeTimes_toUnsubscribe]
    grind
  · simp only [Session.unsubscribeTimes, Provider.mem_unsubscribeTimes_toSubscribe,
      Provider.mem_unsubscribeTimes_callQueue, Provider.unsubscribeTimes_pluginState]
    grind
  · simpa [Session.unsubscribeTimes] using h.initializing

/-- One event from the plugin's side. -/
theorem Scheduled.plugin (h : s.Scheduled k) {e : PluginEvent K V} {o : Signals K}
    (he : s.pluginStep e = some (t, o)) : t.Scheduled k := by
  cases pluginStep_cases he with
  | handled hq hready =>
    refine ⟨nofun, nofun, fun hinit => ?_⟩
    exact absurd (hready.symm.trans hinit) (by decide)
  | handledFailed hq hf =>
    refine ⟨nofun, nofun, fun hinit => ?_⟩
    exact absurd (hf.symm.trans hinit) (by decide)
  | handledInitializing hq hinit =>
    exact ⟨h.apart, fun hn => absurd hinit hn, h.initializing⟩
  | ready hn => exact ⟨nofun, nofun, nofun⟩
  | failed => exact ⟨nofun, nofun, nofun⟩
  | report hrep he =>
    obtain ⟨hp, -⟩ := pluginStep_of_isReport hrep he
    have hacc := pluginStep_report_account hrep he
    constructor
    · rw [hp]
      exact h.apart
    · rw [hp]
      exact h.queued
    · rw [hp]
      intro hinit
      obtain ⟨hu, ha⟩ := h.initializing hinit
      rcases hacc with ⟨hu', ha', -⟩ | ⟨key, -, hu', ha', -⟩
      · rw [hu', ha']
        exact ⟨hu, ha⟩
      · rw [hu', ha', answer_unanswered, Finset.mem_erase, mem_answer_answered]
        refine ⟨fun hk => hu hk.2, ?_⟩
        rintro (hk | ⟨rfl, hk⟩)
        · exact ha hk
        · exact hu hk

end Session

namespace World

variable [QVariant V] {cfg : Setup P K V}

theorem scheduled_step {w w' : World P K V} {e : WorldEvent P K V}
    (h : ∀ p k, (w.sessions p).Scheduled k) (hstep : w.step cfg e = some w') (p : P) (k : K) :
    (w'.sessions p).Scheduled k := by
  have hs := h p k
  have hcell := cellStep hstep p k
  generalize w'.sessions p = t at hcell ⊢
  generalize w'.handles k = g at hcell
  cases hcell with
  | frame _ hsame _ _ _ => exact hs.frame hsame
  | subscribed => exact hs.subscribeTimes _
  | unsubscribed => exact hs.unsubscribeTimes _
  | rerouted _ hsame _ _ _ => exact ((hs.frame hsame).unsubscribeTimes _).subscribeTimes _
  | relisted _ hsame _ _ => exact hs.frame hsame
  | plugin he _ _ _ => exact hs.plugin he

theorem scheduled_of_run {es : List (WorldEvent P K V)} {w : World P K V}
    (h : run (step cfg) init es = some w) (p : P) (k : K) : (w.sessions p).Scheduled k := by
  refine run_inv (P := fun w : World P K V => ∀ p k, (w.sessions p).Scheduled k)
    (fun _ _ _ hs ht => scheduled_step hs ht) (fun p k => ?_) h p k
  exact ⟨nofun, nofun, fun _ => ⟨nofun, nofun⟩⟩

theorem intent_of_run {es : List (WorldEvent P K V)} {w : World P K V}
    (h : run (step cfg) init es = some w) (p : P) (k : K) : w.IntentAt p k :=
  run_inv (P := fun w : World P K V => ∀ p k, w.IntentAt p k)
    (fun _ _ _ hs ht => intent_step hs ht) intent_init h p k

/-- Where nothing is left to be handled and the key is answered for, or the plugin has failed, no
subscription to it is scheduled. -/
theorem not_scheduled_of_answered {es : List (WorldEvent P K V)} {w : World P K V}
    (h : run (step cfg) init es = some w) {p : P} {k : K}
    (hq : Method.handleSubscribes ∉ (w.sessions p).provider.callQueue)
    (ha : k ∈ (w.sessions p).answered ∨ (w.sessions p).provider.pluginState = .failed) :
    k ∉ (w.sessions p).provider.toSubscribe := by
  have hs := scheduled_of_run h p k
  intro hk
  refine hq (hs.queued (fun hinit => ?_) hk)
  rcases ha with ha | hf
  · exact (hs.initializing hinit).2 ha
  · exact absurd (hf.symm.trans hinit) (by decide)

/-! ### One re-evaluation -/

/-- The commander is listened to and present. -/
def Commanded (cfg : Setup P K V) (w : World P K V) : Prop :=
  cfg.commandingEnabled = true ∧ w.commanderListener.servicePresent = .present

variable (cfg) in
omit [DecidableEq K] in
/-- Whether `updateProvider` clears the values of `p`. -/
theorem get_clearCommander (w : World P K V) (p : P) (k : K) :
    (Commanded cfg w ∧ p = cfg.commander) ∧
        (clearCommander cfg w p).provider.get k = ⟨QVariant.invalid, 0⟩ ∨
      ¬ (Commanded cfg w ∧ p = cfg.commander) ∧
        (clearCommander cfg w p).provider.get k = (w.sessions p).provider.get k := by
  unfold clearCommander Commanded
  by_cases hc : cfg.commandingEnabled = true ∧ w.commanderListener.servicePresent = .present
  · rw [if_pos (by simpa using hc)]
    rcases eq_or_ne p cfg.commander with rfl | hp
    · rw [Function.update_self]
      exact Or.inl ⟨⟨hc, rfl⟩, rfl⟩
    · rw [Function.update_of_ne hp]
      exact Or.inr ⟨fun h => hp h.2, rfl⟩
  · rw [if_neg (by simpa using hc)]
    exact Or.inr ⟨fun h => hc h.1, rfl⟩

/-- Subscribing and unsubscribing leave the cached values alone. -/
theorem get_updateProvider (w : World P K V) (key : K) (infos : List P) (p : P) (k : K) :
    ((w.updateProvider cfg key infos).sessions p).provider.get k =
      (clearCommander cfg w p).provider.get k := by
  have hsub : ∀ (q : Provider K V) m, (q.subscribeTimes key m).values = q.values := by
    intro q m
    induction m with
    | zero => rfl
    | succ m ih => rw [Provider.subscribeTimes_succ, Provider.subscribe_values, ih]
  have hunsub : ∀ (q : Provider K V) m, (q.unsubscribeTimes key m).values = q.values := by
    intro q m
    induction m with
    | zero => rfl
    | succ m ih => rw [Provider.unsubscribeTimes_succ, Provider.unsubscribe_values, ih]
  unfold updateProvider
  by_cases hcount : 0 < (w.handles key).subscribeCount
  · simp only [if_pos hcount, subscribeEach_fst_apply, unsubscribeEach_apply, Provider.get,
      Session.subscribeTimes, Session.unsubscribeTimes, hsub, hunsub]
  · simp only [if_neg hcount]

/-- The queued `handleSubscribes` calls change no value. -/
theorem handleSubscribes_keeps {w w' : World P K V} {p : P}
    (h : w.step cfg (.plugin p .handleSubscribes) = some w') :
    (∀ k, (w'.handles k).myValue = (w.handles k).myValue) ∧
      ∀ q k, (w'.sessions q).provider.get k = (w.sessions q).provider.get k := by
  obtain ⟨⟨t, o⟩, ht, rfl⟩ := Option.map_eq_some_iff.1 h
  have hkeeps : o.changed = ∅ ∧ t.provider.values = (w.sessions p).provider.values := by
    cases Session.pluginStep_cases ht with
    | handled => exact ⟨rfl, rfl⟩
    | handledFailed => exact ⟨rfl, rfl⟩
    | handledInitializing => exact ⟨rfl, rfl⟩
    | report hrep => simp [PluginEvent.IsReport] at hrep
  refine ⟨fun k => ?_, fun q k => ?_⟩
  · simp only [route, hkeeps.1, Finset.notMem_empty, if_false]
    split_ifs <;> rfl
  · show (Function.update w.sessions p t q).provider.get k = _
    rcases eq_or_ne q p with rfl | hq
    · rw [Function.update_self, Provider.get, hkeeps.2, Provider.get]
    · rw [Function.update_of_ne hq]

theorem handleSubscribes_run_keeps {w w' : World P K V} {qs : List (WorldEvent P K V)}
    (hqs : ∀ e ∈ qs, ∃ p, e = .plugin p .handleSubscribes)
    (h : run (step cfg) w qs = some w') :
    (∀ k, (w'.handles k).myValue = (w.handles k).myValue) ∧
      ∀ q k, (w'.sessions q).provider.get k = (w.sessions q).provider.get k := by
  refine run_inv_along (P := fun u : World P K V =>
      (∀ k, (u.handles k).myValue = (w.handles k).myValue) ∧
        ∀ q k, (u.sessions q).provider.get k = (w.sessions q).provider.get k)
    (fun u e v hu he hv => ?_) ⟨fun _ => rfl, fun _ _ => rfl⟩ (along_of_forall hqs) h
  obtain ⟨p, rfl⟩ := he
  obtain ⟨hvalue, hget⟩ := handleSubscribes_keeps hv
  exact ⟨fun k => (hvalue k).trans (hu.1 k), fun q k => (hget q k).trans (hu.2 q k)⟩

variable (cfg) in
omit [QVariant V] in
/-- A list that has not changed is waited for only where it names a provider twice, or where the key
was still scheduled. -/
theorem pending_of_unchanged {w : World P K V} (key : K)
    (hs : ∀ p, (w.sessions p).Scheduled key) :
    (subscribeEach key (w.handles key).myProviders
        (unsubscribeEach key (w.handles key).myProviders (clearCommander cfg w), ∅)).2 = ∅ ↔
      (w.handles key).myProviders.Nodup ∧
        ∀ p ∈ (w.handles key).myProviders, key ∉ (w.sessions p).provider.toSubscribe := by
  have hmem : ∀ p, p ∈ (subscribeEach key (w.handles key).myProviders
        (unsubscribeEach key (w.handles key).myProviders (clearCommander cfg w), ∅)).2 ↔
      1 < (w.handles key).myProviders.count p ∨
        p ∈ (w.handles key).myProviders ∧ key ∈ (w.sessions p).provider.toSubscribe := by
    intro p
    have hsame := sameAt_clearCommander cfg w key p
    have hapart := ((hs p).frame hsame).apart
    rw [mem_subscribeEach_snd, unsubscribeEach_apply, ← List.count_pos_iff, ← hsame.toSubscribe]
    simp only [Session.unsubscribeTimes, Provider.mem_unsubscribeTimes_toUnsubscribe]
    grind
  rw [Finset.eq_empty_iff_forall_notMem, List.nodup_iff_count_le_one]
  simp only [hmem, not_or, not_and, not_lt]
  exact forall_and

/-- The value of the handle itself. -/
theorem updateProvider_myValue {w : World P K V} {key : K} {infos : List P}
    (hs : ∀ p, (w.sessions p).Scheduled key)
    (hlist : newProviders cfg w infos = (w.handles key).myProviders) :
    (((w.updateProvider cfg key infos).handles key).myValue = (w.handles key).myValue) ↔
      (0 < (w.handles key).subscribeCount → (w.handles key).myProviders.Nodup →
        (∀ p ∈ (w.handles key).myProviders, key ∉ (w.sessions p).provider.toSubscribe) →
        (w.handles key).UpToDate cfg key (get (clearCommander cfg w) key)) := by
  have hpending := pending_of_unchanged cfg key hs
  have hget : get (w.updateProvider cfg key infos).sessions key =
      get (clearCommander cfg w) key := by
    funext p
    exact get_updateProvider w key infos p key
  unfold updateProvider at hget ⊢
  by_cases hcount : 0 < (w.handles key).subscribeCount
  · simp only [if_pos hcount] at hget ⊢
    rw [hlist] at hget ⊢
    rw [Function.update_self, hget]
    split_ifs with hp
    · obtain ⟨hnodup, hnone⟩ := hpending.1 hp
      refine (PropertyHandle.onValueChanged_keeps cfg key _ _).trans ?_
      exact ⟨fun h _ _ _ => h, fun h => h hcount hnodup hnone⟩
    · refine iff_of_true rfl fun _ hnodup hnone => ?_
      exact absurd (hpending.2 ⟨hnodup, hnone⟩) hp
  · simp only [if_neg hcount, Function.update_self]
    exact iff_of_true trivial fun h => absurd h hcount

/-- **When re-evaluating the providers loses no value.**  In every reachable state, and whatever
queued `handleSubscribes` calls follow, re-evaluating an unchanged list of providers keeps the
values of all handles and of all subscribed keys at all providers if and only if

* the commander is not present, or holds no value for any key subscribed there;
* the handle, where its value is recomputed at once, already shows the newest value of its
  providers or one that it is taken for (or that value is of the wrong type).

The value is recomputed at once if the list names no provider twice and no subscription to the key
is still scheduled, as is the case when all subscriptions are answered
(`not_scheduled_of_answered`). -/
theorem reevaluation_keeps_iff {es : List (WorldEvent P K V)} {w : World P K V}
    (hrun : run (step cfg) init es = some w) {key : K} {infos : List P}
    (hlist : newProviders cfg w infos = (w.handles key).myProviders)
    {qs : List (WorldEvent P K V)} (hqs : ∀ e ∈ qs, ∃ p, e = .plugin p .handleSubscribes)
    {w' : World P K V} (hw' : run (step cfg) (w.updateProvider cfg key infos) qs = some w') :
    ((∀ k, (w'.handles k).myValue = (w.handles k).myValue) ∧
        ∀ p, ∀ k ∈ (w.sessions p).provider.subscribedKeys,
          SameValue ((w.sessions p).provider.get k) ((w'.sessions p).provider.get k)) ↔
      (Commanded cfg w → ∀ k ∈ (w.sessions cfg.commander).provider.subscribedKeys,
        ((w.sessions cfg.commander).provider.get k).value = QVariant.invalid) ∧
      (0 < (w.handles key).subscribeCount → (w.handles key).myProviders.Nodup →
        (∀ p ∈ (w.handles key).myProviders, key ∉ (w.sessions p).provider.toSubscribe) →
        (w.handles key).UpToDate cfg key (get w.sessions key)) := by
  obtain ⟨hvalues, hgets⟩ := handleSubscribes_run_keeps hqs hw'
  have hvalue := updateProvider_myValue (fun p => scheduled_of_run hrun p key) hlist
  -- The caches after the whole of it are those after the commander's has been cleared.
  have hget : ∀ p k, (w'.sessions p).provider.get k = (clearCommander cfg w p).provider.get k :=
    fun p k => (hgets p k).trans (get_updateProvider w key infos p k)
  have hcaches : (∀ p, ∀ k ∈ (w.sessions p).provider.subscribedKeys,
        SameValue ((w.sessions p).provider.get k) ((w'.sessions p).provider.get k)) ↔
      (Commanded cfg w → ∀ k ∈ (w.sessions cfg.commander).provider.subscribedKeys,
        ((w.sessions cfg.commander).provider.get k).value = QVariant.invalid) := by
    constructor
    · intro h hc k hk
      have hsame := (h cfg.commander k hk).1
      rcases get_clearCommander cfg w cfg.commander k with ⟨-, hclear⟩ | ⟨hn, -⟩
      · rw [hget, hclear] at hsame
        exact hsame.symm
      · exact absurd ⟨hc, rfl⟩ hn
    · intro h p k hk
      rw [hget]
      rcases get_clearCommander cfg w p k with ⟨⟨hc, rfl⟩, hclear⟩ | ⟨-, hclear⟩
      · rw [hclear]
        have hinvalid := h hc k hk
        refine ⟨hinvalid.symm, fun hn => ?_⟩
        rw [hinvalid, QVariant.isNull_invalid] at hn
        cases hn
      · rw [hclear]
        exact SameValue.refl _
  rw [hcaches, and_comm]
  refine and_congr_right fun hc => ?_
  -- What the handle recomputes from is then the same as before.
  have hnewest : ∀ hpos : 0 < (w.handles key).subscribeCount,
      (w.handles key).newestValue (get (clearCommander cfg w) key) =
        (w.handles key).newestValue (get w.sessions key) := by
    intro hpos
    apply PropertyHandle.newestValue_congr
    intro p hp
    have hkey : key ∈ (w.sessions p).provider.subscribedKeys :=
      (intent_of_run hrun p key).2 ⟨hpos, hp⟩
    have hsame := hcaches.2 hc p key hkey
    rwa [hget] at hsame
  calc (∀ k, (w'.handles k).myValue = (w.handles k).myValue)
      ↔ ((w.updateProvider cfg key infos).handles key).myValue = (w.handles key).myValue := by
        refine ⟨fun h => (hvalues key).symm.trans (h key), fun h k => (hvalues k).trans ?_⟩
        rcases eq_or_ne k key with rfl | hk
        · exact h
        · rw [updateProvider_handles_of_ne w hk]
    _ ↔ _ := hvalue
    _ ↔ _ := by
        refine forall_congr' fun hpos => forall_congr' fun _ => forall_congr' fun _ => ?_
        rw [PropertyHandle.UpToDate, hnewest hpos]
        exact Iff.rfl

/-! ### Two keys at the commander, and a provider without a value -/

/-- Two providers: the commander (`true`) and the one the registry lists. -/
def commanded : Setup Bool Bool (Option ℤ) := ⟨true, true, false, fun _ _ => true⟩

/-- The commander is present, and both keys are subscribed there and have a value. -/
def atCommander : List (WorldEvent Bool Bool (Option ℤ)) :=
  [.commander .present, .plugin true .ready, .updateProvider false [false], .subscribe false,
    .updateProvider true [false], .subscribe true, .plugin true .handleSubscribes,
    .plugin true (.subscribeFinished false (some ⟨some 5, 1⟩)),
    .plugin true (.subscribeFinished true (some ⟨some 7, 2⟩))]

/-- Re-evaluating one of the keys loses its value, and the cached values of both. -/
theorem exists_reevaluation_loses :
    ∃ w w', run (step commanded) init atCommander = some w ∧
      w.commanderListener.servicePresent = .present ∧
      (∀ k, 0 < (w.handles k).subscribeCount) ∧
      (∀ p, Method.handleSubscribes ∉ (w.sessions p).provider.callQueue) ∧
      (∀ k, ∀ p ∈ (w.handles k).myProviders, k ∈ (w.sessions p).answered) ∧
      newProviders commanded w [false] = (w.handles false).myProviders ∧
      run (step commanded) (w.updateProvider commanded false [false])
        [.plugin true .handleSubscribes] = some w' ∧
      (w.handles false).myValue = some 5 ∧ (w'.handles false).myValue = none ∧
      true ∈ (w.sessions true).provider.subscribedKeys ∧
      ((w.sessions true).provider.get true).value = some 7 ∧
      ((w'.sessions true).provider.get true).value = none :=
  ⟨_, _, rfl, by decide, by decide, by decide, by decide, rfl, rfl, by decide, by decide,
    by decide, by decide, by decide⟩

/-- The key moves from a provider with a value to one that cannot tell one, and its list is
re-evaluated then. -/
def movedOn : List (WorldEvent Bool Bool (Option ℤ)) :=
  [.commander .notPresent, .plugin true .ready, .plugin false .ready, .updateProvider true [true],
    .subscribe true, .plugin true .handleSubscribes,
    .plugin true (.subscribeFinished true (some ⟨some 5, 1⟩)), .updateProvider true [false],
    .plugin false .handleSubscribes, .plugin true .handleSubscribes,
    .plugin false (.subscribeFailed true)]

theorem exists_stale_value :
    ∃ w, run (step commanded) init movedOn = some w ∧ (w.handles true).myValue = some 5 ∧
      ((w.updateProvider commanded true [false]).handles true).myValue = none :=
  ⟨_, rfl, by decide, by decide⟩

/-- A key whose provider has reported a value is re-evaluated. -/
def reported : List (WorldEvent Bool Bool (Option ℤ)) :=
  [.commander .notPresent, .plugin false .ready, .updateProvider true [false], .subscribe true,
    .plugin false .handleSubscribes, .plugin false (.subscribeFinished true (some ⟨some 5, 1⟩))]

theorem reevaluation_keeps_iff_reported :
    ∃ w w', run (step commanded) init reported = some w ∧
      run (step commanded) (w.updateProvider commanded true [false])
        [.plugin false .handleSubscribes] = some w' ∧
      ∀ k, (w'.handles k).myValue = (w.handles k).myValue := by
  have hrun : run (step commanded) init reported = some _ := rfl
  have hw' : run (step commanded)
    (((run (step commanded) init reported).get rfl).updateProvider commanded true [false])
    [.plugin false .handleSubscribes] = some _ := rfl
  have hqs : ∀ e ∈ ([.plugin false .handleSubscribes] : List (WorldEvent Bool Bool (Option ℤ))),
      ∃ p, e = .plugin p .handleSubscribes := by
    intro e he
    exact ⟨false, List.mem_singleton.1 he⟩
  refine ⟨_, _, hrun, hw', ((reevaluation_keeps_iff hrun rfl hqs hw').2 ⟨?_, fun _ _ _ => ?_⟩).1⟩
  · rintro ⟨-, hpresent⟩
    cases hpresent
  · exact Or.inl (Or.inl rfl)

end World

end ContextSubscriber
