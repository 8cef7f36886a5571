import ContextKit.Subscriber.Bookkeeping

/-!
# The values a `Provider` keeps

A value reported for a key outside `subscribedKeys` is dropped.  That is harmless when the plugin is
asked again before anyone looks, but a `subscribe` that merely cancels a scheduled `unsubscribe`
asks for nothing: whatever the plugin reported in between is lost, and the cache keeps the value
from before.  `Missed` follows the last report of a key along a run, and `get_eq_reported_iff` says
that this is the only way to lose it.

A report for a key in `subscribedKeys` is stored whatever its time stamp is, so the cache follows
the order in which the reports are delivered, not the one in which the values were set.
-/

namespace ContextSubscriber
open ContextKit Transition

variable {K V : Type} [DecidableEq K]

/-- The value an event reports for `key`. -/
def SessionEvent.reports (key : K) : SessionEvent K V → Option (TimedValue V)
  | .plugin (.subscribeFinished k (some value)) => if k = key then some value else none
  | .plugin (.valueChanged k value) => if k = key then some value else none
  | _ => none

namespace Session

/-- The plugin is asked for `key` by this event. -/
def Asks (key : K) (s : Session K V) : SessionEvent K V → Prop
  | .plugin .handleSubscribes => s.provider.pluginState = .ready ∧ key ∈ s.provider.toSubscribe
  | .plugin .ready => key ∈ s.provider.subscribedKeys
  | _ => False

/-- How `Missed` changes: a report between an `unsubscribe` and the next `subscribe` is missed
unless it repeats the cached value, and asking the plugin again makes up for it. -/
def missedStep [QVariant V] (key : K) (s : Session K V) (e : SessionEvent K V) (missed : Prop) :
    Prop :=
  match e.reports key with
  | some value => key ∉ s.provider.subscribedKeys ∧ s.provider.get key ≠ value
  | none => missed ∧ ¬ s.Asks key e

/-- After `es`, the last report for `key` since the plugin was asked for it came while `key` was
unsubscribed, with another value than the cached one. -/
def Missed [QVariant V] (key : K) (es : List (SessionEvent K V)) : Prop :=
  history step (missedStep key) Session.init False es

theorem report_provider_values (s : Session K V) (k key : K) (value : TimedValue V) :
    (s.report k value).1.provider.values key =
      if k = key ∧ key ∈ s.provider.subscribedKeys then some value else s.provider.values key := by
  simp only [report, Provider.onPluginValueChanged]
  rcases eq_or_ne k key with rfl | hk
  · by_cases hs : k ∈ s.provider.subscribedKeys <;> simp [hs]
  · by_cases hs : k ∈ s.provider.subscribedKeys <;> simp [hs, hk, hk.symm]

/-- The two maps change at `key` only by a report for it, or when the plugin is asked again. -/
theorem step_reports {s t : Session K V} {e : SessionEvent K V} (h : s.step e = some t) (key : K) :
    (∀ value, e.reports key = some value →
      t.reported key = some value ∧
        t.provider.values key =
          if key ∈ s.provider.subscribedKeys then some value else s.provider.values key) ∧
    (e.reports key = none →
      t.provider.values key = s.provider.values key ∧
        (s.Asks key e → t.reported key = none) ∧
        (¬ s.Asks key e → t.reported key = s.reported key)) := by
  have hreport : ∀ (s : Session K V) k value, (s.report k value).1.reported key =
      if k = key then some value else s.reported key := by
    intro s k value
    rcases eq_or_ne k key with rfl | hk
    · simp [report]
    · simp [report, hk, hk.symm]
  cases e with
  | subscribe k =>
    simp only [step, Option.some.injEq] at h
    subst h
    simp [SessionEvent.reports, Asks, Session.subscribe]
  | unsubscribe k =>
    simp only [step, Option.some.injEq] at h
    subst h
    simp [SessionEvent.reports, Asks, Session.unsubscribe]
  | plugin e =>
    obtain ⟨⟨t', o⟩, he, rfl⟩ := Option.map_eq_some_iff.1 h
    cases pluginStep_cases he with
    | handled hq hr =>
      refine ⟨fun _ hv => (by cases hv), fun _ => ⟨rfl, fun ha => ?_, fun ha => ?_⟩⟩
      · exact if_pos ha.2
      · exact if_neg fun hk => ha ⟨hr, hk⟩
    | handledFailed hq hr | handledInitializing hq hr =>
      refine ⟨fun _ hv => (by cases hv), fun _ => ⟨rfl, fun ha => ?_, fun _ => rfl⟩⟩
      exact absurd (hr.symm.trans ha.1) (by decide)
    | ready hr =>
      exact ⟨fun _ hv => (by cases hv), fun _ => ⟨rfl, fun ha => if_pos ha, fun ha => if_neg ha⟩⟩
    | failed =>
      exact ⟨fun _ hv => (by cases hv), fun _ => ⟨rfl, fun ha => ha.elim, fun _ => rfl⟩⟩
    | report hrep he =>
      rcases hrep with ⟨k, value, rfl⟩ | ⟨k, rfl⟩ | ⟨k, value, rfl⟩
      · cases value with
        | none =>
          simp only [pluginStep, Option.some.injEq, Prod.mk.injEq] at he
          obtain ⟨rfl, -⟩ := he
          simp [SessionEvent.reports, Asks]
        | some v =>
          simp only [pluginStep, Option.some.injEq, Prod.mk.injEq] at he
          obtain ⟨rfl, -⟩ := he
          rw [hreport, report_provider_values, answer_reported, answer_provider]
          by_cases hk : k = key <;> simp [SessionEvent.reports, Asks, hk]
      · simp only [pluginStep, Option.some.injEq, Prod.mk.injEq] at he
        obtain ⟨rfl, -⟩ := he
        simp [SessionEvent.reports, Asks]
      · simp only [pluginStep, Option.some.injEq, Prod.mk.injEq] at he
        obtain ⟨rfl, -⟩ := he
        rw [hreport, report_provider_values]
        by_cases hk : k = key <;> simp [SessionEvent.reports, Asks, hk]

/-- One step keeps the account of the last report: it is cached exactly if it was not missed. -/
theorem missed_step [QVariant V] {s t : Session K V} {e : SessionEvent K V} {key : K}
    {missed : Prop}
    (h : ∀ value, s.reported key = some value → (s.provider.get key = value ↔ ¬ missed))
    (hstep : s.step e = some t) :
    ∀ value, t.reported key = some value →
      (t.provider.get key = value ↔ ¬ missedStep key s e missed) := by
  obtain ⟨hsome, hnone⟩ := step_reports hstep key
  intro value hvalue
  unfold missedStep
  cases hr : e.reports key with
  | some v =>
    obtain ⟨hrep, hval⟩ := hsome v hr
    obtain rfl : v = value := Option.some.inj (hrep.symm.trans hvalue)
    by_cases hk : key ∈ s.provider.subscribedKeys
    · simp [Provider.get, hval, hk]
    · simp [Provider.get, hval, hk]
  | none =>
    obtain ⟨hval, hasked, hkept⟩ := hnone hr
    by_cases ha : s.Asks key e
    · rw [hasked ha] at hvalue
      cases hvalue
    · rw [hkept ha] at hvalue
      have hget : t.provider.get key = s.provider.get key := by simp only [Provider.get, hval]
      rw [hget, h value hvalue]
      simp [ha]

end Session

/-- **When the last reported value is the cached one**: in every run and for every key the plugin
has reported since it was last asked for it, exactly if that report was not missed between an
`unsubscribe` and the `subscribe` that cancelled it. -/
theorem get_eq_reported_iff [QVariant V] {es : List (SessionEvent K V)} {s : Session K V} {key : K}
    {value : TimedValue V} (hrun : run Session.step Session.init es = some s)
    (hvalue : s.reported key = some value) :
    s.provider.get key = value ↔ ¬ Session.Missed key es := by
  have h : ∀ value, s.reported key = some value →
      (s.provider.get key = value ↔ ¬ Session.Missed key es) :=
    history_inv (P := fun (s : Session K V) missed => ∀ value, s.reported key = some value →
        (s.provider.get key = value ↔ ¬ missed)) (Session.missedStep key)
      (fun _ _ _ _ h hstep => Session.missed_step h hstep) (fun _ h => by cases h) hrun
  exact h value hvalue

/-- A key is subscribed and has the value 1; the value 2 arrives between an `unsubscribe` and a
`subscribe` that the main loop sees only together. -/
def valueAcrossCancel : List (SessionEvent String (Option ℤ)) :=
  [.plugin .ready, .subscribe "Screen.TopEdge", .plugin .handleSubscribes,
    .plugin (.valueChanged "Screen.TopEdge" ⟨some 1, 1⟩), .unsubscribe "Screen.TopEdge",
    .plugin (.valueChanged "Screen.TopEdge" ⟨some 2, 2⟩), .subscribe "Screen.TopEdge",
    .plugin .handleSubscribes]

theorem get_eq_reported_valueBeforeCancel :
    ∃ s, run Session.step Session.init (valueAcrossCancel.take 4) = some s ∧
      s.reported "Screen.TopEdge" = some ⟨some 1, 1⟩ ∧
      (s.provider.get "Screen.TopEdge" = ⟨some 1, 1⟩ ↔
        ¬ Session.Missed "Screen.TopEdge" (valueAcrossCancel.take 4)) :=
  ⟨_, rfl, rfl, get_eq_reported_iff rfl rfl⟩

/-- Not every value that is reported last is kept: the plugin stays ready, the calls alternate and
nothing is left to be handled, and yet the cache of a subscribed key holds an older report. -/
theorem exists_report_lost :
    ¬ ∀ (es : List (SessionEvent String (Option ℤ))) (s : Session String (Option ℤ))
        (key : String) (value : TimedValue (Option ℤ)),
      AlternatingCalls es → (∀ e ∈ es.tail, e ≠ .plugin .ready ∧ e ≠ .plugin .failed) →
      run Session.step Session.init es = some s → s.provider.pluginState = .ready →
      Method.handleSubscribes ∉ s.provider.callQueue → key ∈ s.provider.subscribedKeys →
      s.reported key = some value → s.provider.get key = value := by
  intro h
  have hcalls : AlternatingCalls valueAcrossCancel := by
    intro key
    by_cases hk : "Screen.TopEdge" = key <;>
      simp [valueAcrossCancel, List.filterMap_cons, SessionEvent.callFor, hk]
  have hget := h valueAcrossCancel _ "Screen.TopEdge" ⟨some 2, 2⟩ hcalls
    (by simp [valueAcrossCancel]) rfl rfl (by decide) (by decide) rfl
  exact absurd hget (by decide)

/-! ### The order of the reports -/

/-- While a key stays subscribed, the cache holds the report delivered last. -/
theorem get_eq_getLast_reports [QVariant V] {es : List (SessionEvent K V)} {s t : Session K V}
    {key : K} (hsub : Along Session.step (fun s _ => key ∈ s.provider.subscribedKeys) s es)
    (hrun : run Session.step s es = some t) :
    t.provider.get key =
      ((es.filterMap (SessionEvent.reports key)).getLast?).getD (s.provider.get key) := by
  induction es generalizing s with
  | nil =>
    cases hrun
    rfl
  | cons e es ih =>
    obtain ⟨u, hu, hrun'⟩ := run_cons_eq_some.1 hrun
    obtain ⟨hsome, hnone⟩ := Session.step_reports hu key
    rw [ih (hsub.2 u hu) hrun']
    cases hr : e.reports key with
    | none =>
      have hget : u.provider.get key = s.provider.get key := by
        simp only [Provider.get, (hnone hr).1]
      rw [List.filterMap_cons_none hr, hget]
    | some value =>
      have hget : u.provider.get key = value := by
        simp only [Provider.get, (hsome value hr).2, if_pos hsub.1, Option.getD_some]
      rw [List.filterMap_cons_some hr, hget, List.getLast?_cons, Option.getD_some]

/-- **The cache and the time stamps.**  Let a key stay subscribed while its values are reported in
any order.  Afterwards the provider holds the newest of them exactly if that one was delivered
last. -/
theorem get_eq_newest_iff [QVariant V] {es : List (SessionEvent K V)} {s t : Session K V} {key : K}
    {newest : TimedValue V}
    (hsub : Along Session.step (fun s _ => key ∈ s.provider.subscribedKeys) s es)
    (hrun : run Session.step s es = some t)
    (hnewest : (es.filterMap (SessionEvent.reports key)).argmax TimedValue.time = some newest) :
    t.provider.get key = newest ↔
      (es.filterMap (SessionEvent.reports key)).getLast? = some newest := by
  rw [get_eq_getLast_reports hsub hrun]
  have hne : es.filterMap (SessionEvent.reports key) ≠ [] := by
    intro h
    rw [h] at hnewest
    cases hnewest
  rw [List.getLast?_eq_some_getLast hne, Option.getD_some, Option.some.injEq]

/-- A subscribed key of a plugin that is ready; the request has been sent. -/
def subscribedToTopEdge : List (SessionEvent String (Option ℤ)) :=
  [.plugin .ready, .subscribe "Screen.TopEdge", .plugin .handleSubscribes]

/-- The reply is waited for and delivered before a signal that was sent earlier. -/
def replyBeforeSignal : List (SessionEvent String (Option ℤ)) :=
  [.plugin (.subscribeFinished "Screen.TopEdge" (some ⟨some 2, 2⟩)),
    .plugin (.valueChanged "Screen.TopEdge" ⟨some 1, 1⟩)]

theorem get_eq_newest_inOrder :
    ∃ s t, run Session.step Session.init subscribedToTopEdge = some s ∧
      run Session.step s replyBeforeSignal.reverse = some t ∧
      (t.provider.get "Screen.TopEdge" = ⟨some 2, 2⟩ ↔
        (replyBeforeSignal.reverse.filterMap
          (SessionEvent.reports "Screen.TopEdge")).getLast? = some ⟨some 2, 2⟩) := by
  have hs : run Session.step (Session.init : Session String (Option ℤ)) subscribedToTopEdge =
      some _ := rfl
  refine ⟨_, _, hs, rfl, get_eq_newest_iff ?_ rfl rfl⟩
  exact .cons (by decide) rfl (.cons (by decide) rfl trivial)

/-- The same two reports in the other order leave the older value in the cache. -/
theorem exists_newest_overwritten :
    ¬ ∀ (es fs : List (SessionEvent String (Option ℤ))) (s t : Session String (Option ℤ))
        (key : String) (newest : TimedValue (Option ℤ)),
      run Session.step Session.init es = some s → run Session.step s fs = some t →
      Along Session.step (fun s _ => key ∈ s.provider.subscribedKeys) s fs →
      ((fs.filterMap (SessionEvent.reports key)).map TimedValue.time).Nodup →
      (fs.filterMap (SessionEvent.reports key)).argmax TimedValue.time = some newest →
      t.provider.get key = newest := by
  intro h
  have hget := h subscribedToTopEdge replyBeforeSignal _ _ "Screen.TopEdge" ⟨some 2, 2⟩ rfl rfl
    (.cons (by decide) rfl (.cons (by decide) rfl trivial)) (by decide) rfl
  exact absurd hget (by decide)

end ContextSubscriber
