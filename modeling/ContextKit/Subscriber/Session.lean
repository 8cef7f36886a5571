import ContextKit.Subscriber.Provider
import ContextKit.Transition.Alternate

/-!
# A `Provider` and a plugin that keeps its contract

The contract of `IProviderPlugin`: the plugin may become ready or fail at any time, it is subscribed
to nothing when it emits `ready`, it fails between two `ready` signals, and it may report values and
finished subscriptions at any time.  A `Session` is a `Provider` together with what such a plugin
has been asked for and has answered; the plugin itself is the choice of the events.  The signals
carry a key and not the request they are for, and neither does a `Session`.

A plugin that could not be loaded looks like one that fails and stays silent: `constructPlugin` then
sets the state to `FAILED` and handles the schedules, as `onPluginFailed` does.
-/

namespace ContextSubscriber
open ContextKit Transition

/-- A provider and the account of its plugin: `wire` are the keys the plugin is asked to be
subscribed to; a key that was asked for is in `unanswered` until some answer for it comes or the
plugin fails, and in `answered` once some answer has come since it was last asked for, be it to an
earlier request; `reported` is the last value reported since then. -/
structure Session (K V : Type) where
  provider : Provider K V
  wire : Finset K
  unanswered : Finset K
  answered : Finset K
  reported : K → Option (TimedValue V)

/-- What the plugin, or the event queue, does to a provider. -/
inductive PluginEvent (K V : Type)
  | handleSubscribes
  | ready
  | failed
  | subscribeFinished (key : K) (value : Option (TimedValue V))
  | subscribeFailed (key : K)
  | valueChanged (key : K) (value : TimedValue V)

/-- An event at a provider: a call from above or something from the plugin's side. -/
inductive SessionEvent (K V : Type)
  | subscribe (key : K)
  | unsubscribe (key : K)
  | plugin (e : PluginEvent K V)

/-- The signals a provider emits upwards during one event, the finished ones first. -/
structure Signals (K : Type) where
  finished : Finset K
  changed : Finset K

/-- The plugin reports on a key: a value, an answer, or both. -/
def PluginEvent.IsReport {K V : Type} (e : PluginEvent K V) : Prop :=
  (∃ key value, e = .subscribeFinished key value) ∨ (∃ key, e = .subscribeFailed key) ∨
    ∃ key value, e = .valueChanged key value

/-- The plugin answers a request for `key`, one way or the other. -/
def PluginEvent.Answers {K V : Type} (e : PluginEvent K V) (key : K) : Prop :=
  (∃ value, e = .subscribeFinished key value) ∨ e = .subscribeFailed key

namespace Session

variable {K V : Type}

/-- A provider whose plugin has not become ready yet. -/
def init : Session K V where
  provider := Provider.init
  wire := ∅
  unanswered := ∅
  answered := ∅
  reported := fun _ => none

variable [DecidableEq K]

/-- The plugin is called. -/
def call (s : Session K V) : PluginCall K → Session K V
  | .subscribe keys =>
    { s with
      wire := s.wire ∪ keys
      unanswered := s.unanswered ∪ keys
      answered := s.answered \ keys
      reported := fun k => if k ∈ keys then none else s.reported k }
  | .unsubscribe keys => { s with wire := s.wire \ keys }

/-- A slot of the provider ran with this result. -/
def carryOut (s : Session K V) (r : Provider K V × Outcome K) : Session K V × Signals K :=
  (r.2.calls.foldl call { s with provider := r.1 }, ⟨r.2.finished, ∅⟩)

/-- The plugin answers a request for `key`. -/
def answer (s : Session K V) (key : K) : Session K V :=
  if key ∈ s.unanswered then
    { s with unanswered := s.unanswered.erase key, answered := insert key s.answered }
  else s

/-- The plugin reports a value. -/
def report (s : Session K V) (key : K) (value : TimedValue V) : Session K V × Finset K :=
  let r := s.provider.onPluginValueChanged key value
  ({ s with provider := r.1, reported := Function.update s.reported key (some value) }, r.2)

/-- One event from the plugin's side. -/
def pluginStep (s : Session K V) : PluginEvent K V → Option (Session K V × Signals K)
  | .handleSubscribes =>
    if .handleSubscribes ∈ s.provider.callQueue then
      some (s.carryOut (s.provider.dequeue .handleSubscribes).handleSubscribes)
    else none
  | .ready =>
    if s.provider.pluginState = .ready then none
    else some (({ s with wire := ∅ }).carryOut s.provider.onPluginReady)
  | .failed => some (({ s with unanswered := ∅ }).carryOut s.provider.onPluginFailed)
  | .subscribeFinished key value =>
    let finished := s.provider.signalSubscribeFinished key
    match value with
    | none => some (s.answer key, ⟨finished, ∅⟩)
    | some v =>
      let r := (s.answer key).report key v
      some (r.1, ⟨finished, r.2⟩)
  | .subscribeFailed key => some (s.answer key, ⟨s.provider.signalSubscribeFinished key, ∅⟩)
  | .valueChanged key value =>
    let r := s.report key value
    some (r.1, ⟨∅, r.2⟩)

/-- `Provider::subscribe`, with its result. -/
def subscribe (s : Session K V) (key : K) : Session K V × Bool :=
  ({ s with provider := (s.provider.subscribe key).1 }, (s.provider.subscribe key).2)

/-- `Provider::unsubscribe` -/
def unsubscribe (s : Session K V) (key : K) : Session K V :=
  { s with provider := s.provider.unsubscribe key }

/-- One event at the provider. -/
def step (s : Session K V) : SessionEvent K V → Option (Session K V)
  | .subscribe key => some (s.subscribe key).1
  | .unsubscribe key => some (s.unsubscribe key)
  | .plugin e => (s.pluginStep e).map Prod.fst

/-! ### The effect of each event on the fields -/

/-- Handing over the schedules: what is to be subscribed is asked anew, what is to be unsubscribed
leaves the wire. -/
theorem foldl_scheduledCalls (s : Session K V) (p : Provider K V) :
    p.scheduledCalls.foldl call s = { s with
      wire := (s.wire ∪ p.toSubscribe) \ p.toUnsubscribe
      unanswered := s.unanswered ∪ p.toSubscribe
      answered := s.answered \ p.toSubscribe
      reported := fun k => if k ∈ p.toSubscribe then none else s.reported k } := by
  rcases p.toSubscribe.eq_empty_or_nonempty with h₁ | h₁ <;>
    rcases p.toUnsubscribe.eq_empty_or_nonempty with h₂ | h₂ <;>
    simp [Provider.scheduledCalls, call, h₁, h₂, Finset.card_pos]

/-- The queued `handleSubscribes` in the ready state. -/
theorem pluginStep_handleSubscribes_ready {s : Session K V}
    (hq : Method.handleSubscribes ∈ s.provider.callQueue) (hr : s.provider.pluginState = .ready) :
    s.pluginStep .handleSubscribes = some
      ({ provider := (s.provider.dequeue .handleSubscribes).clearSchedules
         wire := (s.wire ∪ s.provider.toSubscribe) \ s.provider.toUnsubscribe
         unanswered := s.unanswered ∪ s.provider.toSubscribe
         answered := s.answered \ s.provider.toSubscribe
         reported := fun k => if k ∈ s.provider.toSubscribe then none else s.reported k },
        ⟨∅, ∅⟩) := by
  have hr' : (s.provider.dequeue .handleSubscribes).pluginState = .ready := hr
  simp only [pluginStep, if_pos hq, carryOut, Provider.handleSubscribes_ready _ hr',
    foldl_scheduledCalls]
  rfl

theorem pluginStep_handleSubscribes_failed {s : Session K V}
    (hq : Method.handleSubscribes ∈ s.provider.callQueue) (hr : s.provider.pluginState = .failed) :
    s.pluginStep .handleSubscribes = some
      ({ s with provider := (s.provider.dequeue .handleSubscribes).clearSchedules },
        ⟨s.provider.toSubscribe, ∅⟩) := by
  have hr' : (s.provider.dequeue .handleSubscribes).pluginState = .failed := hr
  simp only [pluginStep, if_pos hq, carryOut, Provider.handleSubscribes_failed _ hr',
    List.foldl_nil]
  rfl

theorem pluginStep_handleSubscribes_initializing {s : Session K V}
    (hq : Method.handleSubscribes ∈ s.provider.callQueue)
    (hr : s.provider.pluginState = .initializing) :
    s.pluginStep .handleSubscribes = some
      ({ s with provider := s.provider.dequeue .handleSubscribes }, ⟨∅, ∅⟩) := by
  have hr' : (s.provider.dequeue .handleSubscribes).pluginState = .initializing := hr
  simp only [pluginStep, if_pos hq, carryOut, Provider.handleSubscribes_initializing _ hr',
    List.foldl_nil]

/-- `ready` asks for every key that should be subscribed, and for nothing else. -/
theorem pluginStep_ready {s : Session K V} (hr : s.provider.pluginState ≠ .ready) :
    s.pluginStep .ready = some
      ({ provider :=
          { s.provider with toSubscribe := ∅, toUnsubscribe := ∅, pluginState := .ready }
         wire := s.provider.subscribedKeys
         unanswered := s.unanswered ∪ s.provider.subscribedKeys
         answered := s.answered \ s.provider.subscribedKeys
         reported := fun k => if k ∈ s.provider.subscribedKeys then none else s.reported k },
        ⟨∅, ∅⟩) := by
  rcases s.provider.subscribedKeys.eq_empty_or_nonempty with h | h <;>
    simp [pluginStep, hr, carryOut, Provider.onPluginReady_of_ne, call, h, Finset.card_pos]

theorem pluginStep_failed (s : Session K V) :
    s.pluginStep .failed = some
      ({ s with
          provider :=
            { s.provider with toSubscribe := ∅, toUnsubscribe := ∅, pluginState := .failed }
          unanswered := ∅ },
        ⟨s.provider.toSubscribe, ∅⟩) := rfl

@[simp] theorem answer_provider (s : Session K V) (key : K) :
    (s.answer key).provider = s.provider := by
  unfold answer; split_ifs <;> rfl

@[simp] theorem answer_wire (s : Session K V) (key : K) : (s.answer key).wire = s.wire := by
  unfold answer; split_ifs <;> rfl

@[simp] theorem answer_reported (s : Session K V) (key : K) :
    (s.answer key).reported = s.reported := by
  unfold answer; split_ifs <;> rfl

@[simp] theorem answer_unanswered (s : Session K V) (key : K) :
    (s.answer key).unanswered = s.unanswered.erase key := by
  unfold answer
  split_ifs with h
  · rfl
  · rw [Finset.erase_eq_of_notMem h]

@[simp] theorem mem_answer_answered (s : Session K V) (key k : K) :
    k ∈ (s.answer key).answered ↔ k ∈ s.answered ∨ k = key ∧ key ∈ s.unanswered := by
  unfold answer
  split_ifs with h
  · simp [h, or_comm]
  · simp [h]

/-- A report touches nothing of the provider but its cached values, and not the wire. -/
theorem pluginStep_of_isReport {s t : Session K V} {e : PluginEvent K V} {o : Signals K}
    (he : e.IsReport) (h : s.pluginStep e = some (t, o)) :
    t.provider = { s.provider with values := t.provider.values } ∧ t.wire = s.wire := by
  have hvalue : ∀ (s : Session K V) key value,
      (s.report key value).1.provider =
        { s.provider with values := (s.report key value).1.provider.values } := by
    intro s key value
    simp only [report, Provider.onPluginValueChanged]
    split_ifs <;> rfl
  rcases he with ⟨key, value, rfl⟩ | ⟨key, rfl⟩ | ⟨key, value, rfl⟩
  · cases value with
    | none =>
      simp only [pluginStep, Option.some.injEq, Prod.mk.injEq] at h
      obtain ⟨rfl, -⟩ := h
      simp
    | some v =>
      simp only [pluginStep, Option.some.injEq, Prod.mk.injEq] at h
      obtain ⟨rfl, -⟩ := h
      refine ⟨?_, answer_wire s key⟩
      conv_lhs => rw [hvalue, answer_provider]
  · simp only [pluginStep, Option.some.injEq, Prod.mk.injEq] at h
    obtain ⟨rfl, -⟩ := h
    simp
  · simp only [pluginStep, Option.some.injEq, Prod.mk.injEq] at h
    obtain ⟨rfl, -⟩ := h
    exact ⟨hvalue s key value, rfl⟩

/-- A report leaves the account of the requests alone, or answers one of them. -/
theorem pluginStep_report_account {s t : Session K V} {e : PluginEvent K V} {o : Signals K}
    (he : e.IsReport) (h : s.pluginStep e = some (t, o)) :
    t.unanswered = s.unanswered ∧ t.answered = s.answered ∧ o.finished = ∅ ∨
      ∃ key, e.Answers key ∧ t.unanswered = (s.answer key).unanswered ∧
        t.answered = (s.answer key).answered ∧
        o.finished = s.provider.signalSubscribeFinished key := by
  rcases he with ⟨key, value, rfl⟩ | ⟨key, rfl⟩ | ⟨key, value, rfl⟩
  · refine Or.inr ⟨key, Or.inl ⟨value, rfl⟩, ?_⟩
    cases value <;> (cases h; exact ⟨rfl, rfl, rfl⟩)
  · refine Or.inr ⟨key, Or.inr rfl, ?_⟩
    cases h
    exact ⟨rfl, rfl, rfl⟩
  · cases h
    exact Or.inl ⟨rfl, rfl, rfl⟩

/-- What an event from the plugin's side can do to a session. -/
inductive PluginStep (s : Session K V) : PluginEvent K V → Session K V → Signals K → Prop
  | handled (hq : Method.handleSubscribes ∈ s.provider.callQueue)
      (hr : s.provider.pluginState = .ready) :
      PluginStep s .handleSubscribes
        { provider := (s.provider.dequeue .handleSubscribes).clearSchedules
          wire := (s.wire ∪ s.provider.toSubscribe) \ s.provider.toUnsubscribe
          unanswered := s.unanswered ∪ s.provider.toSubscribe
          answered := s.answered \ s.provider.toSubscribe
          reported := fun k => if k ∈ s.provider.toSubscribe then none else s.reported k } ⟨∅, ∅⟩
  | handledFailed (hq : Method.handleSubscribes ∈ s.provider.callQueue)
      (hr : s.provider.pluginState = .failed) :
      PluginStep s .handleSubscribes
        { s with provider := (s.provider.dequeue .handleSubscribes).clearSchedules }
        ⟨s.provider.toSubscribe, ∅⟩
  | handledInitializing (hq : Method.handleSubscribes ∈ s.provider.callQueue)
      (hr : s.provider.pluginState = .initializing) :
      PluginStep s .handleSubscribes { s with provider := s.provider.dequeue .handleSubscribes }
        ⟨∅, ∅⟩
  | ready (hr : s.provider.pluginState ≠ .ready) :
      PluginStep s .ready
        { provider :=
            { s.provider with toSubscribe := ∅, toUnsubscribe := ∅, pluginState := .ready }
          wire := s.provider.subscribedKeys
          unanswered := s.unanswered ∪ s.provider.subscribedKeys
          answered := s.answered \ s.provider.subscribedKeys
          reported := fun k => if k ∈ s.provider.subscribedKeys then none else s.reported k }
        ⟨∅, ∅⟩
  | failed :
      PluginStep s .failed
        { s with
          provider :=
            { s.provider with toSubscribe := ∅, toUnsubscribe := ∅, pluginState := .failed }
          unanswered := ∅ } ⟨s.provider.toSubscribe, ∅⟩
  | report {e : PluginEvent K V} {t : Session K V} {o : Signals K} (he : e.IsReport)
      (h : s.pluginStep e = some (t, o)) : PluginStep s e t o

theorem pluginStep_cases {s t : Session K V} {e : PluginEvent K V} {o : Signals K}
    (h : s.pluginStep e = some (t, o)) : PluginStep s e t o := by
  cases e with
  | handleSubscribes =>
    have hq : Method.handleSubscribes ∈ s.provider.callQueue := by
      by_contra hq
      simp [pluginStep, hq] at h
    cases hr : s.provider.pluginState with
    | ready =>
      rw [pluginStep_handleSubscribes_ready hq hr] at h
      cases h
      exact .handled hq hr
    | failed =>
      rw [pluginStep_handleSubscribes_failed hq hr] at h
      cases h
      exact .handledFailed hq hr
    | initializing =>
      rw [pluginStep_handleSubscribes_initializing hq hr] at h
      cases h
      exact .handledInitializing hq hr
  | ready =>
    have hr : s.provider.pluginState ≠ .ready := by
      intro hr
      simp [pluginStep, hr] at h
    rw [pluginStep_ready hr] at h
    cases h
    exact .ready hr
  | failed =>
    rw [pluginStep_failed] at h
    cases h
    exact .failed
  | subscribeFinished key value => exact .report (Or.inl ⟨key, value, rfl⟩) h
  | subscribeFailed key => exact .report (Or.inr (Or.inl ⟨key, rfl⟩)) h
  | valueChanged key value => exact .report (Or.inr (Or.inr ⟨key, value, rfl⟩)) h

/-- The plugin's side never changes what should be subscribed. -/
theorem pluginStep_subscribedKeys {s t : Session K V} {e : PluginEvent K V} {o : Signals K}
    (h : s.pluginStep e = some (t, o)) : t.provider.subscribedKeys = s.provider.subscribedKeys := by
  cases pluginStep_cases h with
  | handled | handledFailed | handledInitializing | ready | failed => rfl
  | report hrep h => rw [(pluginStep_of_isReport hrep h).1]

/-- Values are passed on only of keys that should be subscribed. -/
theorem pluginStep_changed {s t : Session K V} {e : PluginEvent K V} {o : Signals K}
    (h : s.pluginStep e = some (t, o)) : o.changed ⊆ s.provider.subscribedKeys := by
  have hreport : ∀ (s : Session K V) key value,
      (s.report key value).2 ⊆ s.provider.subscribedKeys := by
    intro s key value
    unfold report Provider.onPluginValueChanged
    split_ifs with hkey
    · exact Finset.singleton_subset_iff.2 hkey
    · exact Finset.empty_subset _
  cases pluginStep_cases h with
  | handled | handledFailed | handledInitializing | ready | failed => exact Finset.empty_subset _
  | report hrep h =>
    rcases hrep with ⟨key, value, rfl⟩ | ⟨key, rfl⟩ | ⟨key, value, rfl⟩
    · cases value with
      | none =>
        cases h
        exact Finset.empty_subset _
      | some v =>
        cases h
        have hv := hreport (s.answer key) key v
        rwa [answer_provider] at hv
    · cases h
      exact Finset.empty_subset _
    · cases h
      exact hreport s key value

end Session

end ContextSubscriber
