import Mathlib.Data.Finset.Card
import ContextKit.Variant

/-!
# `Provider`: what should be subscribed, and what the plugin has been told

A `Provider` stands for one plugin.  `subscribe` and `unsubscribe` only save the intention in
`subscribedKeys` and schedule the key in `toSubscribe` or `toUnsubscribe`; `handleSubscribes`, run
from the main loop, hands the schedules to the plugin.  Each slot of the class is one function on
the record of its fields, and returns what it calls or emits on the way out.

The mutex is recursive and every slot runs under it, so a slot is one step.  `queueOnce` keeps a
method in `callQueue` from the call until its event is delivered; the event itself is not kept
apart from it.
-/

namespace ContextSubscriber
open ContextKit

/-- `Provider::PluginState` -/
inductive PluginState
  | initializing
  | ready
  | failed
  deriving DecidableEq

/-- The methods a `Provider` queues. -/
inductive Method
  | constructPlugin
  | handleSubscribes
  deriving DecidableEq

/-- A call of the plugin interface made by `handleSubscribes`. -/
inductive PluginCall (K : Type)
  | subscribe (keys : Finset K)
  | unsubscribe (keys : Finset K)

/-- What `handleSubscribes` sends out: the calls of the plugin, in order, and the keys it emits
`subscribeFinished` for. -/
structure Outcome (K : Type) where
  calls : List (PluginCall K)
  finished : Finset K

/-- The fields of `Provider`.  `plugin` itself is kept by whoever composes the two. -/
structure Provider (K V : Type) where
  pluginState : PluginState
  pluginConstructed : Bool
  toSubscribe : Finset K
  toUnsubscribe : Finset K
  subscribedKeys : Finset K
  values : K → Option (TimedValue V)
  callQueue : Finset Method

namespace Provider

variable {K V : Type}

/-- The constructor: everything empty, the construction of the plugin queued. -/
def init : Provider K V where
  pluginState := .initializing
  pluginConstructed := false
  toSubscribe := ∅
  toUnsubscribe := ∅
  subscribedKeys := ∅
  values := fun _ => none
  callQueue := {.constructPlugin}

/-- `QueuedInvoker::queueOnce` -/
def queueOnce (p : Provider K V) (m : Method) : Provider K V :=
  { p with callQueue := insert m p.callQueue }

/-- `QueuedInvoker::onQueuedCall`, before the method itself is invoked. -/
def dequeue (p : Provider K V) (m : Method) : Provider K V :=
  { p with callQueue := p.callQueue.erase m }

/-- Schedules `key` to be subscribed to.  The result tells whether the main loop has to run for it:
a key scheduled for unsubscription is just taken off that schedule. -/
def subscribe [DecidableEq K] (p : Provider K V) (key : K) : Provider K V × Bool :=
  let p := { p with subscribedKeys := insert key p.subscribedKeys }
  if key ∈ p.toUnsubscribe then
    ({ p with toUnsubscribe := p.toUnsubscribe.erase key }, false)
  else
    (({ p with toSubscribe := insert key p.toSubscribe }).queueOnce .handleSubscribes, true)

/-- Schedules `key` to be unsubscribed from, or takes it off the schedule for subscription. -/
def unsubscribe [DecidableEq K] (p : Provider K V) (key : K) : Provider K V :=
  let p := { p with subscribedKeys := p.subscribedKeys.erase key }
  if key ∈ p.toSubscribe then
    { p with toSubscribe := p.toSubscribe.erase key }
  else
    ({ p with toUnsubscribe := insert key p.toUnsubscribe }).queueOnce .handleSubscribes

/-- The two schedules emptied. -/
def clearSchedules (p : Provider K V) : Provider K V :=
  { p with toSubscribe := ∅, toUnsubscribe := ∅ }

/-- The calls that pass the schedules to a plugin that is ready. -/
def scheduledCalls (p : Provider K V) : List (PluginCall K) :=
  (if 0 < p.toSubscribe.card then [.subscribe p.toSubscribe] else []) ++
    (if 0 < p.toUnsubscribe.card then [.unsubscribe p.toUnsubscribe] else [])

/-- Hands the schedules to the plugin.  After a failure nothing is asked, and the keys that were to
be subscribed count as finished. -/
def handleSubscribes (p : Provider K V) : Provider K V × Outcome K :=
  match p.pluginState with
  | .ready => (p.clearSchedules, ⟨p.scheduledCalls, ∅⟩)
  | .failed => (p.clearSchedules, ⟨[], p.toSubscribe⟩)
  | .initializing => (p, ⟨[], ∅⟩)

/-- The slot of the plugin's `ready`: ignored in the ready state, otherwise every key that should be
subscribed is asked for again. -/
def onPluginReady (p : Provider K V) : Provider K V × Outcome K :=
  if p.pluginState = .ready then (p, ⟨[], ∅⟩)
  else
    handleSubscribes
      { p with toUnsubscribe := ∅, toSubscribe := p.subscribedKeys, pluginState := .ready }

/-- The slot of the plugin's `failed`. -/
def onPluginFailed (p : Provider K V) : Provider K V × Outcome K :=
  handleSubscribes { p with pluginState := .failed }

/-- `subscribeFinished` is emitted only for keys that should still be subscribed. -/
def signalSubscribeFinished [DecidableEq K] (p : Provider K V) (key : K) : Finset K :=
  if key ∈ p.subscribedKeys then {key} else ∅

/-- The slot of the plugin's `valueChanged`: stores the value and passes the signal on, unless the
key should not be subscribed.  (The overload without a time stamp stamps the value on arrival.) -/
def onPluginValueChanged [DecidableEq K] (p : Provider K V) (key : K) (newValue : TimedValue V) :
    Provider K V × Finset K :=
  if key ∈ p.subscribedKeys then
    ({ p with values := Function.update p.values key (some newValue) }, {key})
  else (p, ∅)

/-- Forgets the cached values. -/
def clearValues (p : Provider K V) : Provider K V := { p with values := fun _ => none }

/-- The cached value of `key`, or the null value.  (The time stamp of that one is never looked at:
the only caller skips null values.) -/
def get [QVariant V] (p : Provider K V) (key : K) : TimedValue V :=
  (p.values key).getD ⟨QVariant.invalid, 0⟩

/-! ### What a slot does to the fields -/

section

variable (p : Provider K V)

theorem handleSubscribes_ready (h : p.pluginState = .ready) :
    p.handleSubscribes = (p.clearSchedules, ⟨p.scheduledCalls, ∅⟩) := by
  simp [handleSubscribes, h]

theorem handleSubscribes_failed (h : p.pluginState = .failed) :
    p.handleSubscribes = (p.clearSchedules, ⟨[], p.toSubscribe⟩) := by
  simp [handleSubscribes, h]

theorem handleSubscribes_initializing (h : p.pluginState = .initializing) :
    p.handleSubscribes = (p, ⟨[], ∅⟩) := by
  simp [handleSubscribes, h]

theorem handleSubscribes_pluginState : p.handleSubscribes.1.pluginState = p.pluginState := by
  unfold handleSubscribes
  split <;> rfl

/-- The plugin is called only in the ready state, if there is something to hand over. -/
theorem handleSubscribes_calls_ne_nil :
    p.handleSubscribes.2.calls ≠ [] ↔
      p.pluginState = .ready ∧ (p.toSubscribe.Nonempty ∨ p.toUnsubscribe.Nonempty) := by
  cases hp : p.pluginState with
  | ready =>
    rw [handleSubscribes_ready _ hp]
    rcases p.toSubscribe.eq_empty_or_nonempty with h₁ | h₁ <;>
      rcases p.toUnsubscribe.eq_empty_or_nonempty with h₂ | h₂ <;>
      simp [scheduledCalls, h₁, h₂, Finset.card_pos]
  | failed =>
    rw [handleSubscribes_failed _ hp]
    simp
  | initializing =>
    rw [handleSubscribes_initializing _ hp]
    simp

/-- On `ready` the whole of `subscribedKeys` is handed to the plugin and the schedules are empty. -/
theorem onPluginReady_of_ne (h : p.pluginState ≠ .ready) :
    p.onPluginReady =
      ({ p with toSubscribe := ∅, toUnsubscribe := ∅, pluginState := .ready },
        ⟨if 0 < p.subscribedKeys.card then [.subscribe p.subscribedKeys] else [], ∅⟩) := by
  simp [onPluginReady, h, handleSubscribes, clearSchedules, scheduledCalls]

variable [DecidableEq K] (key : K)

@[simp] theorem mem_signalSubscribeFinished {k : K} :
    k ∈ p.signalSubscribeFinished key ↔ k = key ∧ k ∈ p.subscribedKeys := by
  unfold signalSubscribeFinished
  split_ifs with h
  · simp only [Finset.mem_singleton]
    exact ⟨fun hk => ⟨hk, hk ▸ h⟩, fun hk => hk.1⟩
  · simp only [Finset.notMem_empty, false_iff, not_and]
    rintro rfl
    exact h

/-- A subscription cancels a scheduled unsubscription, and then nothing has to be waited for. -/
theorem subscribe_of_mem (h : key ∈ p.toUnsubscribe) :
    p.subscribe key = ({ p with
      subscribedKeys := insert key p.subscribedKeys
      toUnsubscribe := p.toUnsubscribe.erase key }, false) := if_pos h

theorem subscribe_of_notMem (h : key ∉ p.toUnsubscribe) :
    p.subscribe key = ({ p with
      subscribedKeys := insert key p.subscribedKeys
      toSubscribe := insert key p.toSubscribe
      callQueue := insert .handleSubscribes p.callQueue }, true) := if_neg h

/-- An unsubscription cancels a scheduled subscription. -/
theorem unsubscribe_of_mem (h : key ∈ p.toSubscribe) :
    p.unsubscribe key = { p with
      subscribedKeys := p.subscribedKeys.erase key
      toSubscribe := p.toSubscribe.erase key } := if_pos h

theorem unsubscribe_of_notMem (h : key ∉ p.toSubscribe) :
    p.unsubscribe key = { p with
      subscribedKeys := p.subscribedKeys.erase key
      toUnsubscribe := insert key p.toUnsubscribe
      callQueue := insert .handleSubscribes p.callQueue } := if_neg h

@[simp] theorem subscribe_pluginState : (p.subscribe key).1.pluginState = p.pluginState := by
  by_cases h : key ∈ p.toUnsubscribe
  · rw [subscribe_of_mem p key h]
  · rw [subscribe_of_notMem p key h]

@[simp] theorem subscribe_subscribedKeys :
    (p.subscribe key).1.subscribedKeys = insert key p.subscribedKeys := by
  by_cases h : key ∈ p.toUnsubscribe
  · rw [subscribe_of_mem p key h]
  · rw [subscribe_of_notMem p key h]

@[simp] theorem subscribe_values : (p.subscribe key).1.values = p.values := by
  by_cases h : key ∈ p.toUnsubscribe
  · rw [subscribe_of_mem p key h]
  · rw [subscribe_of_notMem p key h]

@[simp] theorem unsubscribe_pluginState : (p.unsubscribe key).pluginState = p.pluginState := by
  by_cases h : key ∈ p.toSubscribe
  · rw [unsubscribe_of_mem p key h]
  · rw [unsubscribe_of_notMem p key h]

@[simp] theorem unsubscribe_subscribedKeys :
    (p.unsubscribe key).subscribedKeys = p.subscribedKeys.erase key := by
  by_cases h : key ∈ p.toSubscribe
  · rw [unsubscribe_of_mem p key h]
  · rw [unsubscribe_of_notMem p key h]

@[simp] theorem unsubscribe_values : (p.unsubscribe key).values = p.values := by
  by_cases h : key ∈ p.toSubscribe
  · rw [unsubscribe_of_mem p key h]
  · rw [unsubscribe_of_notMem p key h]

@[simp] theorem subscribe_snd : (p.subscribe key).2 = decide (key ∉ p.toUnsubscribe) := by
  by_cases h : key ∈ p.toUnsubscribe
  · rw [subscribe_of_mem p key h]; simp [h]
  · rw [subscribe_of_notMem p key h]; simp [h]

@[simp] theorem subscribe_toUnsubscribe :
    (p.subscribe key).1.toUnsubscribe = p.toUnsubscribe.erase key := by
  by_cases h : key ∈ p.toUnsubscribe
  · rw [subscribe_of_mem p key h]
  · rw [subscribe_of_notMem p key h, Finset.erase_eq_of_notMem h]

@[simp] theorem mem_subscribe_toSubscribe {k : K} :
    k ∈ (p.subscribe key).1.toSubscribe ↔
      k ∈ p.toSubscribe ∨ k = key ∧ key ∉ p.toUnsubscribe := by
  by_cases h : key ∈ p.toUnsubscribe
  · rw [subscribe_of_mem p key h]; simp [h]
  · rw [subscribe_of_notMem p key h]; simp [h, or_comm]

@[simp] theorem mem_subscribe_callQueue {m : Method} :
    m ∈ (p.subscribe key).1.callQueue ↔
      m ∈ p.callQueue ∨ m = .handleSubscribes ∧ key ∉ p.toUnsubscribe := by
  by_cases h : key ∈ p.toUnsubscribe
  · rw [subscribe_of_mem p key h]; simp [h]
  · rw [subscribe_of_notMem p key h]; simp [h, or_comm]

@[simp] theorem unsubscribe_toSubscribe :
    (p.unsubscribe key).toSubscribe = p.toSubscribe.erase key := by
  by_cases h : key ∈ p.toSubscribe
  · rw [unsubscribe_of_mem p key h]
  · rw [unsubscribe_of_notMem p key h, Finset.erase_eq_of_notMem h]

@[simp] theorem mem_unsubscribe_toUnsubscribe {k : K} :
    k ∈ (p.unsubscribe key).toUnsubscribe ↔
      k ∈ p.toUnsubscribe ∨ k = key ∧ key ∉ p.toSubscribe := by
  by_cases h : key ∈ p.toSubscribe
  · rw [unsubscribe_of_mem p key h]; simp [h]
  · rw [unsubscribe_of_notMem p key h]; simp [h, or_comm]

@[simp] theorem mem_unsubscribe_callQueue {m : Method} :
    m ∈ (p.unsubscribe key).callQueue ↔
      m ∈ p.callQueue ∨ m = .handleSubscribes ∧ key ∉ p.toSubscribe := by
  by_cases h : key ∈ p.toSubscribe
  · rw [unsubscribe_of_mem p key h]; simp [h]
  · rw [unsubscribe_of_notMem p key h]; simp [h, or_comm]

end

end Provider

end ContextSubscriber
