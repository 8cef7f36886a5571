import ContextKit.Subscriber.World

/-!
# Which request an answer is for

The signals of a plugin carry a key and not the call they answer, and a `Session` keeps only whether
some answer has come since the last request.  An `Account` of a `World` keeps more.  The requests
made of each plugin for each key are numbered, from 0, in the order of the calls of `subscribe`, and
every answer comes with the number of the request it is for.  A number that has not been given yet
stands for an answer to no request at all.
-/

namespace ContextSubscriber
open ContextKit Transition

variable {P K V : Type}

section

variable [DecidableEq K]

/-- The call asks for `key`. -/
def PluginCall.asks (key : K) : PluginCall K → Bool
  | .subscribe keys => decide (key ∈ keys)
  | .unsubscribe _ => false

/-- The event is an answer for `key`. -/
def PluginEvent.answers (key : K) : PluginEvent K V → Bool
  | .subscribeFinished k _ => decide (k = key)
  | .subscribeFailed k => decide (k = key)
  | _ => false

theorem PluginEvent.answers_iff {e : PluginEvent K V} {key : K} :
    e.answers key = true ↔ e.Answers key := by
  cases e <;> simp [answers, Answers]

end

/-- The calls of the plugin that a provider makes in the course of an event. -/
def Session.calls (s : Session K V) : PluginEvent K V → List (PluginCall K)
  | .handleSubscribes => (s.provider.dequeue .handleSubscribes).handleSubscribes.2.calls
  | .ready => s.provider.onPluginReady.2.calls
  | .failed => s.provider.onPluginFailed.2.calls
  | _ => []

/-- A world, the number of requests made of each plugin for each key, and those that have been
answered. -/
structure Account (P K V : Type) where
  world : World P K V
  made : P → K → ℕ
  answered : P → K → Finset ℕ

namespace Account

/-- Nothing has been asked for. -/
def init [QVariant V] : Account P K V := ⟨World.init, fun _ _ => 0, fun _ _ => ∅⟩

/-- The last request made of the plugin of `p` for `k` has been answered. -/
def LastAnswered (a : Account P K V) (p : P) (k : K) : Prop :=
  ∃ n ∈ a.answered p k, a.made p k = n + 1

instance (a : Account P K V) (p : P) (k : K) : Decidable (a.LastAnswered p k) :=
  inferInstanceAs (Decidable (∃ n ∈ _, _))

variable [DecidableEq P] [DecidableEq K]

/-- One event, with the number of the request it is for if it is an answer. -/
def step [QVariant V] (cfg : Setup P K V) (a : Account P K V) :
    WorldEvent P K V × ℕ → Option (Account P K V)
  | (e, n) => (a.world.step cfg e).map fun w =>
    match e with
    | .plugin p e' =>
      { world := w
        made := Function.update a.made p fun k =>
          a.made p k + ((a.world.sessions p).calls e').countP (PluginCall.asks k)
        answered := Function.update a.answered p fun k =>
          if e'.answers k && decide (n < a.made p k) then insert n (a.answered p k)
          else a.answered p k }
    | _ => { a with world := w }

/-! ### One event at one pair -/

variable [QVariant V] {cfg : Setup P K V} {a b : Account P K V} {e : WorldEvent P K V × ℕ}

/-- The account only watches. -/
theorem world_step (h : a.step cfg e = some b) : a.world.step cfg e.1 = some b.world := by
  obtain ⟨e, n⟩ := e
  obtain ⟨w, hw, rfl⟩ := Option.map_eq_some_iff.1 h
  rw [hw]
  cases e <;> rfl

/-- An event from another side than the plugin's changes no account. -/
theorem account_of_ne (h : a.step cfg e = some b) {p : P} (he : ∀ e', e.1 ≠ .plugin p e') (k : K) :
    b.made p k = a.made p k ∧ b.answered p k = a.answered p k := by
  obtain ⟨e, n⟩ := e
  obtain ⟨w, hw, rfl⟩ := Option.map_eq_some_iff.1 h
  cases e with
  | plugin q e' =>
    have hne : p ≠ q := by
      rintro rfl
      exact he e' rfl
    simp [hne]
  | _ => exact ⟨rfl, rfl⟩

theorem account_plugin {p : P} {e' : PluginEvent K V} {n : ℕ}
    (h : a.step cfg (.plugin p e', n) = some b) (k : K) :
    b.made p k = a.made p k + ((a.world.sessions p).calls e').countP (PluginCall.asks k) ∧
      b.answered p k = if e'.answers k && decide (n < a.made p k) then insert n (a.answered p k)
        else a.answered p k := by
  obtain ⟨w, hw, rfl⟩ := Option.map_eq_some_iff.1 h
  simp

omit [DecidableEq P] [QVariant V] in
/-- The schedules ask for a key once if it is to be subscribed. -/
theorem countP_scheduledCalls (p : Provider K V) (k : K) :
    p.scheduledCalls.countP (PluginCall.asks k) = if k ∈ p.toSubscribe then 1 else 0 := by
  unfold Provider.scheduledCalls
  rcases p.toSubscribe.eq_empty_or_nonempty with h₁ | h₁ <;>
    rcases p.toUnsubscribe.eq_empty_or_nonempty with h₂ | h₂ <;>
    simp [h₁, h₂, Finset.card_pos, PluginCall.asks, List.countP_cons]

omit [DecidableEq P] [QVariant V] in
/-- Whoever is asked for in the queued call was to be subscribed, at a plugin that is ready. -/
theorem countP_handleSubscribes (s : Session K V) (k : K) :
    (s.calls .handleSubscribes).countP (PluginCall.asks k) =
      if s.provider.pluginState = .ready ∧ k ∈ s.provider.toSubscribe then 1 else 0 := by
  have hstate : (s.provider.dequeue .handleSubscribes).pluginState = s.provider.pluginState := rfl
  cases hs : s.provider.pluginState with
  | ready =>
    rw [Session.calls, Provider.handleSubscribes_ready _ (hstate.trans hs), countP_scheduledCalls]
    exact if_congr (by simp [Provider.dequeue]) rfl rfl
  | failed =>
    rw [Session.calls, Provider.handleSubscribes_failed _ (hstate.trans hs)]
    simp
  | initializing =>
    rw [Session.calls, Provider.handleSubscribes_initializing _ (hstate.trans hs)]
    simp

end Account

end ContextSubscriber
