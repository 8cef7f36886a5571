import ContextKit.Subscriber.PluginCalls
import ContextKit.Subscriber.Renewal

/-!
# A link as one key sees it

For one key a provider and its plugin are a small automaton: the state of the plugin, four flags
that tell where the wish to be subscribed has got to, and what the plugin has done on D-Bus.
`KeyView` is that automaton, `KeyMove` are the moves it makes without being addressed, and
`keyMove_of_step` says that every other event of the link is one of them, as long as the keys that
are used have different object paths.  What addresses the key is kept apart: the wishes of a user of
the library (`view_subscribe`, `view_unsubscribe`) and the call of `Subscribe`
(`view_newSubscribe`).
-/

namespace ContextSubscriber
open ContextKit Transition

/-- What a key sees of its provider and plugin. -/
@[ext] structure KeyView where
  pluginState : PluginState
  subscribed : Bool
  toSubscribe : Bool
  toUnsubscribe : Bool
  pending : Bool
  calls : List Member
  connected : Bool
  entry : Option String
  deriving DecidableEq

namespace KeyView

/-- The plugin has become ready: the key is asked for anew if it is wanted. -/
def renewed (v : KeyView) : KeyView :=
  { v with
    pluginState := .ready
    toSubscribe := false
    toUnsubscribe := false
    pending := v.subscribed || v.pending }

/-- Nothing is scheduled any more. -/
def cleared (v : KeyView) : KeyView := { v with toSubscribe := false, toUnsubscribe := false }

/-- The schedules have been handed over. -/
def handled (v : KeyView) : KeyView :=
  { v.cleared with
    pending := v.toSubscribe || v.pending
    calls := if v.toUnsubscribe then v.calls ++ [.unsubscribe] else v.calls
    connected := !v.toUnsubscribe && v.connected
    entry := if v.toUnsubscribe then none else v.entry }

/-- `Subscribe` has been called. -/
def called (v : KeyView) (key : String) : KeyView :=
  { v with
    pending := false
    calls := v.calls ++ [.subscribe]
    connected := true
    entry := some key }

/-- The key is wanted. -/
def wanted (v : KeyView) : KeyView :=
  { v with
    subscribed := true
    toUnsubscribe := false
    toSubscribe := !v.toUnsubscribe || v.toSubscribe }

/-- The key is not wanted any more. -/
def unwanted (v : KeyView) : KeyView :=
  { v with
    subscribed := false
    toSubscribe := false
    toUnsubscribe := !v.toSubscribe || v.toUnsubscribe }

end KeyView

/-- What an event can do to a key it does not address. -/
inductive KeyMove (v : KeyView) : KeyView → Prop
  | idle : KeyMove v v
  | ready (h : v.pluginState ≠ .ready) : KeyMove v v.renewed
  | failed : KeyMove v { v.cleared with pluginState := .failed }
  | handled (h : v.pluginState = .ready) : KeyMove v v.handled
  | forgotten (h : v.pluginState = .failed) : KeyMove v v.cleared

namespace ContextKitPlugin

variable {p : ContextKitPlugin}

theorem keyToPath_ne_empty (key : String) : keyToPath key ≠ "" := by
  unfold keyToPath
  split_ifs with h
  · rintro rfl
    simp at h
  · intro h
    have hlength := congrArg String.length h
    simp at hlength

/-- The plugin after its slot for an appearing provider, on the new protocol. -/
def appeared (p : ContextKitPlugin) : ContextKitPlugin := { p.reset with newProtocol := true }

theorem onProviderAppeared_eq (h : p.Modern) (listener : DBusNameListener) :
    p.onProviderAppeared listener =
      (p.appeared, decide (listener.servicePresent ≠ .notPresent)) := by
  unfold onProviderAppeared
  rw [if_pos h.reset.defaultNewProtocol]
  rfl

theorem subscribe_empty (h : p.newProtocol = true) : p.subscribe ∅ = p := by
  rw [p.subscribe_of_newProtocol h]
  simp

theorem unsubscribe_empty (h : p.newProtocol = true) : p.unsubscribe ∅ = p := by
  rw [ContextKitPlugin.unsubscribe, if_pos h]
  rfl

/-- What `unsubscribe` does on the object of one key. -/
theorem unsubscribe_at {S : Set String} (hS : Set.InjOn keyToPath S) {key : String} (hkey : key ∈ S)
    (hnew : p.newProtocol = true) {keys : Finset String} (hkeys : ∀ k ∈ keys, k ∈ S) :
    (p.unsubscribe keys).calls (keyToPath key) =
        (if key ∈ keys then p.calls (keyToPath key) ++ [.unsubscribe]
          else p.calls (keyToPath key)) ∧
      (keyToPath key ∈ (p.unsubscribe keys).connections ↔
        key ∉ keys ∧ keyToPath key ∈ p.connections) ∧
      (p.unsubscribe keys).objectPathToKey (keyToPath key) =
        (if key ∈ keys then none else p.objectPathToKey (keyToPath key)) := by
  have hmem : keyToPath key ∈ keys.val.map keyToPath ↔ key ∈ keys := by
    rw [Multiset.mem_map]
    constructor
    · rintro ⟨k, hk, heq⟩
      rwa [← hS (hkeys k hk) hkey heq]
    · exact fun hk => ⟨key, hk, rfl⟩
  rw [ContextKitPlugin.unsubscribe, if_pos hnew, foldl_unsubscribeKey]
  dsimp only
  refine ⟨?_, ?_, ?_⟩
  · split_ifs with hk
    · have hcount : (keys.val.map keyToPath).count (keyToPath key) = 1 := by
        rw [Multiset.count_map_eq_count keyToPath _ (hS.mono hkeys) key hk]
        exact Multiset.count_eq_one_of_mem keys.nodup hk
      rw [hcount]
      rfl
    · rw [Multiset.count_eq_zero.2 (mt hmem.1 hk)]
      simp
  · rw [Finset.mem_filter, hmem, and_comm]
  · simp only [hmem]

/-- The schedules are handed over to the plugin: what happens on the object of one key. -/
theorem handOver_at {S : Set String} (hS : Set.InjOn keyToPath S) {key : String} (hkey : key ∈ S)
    (h : p.Modern) (keys : Finset String) {keys' : Finset String} (hkeys : ∀ k ∈ keys', k ∈ S) :
    ((p.subscribe keys).unsubscribe keys').pendingKeys = keys ∪ p.pendingKeys ∧
      ((p.subscribe keys).unsubscribe keys').calls (keyToPath key) =
        (if key ∈ keys' then p.calls (keyToPath key) ++ [.unsubscribe]
          else p.calls (keyToPath key)) ∧
      (keyToPath key ∈ ((p.subscribe keys).unsubscribe keys').connections ↔
        key ∉ keys' ∧ keyToPath key ∈ p.connections) ∧
      ((p.subscribe keys).unsubscribe keys').objectPathToKey (keyToPath key) =
        (if key ∈ keys' then none else p.objectPathToKey (keyToPath key)) := by
  rw [p.subscribe_of_newProtocol h.newProtocol]
  constructor
  · rw [unsubscribe_pendingKeys]
    exact h.newProtocol
  · refine unsubscribe_at hS hkey ?_ hkeys
    exact h.newProtocol

end ContextKitPlugin

namespace Link

variable {V : Type}

/-- The link as `key` sees it. -/
def view (l : Link V) (key : String) : KeyView where
  pluginState := l.provider.pluginState
  subscribed := decide (key ∈ l.provider.subscribedKeys)
  toSubscribe := decide (key ∈ l.provider.toSubscribe)
  toUnsubscribe := decide (key ∈ l.provider.toUnsubscribe)
  pending := decide (key ∈ l.plugin.pendingKeys)
  calls := l.plugin.calls (keyToPath key)
  connected := decide (keyToPath key ∈ l.plugin.connections)
  entry := l.plugin.objectPathToKey (keyToPath key)

/-- All the keys that are in use are keys of `S`. -/
structure Within (S : Set String) (l : Link V) : Prop where
  subscribedKeys : ∀ k ∈ l.provider.subscribedKeys, k ∈ S
  toSubscribe : ∀ k ∈ l.provider.toSubscribe, k ∈ S
  toUnsubscribe : ∀ k ∈ l.provider.toUnsubscribe, k ∈ S
  pendingKeys : ∀ k ∈ l.plugin.pendingKeys, k ∈ S

/-- The key an event is a wish about. -/
def wish : LinkEvent V → Option String
  | .subscribe key | .unsubscribe key => some key
  | _ => none

/-- The subscriber waits for a reply, and messages reach it out of turn. -/
def Blocks : LinkEvent V → Prop
  | .blockUntilSubscribed _ _ _ => True
  | _ => False

/-! ### The slots, with all they do -/

section

variable {l : Link V}

theorem emit_eq (h : l.plugin.Modern) (listener : DBusNameListener) :
    l.emit (l.plugin.onProviderAppeared listener) =
      if listener.servicePresent ≠ .notPresent ∧ l.provider.pluginState ≠ .ready then
        { l with
          provider :=
            { l.provider with toSubscribe := ∅, toUnsubscribe := ∅, pluginState := .ready }
          plugin := l.plugin.appeared.subscribe l.provider.subscribedKeys }
      else { l with plugin := l.plugin.appeared } := by
  rw [ContextKitPlugin.onProviderAppeared_eq h, emit]
  by_cases hp : listener.servicePresent = .notPresent
  · simp [hp]
  by_cases hs : l.provider.pluginState = .ready
  · simp [hp, hs, Provider.onPluginReady, carryOut]
  rw [if_pos (by simpa using hp), if_pos ⟨hp, hs⟩, Provider.onPluginReady_of_ne _ hs]
  rcases l.provider.subscribedKeys.eq_empty_or_nonempty with he | he
  · simp [carryOut, he, ContextKitPlugin.subscribe_empty (p := l.plugin.appeared) rfl]
  · simp [carryOut, call, he, Finset.card_pos]

theorem carryOut_eq (h : l.plugin.Modern) {p : Provider String V} (hs : p.pluginState = .ready) :
    l.carryOut p.handleSubscribes = { l with
      provider := p.clearSchedules
      plugin := (l.plugin.subscribe p.toSubscribe).unsubscribe p.toUnsubscribe } := by
  have hsub := ContextKitPlugin.subscribe_empty h.newProtocol
  have hnew := ((ContextKitPlugin.noted_subscribe h p.toSubscribe).modern h).newProtocol
  rw [Provider.handleSubscribes_ready p hs]
  rcases p.toSubscribe.eq_empty_or_nonempty with h₁ | h₁ <;>
    rcases p.toUnsubscribe.eq_empty_or_nonempty with h₂ | h₂
  · simp [carryOut, Provider.scheduledCalls, h₁, h₂, hsub,
      ContextKitPlugin.unsubscribe_empty h.newProtocol]
  · simp [carryOut, Provider.scheduledCalls, call, h₁, h₂, hsub, Finset.card_pos]
  · simp [carryOut, Provider.scheduledCalls, call, h₁, h₂, Finset.card_pos,
      ContextKitPlugin.unsubscribe_empty hnew]
  · simp [carryOut, Provider.scheduledCalls, call, h₁, h₂, Finset.card_pos]

end

/-! ### The view of each slot -/

section

variable {S : Set String} {l : Link V} {key : String}

theorem keyMove_emit (h : l.plugin.Modern) (listener : DBusNameListener) :
    KeyMove (l.view key) ((l.emit (l.plugin.onProviderAppeared listener)).view key) := by
  have hconn : keyToPath key ∈ l.plugin.appeared.connections ↔
      keyToPath key ∈ l.plugin.connections :=
    Finset.mem_erase.trans (and_iff_right (ContextKitPlugin.keyToPath_ne_empty key))
  rw [emit_eq h]
  split_ifs with hc
  · rw [ContextKitPlugin.subscribe_of_newProtocol _ (by rfl)]
    convert KeyMove.ready (v := l.view key) hc.2 using 1
    ext1 <;> simp [view, KeyView.renewed, hconn] <;> rfl
  · convert KeyMove.idle using 1
    ext1 <;> simp [view, hconn] <;> rfl

theorem keyMove_handleSubscribes (hS : Set.InjOn keyToPath S) (hkey : key ∈ S)
    (hw : l.Within S) (h : l.plugin.Modern) :
    KeyMove (l.view key)
      ((l.carryOut (l.provider.dequeue .handleSubscribes).handleSubscribes).view key) := by
  have hdequeue : (l.provider.dequeue .handleSubscribes).pluginState = l.provider.pluginState := rfl
  cases hs : l.provider.pluginState with
  | ready =>
    rw [carryOut_eq h (hdequeue.trans hs)]
    obtain ⟨hpending, hcalls, hconn, hentry⟩ := ContextKitPlugin.handOver_at hS hkey h
      l.provider.toSubscribe hw.toUnsubscribe
    simp only [Provider.dequeue]
    generalize (l.plugin.subscribe l.provider.toSubscribe).unsubscribe l.provider.toUnsubscribe = q
      at hpending hcalls hconn hentry
    convert KeyMove.handled (v := l.view key) hs using 1
    ext1 <;>
      simp [view, KeyView.handled, KeyView.cleared, Provider.clearSchedules, hpending, hcalls,
        hconn, hentry]
    rfl
  | failed =>
    rw [Provider.handleSubscribes_failed _ (hdequeue.trans hs)]
    exact KeyMove.forgotten hs
  | initializing =>
    rw [Provider.handleSubscribes_initializing _ (hdequeue.trans hs)]
    exact KeyMove.idle

/-- A queued call is delivered that does nothing for the key. -/
theorem view_newSubscribe_of_not (hS : Set.InjOn keyToPath S) (hkey : key ∈ S) (hw : l.Within S)
    {k : String} (hk : k = key → key ∉ l.plugin.pendingKeys) :
    view { l with plugin := l.plugin.deliverNewSubscribe k } key = l.view key := by
  unfold ContextKitPlugin.deliverNewSubscribe ContextKitPlugin.newSubscribe
  dsimp only
  split_ifs with hpending
  · have hne : key ≠ k := by
      rintro rfl
      exact hk rfl hpending
    have hpath : keyToPath key ≠ keyToPath k := fun heq =>
      hne (hS hkey (hw.pendingKeys k hpending) heq)
    ext1 <;> simp [view, hne, hpath]
  · rfl

theorem view_newSubscribe (hpending : key ∈ l.plugin.pendingKeys) :
    view { l with plugin := l.plugin.deliverNewSubscribe key } key = (l.view key).called key := by
  unfold ContextKitPlugin.deliverNewSubscribe ContextKitPlugin.newSubscribe
  dsimp only
  rw [if_pos hpending]
  ext1 <;> simp [view, KeyView.called]

theorem keyMove_serviceUnregistered {m : Link V} (hstep : l.step .serviceUnregistered = some m) :
    KeyMove (l.view key) (m.view key) := by
  have hpath := ContextKitPlugin.keyToPath_ne_empty key
  simp only [step, Option.ite_none_right_eq_some] at hstep
  obtain ⟨-, hstep⟩ := hstep
  split_ifs at hstep
  · obtain rfl := Option.some.inj hstep
    rw [Provider.onPluginFailed, Provider.handleSubscribes_failed _ rfl]
    convert KeyMove.failed using 1
    ext1 <;> simp [view, KeyView.cleared, carryOut, Provider.clearSchedules,
      ContextKitPlugin.onProviderDisappeared, ContextKitPlugin.reset, hpath] <;> rfl
  · cases hstep
    exact .idle

/-- A value that comes in changes the cached values only. -/
theorem view_onPluginValueChanged (key k : String) (v : TimedValue V) :
    view { l with provider := (l.provider.onPluginValueChanged k v).1 } key = l.view key := by
  unfold Provider.onPluginValueChanged
  split_ifs <;> rfl

theorem view_onFinished (id : ℕ) :
    view { l with plugin := l.plugin.onFinished id } key = l.view key := by
  rw [l.plugin.onFinished_eq id]
  rfl

theorem view_finish (key : String) (id : ℕ) (value : Option (TimedValue V)) :
    (l.finish id value).view key = l.view key := by
  unfold finish
  cases l.plugin.watchers[id]? with
  | none => exact view_onFinished id
  | some k =>
    cases value with
    | none => exact view_onFinished id
    | some v =>
      let l' : Link V := { l with provider := (l.provider.onPluginValueChanged k v).1 }
      exact (view_onFinished (l := l') id).trans (view_onPluginValueChanged key k v)

/-- The user wants `k`. -/
theorem view_subscribe_of_ne {k : String} (hne : key ≠ k) :
    view { l with provider := (l.provider.subscribe k).1 } key = l.view key := by
  ext1 <;> simp [view, hne]

theorem view_unsubscribe_of_ne {k : String} (hne : key ≠ k) :
    view { l with provider := l.provider.unsubscribe k } key = l.view key := by
  ext1 <;> simp [view, hne]

theorem view_subscribe :
    view { l with provider := (l.provider.subscribe key).1 } key = (l.view key).wanted := by
  ext1 <;> simp [view, KeyView.wanted, Bool.or_comm]

theorem view_unsubscribe :
    view { l with provider := l.provider.unsubscribe key } key = (l.view key).unwanted := by
  ext1 <;> simp [view, KeyView.unwanted, Bool.or_comm]

/-- **Every event of a link is a move of each key it does not address.** -/
theorem keyMove_of_step (hS : Set.InjOn keyToPath S) (hkey : key ∈ S) (hl : l.Linked)
    (hw : l.Within S) {m : Link V} {e : LinkEvent V} (hstep : l.step e = some m)
    (he : wish e ≠ some key) (hcall : e = .newSubscribe key → key ∉ l.plugin.pendingKeys)
    (hblock : ¬ Blocks e) : KeyMove (l.view key) (m.view key) := by
  cases e with
  | constructPlugin =>
    simp only [step, Option.ite_none_right_eq_some, Option.some.injEq] at hstep
    obtain ⟨-, rfl⟩ := hstep
    unfold construct
    split_ifs <;> exact .idle
  | providerAppeared =>
    simp only [step, Option.ite_none_right_eq_some, Option.some.injEq] at hstep
    obtain ⟨-, rfl⟩ := hstep
    exact keyMove_emit (l := { l with appearedQueued := false }) hl.modern l.listener
  | handleSubscribes =>
    simp only [step, Option.ite_none_right_eq_some, Option.some.injEq] at hstep
    obtain ⟨-, rfl⟩ := hstep
    exact keyMove_handleSubscribes hS hkey hw hl.modern
  | newSubscribe k =>
    simp only [step, Option.ite_none_right_eq_some, Option.some.injEq] at hstep
    obtain ⟨-, rfl⟩ := hstep
    have hview := view_newSubscribe_of_not hS hkey hw (k := k) fun heq => hcall (heq ▸ rfl)
    exact hview ▸ .idle
  | subscribe k =>
    have hne : key ≠ k := fun heq => he (congrArg some heq.symm)
    obtain rfl := Option.some.inj hstep
    have hview := view_subscribe_of_ne (l := l) hne
    exact hview ▸ .idle
  | unsubscribe k =>
    have hne : key ≠ k := fun heq => he (congrArg some heq.symm)
    obtain rfl := Option.some.inj hstep
    exact (view_unsubscribe_of_ne hne).symm ▸ .idle
  | serviceRegistered =>
    simp only [step, Option.ite_none_right_eq_some] at hstep
    obtain ⟨-, hstep⟩ := hstep
    split_ifs at hstep with hr
    · cases hstep
      let l' : Link V :=
        { l with
          listener := l.listener.setServicePresent.1
          appearedAt := l.plugin.watchers.length }
      exact keyMove_emit (l := l') hl.modern l'.listener
    · cases hstep
      exact .idle
  | serviceUnregistered => exact keyMove_serviceUnregistered hstep
  | reply id value =>
    simp only [step, Option.ite_none_right_eq_some, Option.some.injEq] at hstep
    obtain ⟨-, rfl⟩ := hstep
    exact (view_finish key id value).symm ▸ .idle
  | blockUntilSubscribed k order value => exact absurd trivial hblock

/-- The notices about the provider's name address no key. -/
theorem keyMove_of_notice (hS : Set.InjOn keyToPath S) (hkey : key ∈ S) (hl : l.Linked)
    (hw : l.Within S) {m : Link V} {e : LinkEvent V}
    (he : e = .serviceRegistered ∨ e = .serviceUnregistered) (hstep : l.step e = some m) :
    KeyMove (l.view key) (m.view key) := by
  rcases he with rfl | rfl
  · exact keyMove_of_step hS hkey hl hw hstep (Option.some_ne_none key).symm
      (fun heq => by cases heq) not_false
  · exact keyMove_of_step hS hkey hl hw hstep (Option.some_ne_none key).symm
      (fun heq => by cases heq) not_false

/-! ### The keys in use -/

theorem Within.emit (hw : l.Within S) (h : l.plugin.Modern) (listener : DBusNameListener) :
    (l.emit (l.plugin.onProviderAppeared listener)).Within S := by
  rw [emit_eq h]
  split_ifs
  · rw [ContextKitPlugin.subscribe_of_newProtocol _ (by rfl)]
    refine ⟨hw.subscribedKeys, by simp, by simp, fun k hk => ?_⟩
    rcases Finset.mem_union.1 hk with hk | hk
    · exact hw.subscribedKeys k hk
    · exact hw.pendingKeys k hk
  · exact ⟨hw.subscribedKeys, hw.toSubscribe, hw.toUnsubscribe, hw.pendingKeys⟩

theorem Within.handleSubscribes (hw : l.Within S) (h : l.plugin.Modern) :
    (l.carryOut (l.provider.dequeue .handleSubscribes).handleSubscribes).Within S := by
  have hdequeue : (l.provider.dequeue .handleSubscribes).pluginState = l.provider.pluginState := rfl
  cases hs : l.provider.pluginState with
  | ready =>
    rw [carryOut_eq h (hdequeue.trans hs)]
    refine ⟨hw.subscribedKeys, by simp [Provider.clearSchedules],
      by simp [Provider.clearSchedules], fun k hk => ?_⟩
    have hsub := ContextKitPlugin.noted_subscribe h l.provider.toSubscribe
    have hunsub := ContextKitPlugin.noted_unsubscribe (hsub.modern h) l.provider.toUnsubscribe
    have hk : k ∈ l.provider.toSubscribe ∪ l.plugin.pendingKeys := by
      rwa [← (hsub.trans_empty hunsub).pendingKeys]
    exact (Finset.mem_union.1 hk).elim (hw.toSubscribe k) (hw.pendingKeys k)
  | failed =>
    rw [Provider.handleSubscribes_failed _ (hdequeue.trans hs)]
    exact ⟨hw.subscribedKeys, by simp [carryOut, Provider.clearSchedules],
      by simp [carryOut, Provider.clearSchedules], hw.pendingKeys⟩
  | initializing =>
    rw [Provider.handleSubscribes_initializing _ (hdequeue.trans hs)]
    exact ⟨hw.subscribedKeys, hw.toSubscribe, hw.toUnsubscribe, hw.pendingKeys⟩

theorem Within.newSubscribe (hw : l.Within S) (k : String) {p : ContextKitPlugin}
    (hp : p.pendingKeys = l.plugin.pendingKeys) :
    Within S { l with plugin := p.newSubscribe k } := by
  refine ⟨hw.subscribedKeys, hw.toSubscribe, hw.toUnsubscribe, fun j hj => ?_⟩
  rw [ContextKitPlugin.newSubscribe_pendingKeys, hp] at hj
  exact hw.pendingKeys j (Finset.mem_of_mem_erase hj)

theorem Within.congr (hw : l.Within S) {m : Link V} (h : ∀ k, m.view k = l.view k) :
    m.Within S := by
  simp only [view, KeyView.mk.injEq, decide_eq_decide] at h
  exact ⟨fun k hk => hw.subscribedKeys k ((h k).2.1.1 hk),
    fun k hk => hw.toSubscribe k ((h k).2.2.1.1 hk),
    fun k hk => hw.toUnsubscribe k ((h k).2.2.2.1.1 hk),
    fun k hk => hw.pendingKeys k ((h k).2.2.2.2.1.1 hk)⟩

theorem within_step (hw : l.Within S) (hl : l.Linked) {m : Link V} {e : LinkEvent V}
    (he : ∀ k, wish e = some k → k ∈ S) (hblock : ¬ Blocks e)
    (hstep : l.step e = some m) : m.Within S := by
  cases e with
  | constructPlugin =>
    simp only [step, Option.ite_none_right_eq_some, Option.some.injEq] at hstep
    obtain ⟨-, rfl⟩ := hstep
    refine hw.congr fun k => ?_
    unfold construct
    split_ifs <;> rfl
  | providerAppeared =>
    simp only [step, Option.ite_none_right_eq_some, Option.some.injEq] at hstep
    obtain ⟨-, rfl⟩ := hstep
    have hw' : Within S { l with appearedQueued := false } := hw.congr fun _ => rfl
    exact hw'.emit hl.modern l.listener
  | handleSubscribes =>
    simp only [step, Option.ite_none_right_eq_some, Option.some.injEq] at hstep
    obtain ⟨-, rfl⟩ := hstep
    exact hw.handleSubscribes hl.modern
  | newSubscribe k =>
    simp only [step, Option.ite_none_right_eq_some, Option.some.injEq] at hstep
    obtain ⟨-, rfl⟩ := hstep
    exact hw.newSubscribe k (p := { l.plugin with queued := l.plugin.queued.erase k }) rfl
  | subscribe k =>
    obtain rfl := Option.some.inj hstep
    have hk := he k rfl
    refine ⟨fun j hj => ?_, fun j hj => ?_, fun j hj => ?_, hw.pendingKeys⟩
    · rw [Provider.subscribe_subscribedKeys, Finset.mem_insert] at hj
      rcases hj with rfl | hj
      · exact hk
      · exact hw.subscribedKeys j hj
    · rw [Provider.mem_subscribe_toSubscribe] at hj
      rcases hj with hj | ⟨rfl, -⟩
      · exact hw.toSubscribe j hj
      · exact hk
    · rw [Provider.subscribe_toUnsubscribe] at hj
      exact hw.toUnsubscribe j (Finset.mem_of_mem_erase hj)
  | unsubscribe k =>
    obtain rfl := Option.some.inj hstep
    have hk := he k rfl
    refine ⟨fun j hj => ?_, fun j hj => ?_, fun j hj => ?_, hw.pendingKeys⟩
    · rw [Provider.unsubscribe_subscribedKeys] at hj
      exact hw.subscribedKeys j (Finset.mem_of_mem_erase hj)
    · rw [Provider.unsubscribe_toSubscribe] at hj
      exact hw.toSubscribe j (Finset.mem_of_mem_erase hj)
    · rw [Provider.mem_unsubscribe_toUnsubscribe] at hj
      rcases hj with hj | ⟨rfl, -⟩
      · exact hw.toUnsubscribe j hj
      · exact hk
  | serviceRegistered =>
    simp only [step, Option.ite_none_right_eq_some] at hstep
    obtain ⟨-, hstep⟩ := hstep
    split_ifs at hstep
    · cases hstep
      let l' : Link V :=
        { l with
          listener := l.listener.setServicePresent.1
          appearedAt := l.plugin.watchers.length }
      have hw' : l'.Within S := hw.congr fun _ => rfl
      exact hw'.emit hl.modern l'.listener
    · cases hstep
      exact hw.congr fun _ => rfl
  | serviceUnregistered =>
    simp only [step, Option.ite_none_right_eq_some] at hstep
    obtain ⟨-, hstep⟩ := hstep
    split_ifs at hstep
    · obtain rfl := Option.some.inj hstep
      rw [Provider.onPluginFailed, Provider.handleSubscribes_failed _ rfl]
      exact ⟨hw.subscribedKeys, by simp [carryOut, Provider.clearSchedules],
        by simp [carryOut, Provider.clearSchedules], hw.pendingKeys⟩
    · cases hstep
      exact hw.congr fun _ => rfl
  | reply id value =>
    simp only [step, Option.ite_none_right_eq_some, Option.some.injEq] at hstep
    obtain ⟨-, rfl⟩ := hstep
    exact hw.congr fun _ => view_finish _ id value
  | blockUntilSubscribed k order value => exact absurd trivial hblock

end

end Link

end ContextSubscriber
