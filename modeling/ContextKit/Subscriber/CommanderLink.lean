import ContextKit.Subscriber.Link

/-!
# The commander: a `Provider` over a plugin that starts with the old protocol

For the commander `defaultNewProtocol` is false.  Each time the provider is said to have appeared,
the plugin drops its subscriber object and asks the manager for a new one with `GetSubscriber`; with
the reply it becomes ready, unless the manager is an unknown object, and then it turns to the new
protocol for good.

The provider's state tells when the plugin may be called, but `onProviderAppeared` may also run
while the provider is ready: `Provider::blockUntilSubscribed` runs it each time, and so does the
name appearing.  From there to the next answer the subscriber object is a null pointer.
-/

namespace ContextSubscriber
open ContextKit Transition

/-- What may be wrong with a call of `GetSubscriber`. -/
inductive GetSubscriberError
  | unknownObject
  | other

/-- A link for the commander: how many calls of `GetSubscriber` are unanswered, the states of the
plugin in which its `subscribe` and `unsubscribe` were called, and whether `onProviderAppeared` has
run in the ready state since the last answer. -/
structure CommanderLink (V : Type) where
  link : Link V
  unanswered : ℕ
  calledOn : List ContextKitPlugin
  reasked : Bool

/-- What can happen.  Where `onProviderAppeared` may run, the call of `GetSubscriber` may be refused
at once. -/
inductive CommanderEvent (V : Type)
  | constructPlugin
  | providerAppeared (refused : Option GetSubscriberError)
  | getSubscriberFinished
  | getSubscriberFailed (err : GetSubscriberError)
  | handleSubscribes
  | newSubscribe (key : String)
  | subscribe (key : String)
  | unsubscribe (key : String)
  | serviceRegistered (refused : Option GetSubscriberError)
  | serviceUnregistered
  | reply (id : ℕ) (value : Option (TimedValue V))
  | blockUntilSubscribed (key : String) (order : List String) (value : Option (TimedValue V))
      (refused : Option GetSubscriberError)

namespace CommanderLink

variable {V : Type}

/-- A provider that has not constructed its plugin yet. -/
def init : CommanderLink V where
  link := { Link.init with plugin := { ContextKitPlugin.init with defaultNewProtocol := false } }
  unanswered := 0
  calledOn := []
  reasked := false

/-- The provider calls the plugin. -/
def call (c : CommanderLink V) (k : PluginCall String) : CommanderLink V :=
  { c with link := c.link.call k, calledOn := c.calledOn ++ [c.link.plugin] }

/-- A slot of the provider ran with this result. -/
def carryOut (c : CommanderLink V) (r : Provider String V × Outcome String) : CommanderLink V :=
  r.2.calls.foldl call { c with link := { c.link with provider := r.1 } }

/-- A slot of the plugin left it like this, and may have emitted `ready`. -/
def emit (c : CommanderLink V) (r : ContextKitPlugin × Bool) : CommanderLink V :=
  if r.2 then
    { c with link := { c.link with plugin := r.1 } }.carryOut c.link.provider.onPluginReady
  else { c with link := { c.link with plugin := r.1 } }

/-- `onDBusGetSubscriberFinished` -/
def onDBusGetSubscriberFinished (c : CommanderLink V) : CommanderLink V :=
  { c with reasked := false }.emit ({ c.link.plugin with subscriberInterface := some [] }, true)

/-- `onDBusGetSubscriberFailed` -/
def onDBusGetSubscriberFailed (c : CommanderLink V) : GetSubscriberError → CommanderLink V
  | .other => { c with reasked := false }.carryOut c.link.provider.onPluginFailed
  | .unknownObject =>
    { c with reasked := false }.emit
      ({ c.link.plugin with defaultNewProtocol := true }.reset.useNewProtocol c.link.listener)

/-- `onProviderAppeared` -/
def onProviderAppeared (c : CommanderLink V) (refused : Option GetSubscriberError) :
    CommanderLink V :=
  let r := c.link.plugin.onProviderAppeared c.link.listener
  if c.link.plugin.defaultNewProtocol then c.emit r
  else
    let asking : CommanderLink V := { c with
      link := { c.link with plugin := r.1 }
      reasked := decide (c.link.provider.pluginState = .ready) }
    match refused with
    | none => { asking with unanswered := c.unanswered + 1 }
    | some err => asking.onDBusGetSubscriberFailed err

/-- `onProviderDisappeared` -/
def onProviderDisappeared (c : CommanderLink V) : CommanderLink V :=
  { c with
    link := { c.link with plugin := c.link.plugin.onProviderDisappeared }
    reasked := false }.carryOut c.link.provider.onPluginFailed

/-- `Provider::blockUntilSubscribed` up to the point where the plugin has been told to be ready. -/
def blockUntilReady (c : CommanderLink V) (refused : Option GetSubscriberError) : CommanderLink V :=
  { c with link := c.link.construct }.onProviderAppeared refused

/-- One event. -/
def step (c : CommanderLink V) : CommanderEvent V → Option (CommanderLink V)
  | .constructPlugin => (c.link.step .constructPlugin).map fun l => { c with link := l }
  | .providerAppeared refused =>
    if c.link.appearedQueued then
      some ({ c with link := { c.link with appearedQueued := false } }.onProviderAppeared refused)
    else none
  | .getSubscriberFinished =>
    if 0 < c.unanswered then
      some { c with unanswered := c.unanswered - 1 }.onDBusGetSubscriberFinished
    else none
  | .getSubscriberFailed err =>
    if 0 < c.unanswered then
      some ({ c with unanswered := c.unanswered - 1 }.onDBusGetSubscriberFailed err)
    else none
  | .handleSubscribes =>
    if .handleSubscribes ∈ c.link.provider.callQueue then
      some (c.carryOut (c.link.provider.dequeue .handleSubscribes).handleSubscribes)
    else none
  | .newSubscribe key => (c.link.step (.newSubscribe key)).map fun l => { c with link := l }
  | .subscribe key => (c.link.step (.subscribe key)).map fun l => { c with link := l }
  | .unsubscribe key => (c.link.step (.unsubscribe key)).map fun l => { c with link := l }
  | .serviceRegistered refused =>
    if c.link.provider.pluginConstructed then
      let r := c.link.listener.setServicePresent
      let c := { c with link := { c.link with listener := r.1 } }
      if r.2 then some (c.onProviderAppeared refused) else some c
    else none
  | .serviceUnregistered =>
    if c.link.provider.pluginConstructed then
      let r := c.link.listener.setServiceGone
      let c := { c with link := { c.link with listener := r.1 } }
      if r.2 then some c.onProviderDisappeared else some c
    else none
  | .reply id value => (c.link.step (.reply id value)).map fun l => { c with link := l }
  | .blockUntilSubscribed key order value refused =>
    let c := c.blockUntilReady refused
    if c.link.provider.pluginState = .ready then
      if order.Nodup ∧ order.toFinset = c.link.plugin.pendingKeys then
        some { c with link := c.link.waitFor key order value }
      else none
    else some c

end CommanderLink

/-- The old protocol, without a subscriber object. -/
def ContextKitPlugin.NullSubscriber (p : ContextKitPlugin) : Prop :=
  p.newProtocol = false ∧ p.subscriberInterface = none

/-- A `handleSubscribes` with something to pass on runs in the ready state while the subscriber
object that was asked for again has not been answered for. -/
def CommanderLink.HandlesReasking {V : Type} (c : CommanderLink V) (e : CommanderEvent V) : Prop :=
  e = .handleSubscribes ∧ c.link.provider.pluginState = .ready ∧
    (c.link.provider.toSubscribe.Nonempty ∨ c.link.provider.toUnsubscribe.Nonempty) ∧
    c.reasked = true

/-! ### What the slots do to the protocol -/

namespace ContextKitPlugin

/-- The two plugins speak the same protocol, and both or neither have a subscriber object. -/
structure SameProtocol (p q : ContextKitPlugin) : Prop where
  defaultNewProtocol : q.defaultNewProtocol = p.defaultNewProtocol
  newProtocol : q.newProtocol = p.newProtocol
  subscriberInterface : q.subscriberInterface = none ↔ p.subscriberInterface = none

theorem SameProtocol.refl (p : ContextKitPlugin) : p.SameProtocol p := ⟨rfl, rfl, Iff.rfl⟩

theorem SameProtocol.trans {p q r : ContextKitPlugin} (h : p.SameProtocol q)
    (h' : q.SameProtocol r) : p.SameProtocol r :=
  ⟨h'.defaultNewProtocol.trans h.defaultNewProtocol, h'.newProtocol.trans h.newProtocol,
    h'.subscriberInterface.trans h.subscriberInterface⟩

theorem SameProtocol.nullSubscriber_iff {p q : ContextKitPlugin} (h : p.SameProtocol q) :
    q.NullSubscriber ↔ p.NullSubscriber := by
  rw [NullSubscriber, NullSubscriber, h.newProtocol, h.subscriberInterface]

theorem sameProtocol_subscribe (p : ContextKitPlugin) (keys : Finset String) :
    p.SameProtocol (p.subscribe keys) := by
  by_cases h : p.newProtocol = true
  · rw [p.subscribe_of_newProtocol h]
    exact ⟨rfl, rfl, Iff.rfl⟩
  · rw [subscribe, if_neg h]
    exact ⟨rfl, rfl, Option.map_eq_none_iff⟩

theorem sameProtocol_unsubscribe (p : ContextKitPlugin) (keys : Finset String) :
    p.SameProtocol (p.unsubscribe keys) := by
  by_cases h : p.newProtocol = true
  · rw [p.unsubscribe_of_newProtocol h]
    exact ⟨rfl, rfl, Iff.rfl⟩
  · rw [unsubscribe, if_neg h]
    exact ⟨rfl, rfl, Option.map_eq_none_iff⟩

theorem sameProtocol_newSubscribe (p : ContextKitPlugin) (key : String) :
    p.SameProtocol (p.newSubscribe key) := by
  unfold newSubscribe
  split_ifs <;> exact ⟨rfl, rfl, Iff.rfl⟩

theorem sameProtocol_onFinished (p : ContextKitPlugin) (id : ℕ) :
    p.SameProtocol (p.onFinished id) := by
  rw [p.onFinished_eq]
  exact ⟨rfl, rfl, Iff.rfl⟩

theorem sameProtocol_flush (p : ContextKitPlugin) (order : List String) :
    p.SameProtocol (p.flush order) := by
  have hloop : ∀ p : ContextKitPlugin, p.SameProtocol (order.foldl newSubscribe p) := by
    induction order with
    | nil => exact .refl
    | cons key order ih => exact fun p => (p.sameProtocol_newSubscribe key).trans (ih _)
  unfold flush
  split_ifs
  · exact hloop p
  · exact .refl p

end ContextKitPlugin

/-! ### The provider's state and the subscriber object -/

namespace CommanderLink

variable {V : Type}

/-- The plugin turns to the new protocol for good; and while the provider is ready on the old one,
the subscriber object is missing exactly if it was asked for again. -/
structure Inv (c : CommanderLink V) : Prop where
  modern : c.link.plugin.defaultNewProtocol = true → c.link.plugin.newProtocol = true
  old : c.reasked = true → c.link.plugin.newProtocol = false
  missing : c.link.provider.pluginState = .ready → c.link.plugin.newProtocol = false →
    (c.link.plugin.subscriberInterface = none ↔ c.reasked = true)

theorem Inv.reasked_iff {c : CommanderLink V} (h : c.Inv)
    (hr : c.link.provider.pluginState = .ready) :
    c.link.plugin.NullSubscriber ↔ c.reasked = true :=
  ⟨fun hn => (h.missing hr hn.1).1 hn.2, fun hn => ⟨h.old hn, (h.missing hr (h.old hn)).2 hn⟩⟩

/-- Only calls with a subscriber object, or on the new protocol, were made from `c` to `d`. -/
def Safe (c d : CommanderLink V) : Prop :=
  ∃ new, d.calledOn = c.calledOn ++ new ∧ ∀ p ∈ new, ¬ p.NullSubscriber

theorem Safe.refl (c : CommanderLink V) : c.Safe c := ⟨[], by simp, by simp⟩

/-- The calls are all made on the plugin as it was, and change nothing about the protocol. -/
theorem foldl_call (calls : List (PluginCall String)) (c : CommanderLink V) :
    ∃ new, (calls.foldl call c).calledOn = c.calledOn ++ new ∧ new.length = calls.length ∧
      (∀ p ∈ new, c.link.plugin.SameProtocol p) ∧
      c.link.plugin.SameProtocol (calls.foldl call c).link.plugin ∧
      (calls.foldl call c).link.provider = c.link.provider ∧
      (calls.foldl call c).reasked = c.reasked := by
  induction calls generalizing c with
  | nil => exact ⟨[], by simp, rfl, by simp, .refl _, rfl, rfl⟩
  | cons k calls ih =>
    have hcall : c.link.plugin.SameProtocol (c.call k).link.plugin ∧
        (c.call k).link.provider = c.link.provider := by
      cases k with
      | subscribe keys => exact ⟨ContextKitPlugin.sameProtocol_subscribe _ _, rfl⟩
      | unsubscribe keys => exact ⟨ContextKitPlugin.sameProtocol_unsubscribe _ _, rfl⟩
    obtain ⟨new, hnew, hlen, hsame, hplugin, hprovider, hreasked⟩ := ih (c.call k)
    refine ⟨c.link.plugin :: new, ?_, by simp [hlen], ?_, hcall.1.trans hplugin,
      hprovider.trans hcall.2, hreasked⟩
    · rw [List.foldl_cons, hnew]
      show (c.calledOn ++ [c.link.plugin]) ++ new = _
      rw [List.append_assoc, List.singleton_append]
    · rw [List.forall_mem_cons]
      exact ⟨.refl _, fun p hp => hcall.1.trans (hsame p hp)⟩

/-- A slot of the provider that leaves it ready with nothing to fear. -/
theorem carryOut_safe {c : CommanderLink V} {r : Provider String V × Outcome String}
    (hp : ¬ c.link.plugin.NullSubscriber)
    (hm : c.link.plugin.defaultNewProtocol = true → c.link.plugin.newProtocol = true)
    (hr : c.reasked = false) : (c.carryOut r).Inv ∧ c.Safe (c.carryOut r) := by
  obtain ⟨new, hnew, -, hsame, hplugin, -, hreasked⟩ :=
    foldl_call r.2.calls { c with link := { c.link with provider := r.1 } }
  have hno : ¬ (c.carryOut r).link.plugin.NullSubscriber := mt hplugin.nullSubscriber_iff.1 hp
  have hfalse : (c.carryOut r).reasked = false := hreasked.trans hr
  refine ⟨⟨fun h => ?_, fun h => ?_, fun _ hold => ?_⟩, new, hnew,
    fun p h => mt (hsame p h).nullSubscriber_iff.1 hp⟩
  · exact hplugin.newProtocol.trans (hm (hplugin.defaultNewProtocol.symm.trans h))
  · rw [hfalse] at h
    cases h
  · exact iff_of_false (fun hnone => hno ⟨hold, hnone⟩) (by rw [hfalse]; decide)

theorem emit_safe {c : CommanderLink V} {r : ContextKitPlugin × Bool} (hp : ¬ r.1.NullSubscriber)
    (hm : r.1.defaultNewProtocol = true → r.1.newProtocol = true) (hr : c.reasked = false) :
    (c.emit r).Inv ∧ c.Safe (c.emit r) := by
  unfold emit
  split_ifs with hready
  · exact carryOut_safe hp hm hr
  · refine ⟨⟨hm, fun h => ?_, fun _ hold => ?_⟩, .refl c⟩
    · exact absurd (hr.symm.trans h) (by decide)
    · exact iff_of_false (fun hnone => hp ⟨hold, hnone⟩) (by rw [hr]; decide)

/-- After a failure nothing is called, whatever the subscriber object is. -/
theorem failed_safe {c : CommanderLink V}
    (hm : c.link.plugin.defaultNewProtocol = true → c.link.plugin.newProtocol = true)
    (hr : c.reasked = false) :
    (c.carryOut c.link.provider.onPluginFailed).Inv ∧
      c.Safe (c.carryOut c.link.provider.onPluginFailed) := by
  have hout : c.link.provider.onPluginFailed.2.calls = [] := by
    rw [Provider.onPluginFailed, Provider.handleSubscribes_failed _ rfl]
  have hstate : c.link.provider.onPluginFailed.1.pluginState = .failed := by
    rw [Provider.onPluginFailed, Provider.handleSubscribes_failed _ rfl]
    rfl
  unfold carryOut
  rw [hout, List.foldl_nil]
  refine ⟨⟨hm, fun h => ?_, fun h => ?_⟩, .refl c⟩
  · exact absurd (hr.symm.trans h) (by decide)
  · exact absurd (hstate.symm.trans h) (by decide)

theorem getSubscriberFailed_safe {c : CommanderLink V} (err : GetSubscriberError)
    (hm : c.link.plugin.defaultNewProtocol = true → c.link.plugin.newProtocol = true) :
    (c.onDBusGetSubscriberFailed err).Inv ∧ c.Safe (c.onDBusGetSubscriberFailed err) := by
  cases err with
  | other => exact failed_safe (c := { c with reasked := false }) hm rfl
  | unknownObject =>
    -- The new protocol is spoken from now on.
    exact emit_safe (c := { c with reasked := false }) (fun h => Bool.noConfusion h.1)
      (fun _ => rfl) rfl

theorem getSubscriberFinished_safe {c : CommanderLink V}
    (hm : c.link.plugin.defaultNewProtocol = true → c.link.plugin.newProtocol = true) :
    c.onDBusGetSubscriberFinished.Inv ∧ c.Safe c.onDBusGetSubscriberFinished :=
  emit_safe (c := { c with reasked := false }) (fun h => absurd h.2 (Option.some_ne_none _)) hm rfl

theorem providerAppeared_safe {c : CommanderLink V} (h : c.Inv)
    (refused : Option GetSubscriberError) :
    (c.onProviderAppeared refused).Inv ∧ c.Safe (c.onProviderAppeared refused) := by
  unfold onProviderAppeared
  by_cases hd : c.link.plugin.defaultNewProtocol = true
  · have hreasked : c.reasked = false := by
      by_contra hr
      have hold := h.old (by simpa using hr)
      exact absurd ((h.modern hd).symm.trans hold) (by decide)
    have hr : c.link.plugin.onProviderAppeared c.link.listener =
        c.link.plugin.reset.useNewProtocol c.link.listener := if_pos hd
    dsimp only
    rw [if_pos hd, hr]
    exact emit_safe (fun hn => Bool.noConfusion hn.1) (fun _ => rfl) hreasked
  · have hr : c.link.plugin.onProviderAppeared c.link.listener =
        ({ c.link.plugin.reset with managerInterface := true }, false) := if_neg hd
    have hfalse : c.link.plugin.defaultNewProtocol = false := by simpa using hd
    dsimp only
    rw [if_neg hd, hr]
    cases refused with
    | none =>
      refine ⟨⟨fun hd' => absurd hd' hd, fun _ => hfalse, fun hready _ => ?_⟩, .refl c⟩
      exact iff_of_true rfl (decide_eq_true hready)
    | some err => exact getSubscriberFailed_safe err fun hd' => absurd hd' hd

theorem providerDisappeared_safe {c : CommanderLink V} :
    c.onProviderDisappeared.Inv ∧ c.Safe c.onProviderDisappeared :=
  failed_safe (c := { c with
    link := { c.link with plugin := c.link.plugin.onProviderDisappeared }
    reasked := false }) id rfl

/-- Changing the link without touching the protocol, and the provider's state, is safe. -/
theorem Inv.of_sameProtocol {c : CommanderLink V} (h : c.Inv) {l : Link V}
    (hplugin : c.link.plugin.SameProtocol l.plugin)
    (hstate : l.provider.pluginState = c.link.provider.pluginState) :
    ({ c with link := l } : CommanderLink V).Inv where
  modern hd := hplugin.newProtocol.trans (h.modern (hplugin.defaultNewProtocol.symm.trans hd))
  old hr := hplugin.newProtocol.trans (h.old hr)
  missing hready hold :=
    hplugin.subscriberInterface.trans
      (h.missing (hstate.symm.trans hready) (hplugin.newProtocol.symm.trans hold))

theorem finish_sameProtocol (l : Link V) (id : ℕ) (value : Option (TimedValue V)) :
    l.plugin.SameProtocol (l.finish id value).plugin ∧
      (l.finish id value).provider.pluginState = l.provider.pluginState := by
  refine ⟨ContextKitPlugin.sameProtocol_onFinished _ id, ?_⟩
  unfold Link.finish
  dsimp only
  split
  · rename_i key v _ _
    unfold Provider.onPluginValueChanged
    split_ifs <;> rfl
  · rfl

theorem waitFor_sameProtocol (l : Link V) (key : String) (order : List String)
    (value : Option (TimedValue V)) :
    l.plugin.SameProtocol (l.waitFor key order value).plugin ∧
      (l.waitFor key order value).provider.pluginState = l.provider.pluginState := by
  have hflush := l.plugin.sameProtocol_flush order
  unfold Link.waitFor
  dsimp only
  cases (l.plugin.flush order).pendingWatchers key with
  | none => exact ⟨hflush, rfl⟩
  | some id =>
    have h := finish_sameProtocol { l with plugin := l.plugin.flush order } id value
    exact ⟨hflush.trans h.1, h.2⟩

theorem construct_sameProtocol (l : Link V) :
    l.plugin.SameProtocol l.construct.plugin ∧
      l.construct.provider.pluginState = l.provider.pluginState := by
  unfold Link.construct
  split_ifs <;> exact ⟨.refl _, rfl⟩

/-- The events that are those of the link: they touch neither the protocol nor the state. -/
theorem link_sameProtocol {l m : Link V} {e : LinkEvent V} (h : l.step e = some m)
    (he : e = .constructPlugin ∨ (∃ key, e = .newSubscribe key) ∨ (∃ key, e = .subscribe key) ∨
      (∃ key, e = .unsubscribe key) ∨ ∃ id value, e = .reply id value) :
    l.plugin.SameProtocol m.plugin ∧ m.provider.pluginState = l.provider.pluginState := by
  rcases he with rfl | ⟨key, rfl⟩ | ⟨key, rfl⟩ | ⟨key, rfl⟩ | ⟨id, value, rfl⟩
  · obtain ⟨-, rfl⟩ := Option.ite_some_none_eq_some.1 h
    exact construct_sameProtocol { l with provider := l.provider.dequeue .constructPlugin }
  · obtain ⟨-, rfl⟩ := Option.ite_some_none_eq_some.1 h
    have hnew := ContextKitPlugin.sameProtocol_newSubscribe
      { l.plugin with queued := l.plugin.queued.erase key } key
    exact ⟨⟨hnew.defaultNewProtocol, hnew.newProtocol, hnew.subscriberInterface⟩, rfl⟩
  · obtain rfl := Option.some.inj h
    exact ⟨.refl _, Provider.subscribe_pluginState _ _⟩
  · obtain rfl := Option.some.inj h
    exact ⟨.refl _, Provider.unsubscribe_pluginState _ _⟩
  · obtain ⟨-, rfl⟩ := Option.ite_some_none_eq_some.1 h
    exact finish_sameProtocol l id value

/-- The calls that `handleSubscribes` makes. -/
theorem handleSubscribes_calls {c d : CommanderLink V} (h : c.Inv)
    (hstep : c.step .handleSubscribes = some d) :
    d.Inv ∧ ∃ new, d.calledOn = c.calledOn ++ new ∧
      ((∀ p ∈ new, ¬ p.NullSubscriber) ↔ ¬ c.HandlesReasking .handleSubscribes) := by
  obtain ⟨-, rfl⟩ := Option.ite_some_none_eq_some.1 hstep
  let p := c.link.provider.dequeue .handleSubscribes
  obtain ⟨new, hnew, hlen, hsame, hplugin, hprovider, hreasked⟩ :=
    foldl_call p.handleSubscribes.2.calls
      { c with link := { c.link with provider := p.handleSubscribes.1 } }
  have hstate : p.handleSubscribes.1.pluginState = c.link.provider.pluginState :=
    p.handleSubscribes_pluginState
  have hinv : (c.carryOut p.handleSubscribes).Inv := by
    refine ⟨fun hd => ?_, fun hr => ?_, fun hready hold => ?_⟩
    · exact hplugin.newProtocol.trans (h.modern (hplugin.defaultNewProtocol.symm.trans hd))
    · exact hplugin.newProtocol.trans (h.old (hreasked.symm.trans hr))
    · have hready' : c.link.provider.pluginState = .ready := by
        rw [← hstate, ← hready]
        exact congrArg Provider.pluginState hprovider.symm
      rw [show (c.carryOut p.handleSubscribes).reasked = c.reasked from hreasked]
      exact hplugin.subscriberInterface.trans
        (h.missing hready' (hplugin.newProtocol.symm.trans hold))
  refine ⟨hinv, new, hnew, ?_⟩
  have hcalls : p.handleSubscribes.2.calls ≠ [] ↔ c.link.provider.pluginState = .ready ∧
      (c.link.provider.toSubscribe.Nonempty ∨ c.link.provider.toUnsubscribe.Nonempty) :=
    p.handleSubscribes_calls_ne_nil
  constructor
  · -- A call that was made while the object is missing is one on a null pointer.
    rintro hsafe ⟨-, hready, hkeys, hr⟩
    have hpos : new ≠ [] := by
      have hcalls := hcalls.2 ⟨hready, hkeys⟩
      exact fun hnil => hcalls (List.length_eq_zero_iff.1 (by rw [← hlen, hnil]; rfl))
    obtain ⟨q, hq⟩ := List.exists_mem_of_ne_nil new hpos
    exact hsafe q hq ((hsame q hq).nullSubscriber_iff.2 ((h.reasked_iff hready).2 hr))
  · intro hno q hq hnull
    have hcalls := hcalls.1 fun hnil => by
      rw [hnil, List.length_nil, List.length_eq_zero_iff] at hlen
      rw [hlen] at hq
      cases hq
    exact hno ⟨rfl, hcalls.1, hcalls.2,
      (h.reasked_iff hcalls.1).1 ((hsame q hq).nullSubscriber_iff.1 hnull)⟩

/-- **One event**: the invariant is kept, and a null pointer is called exactly by a
`handleSubscribes` that meets the missing subscriber object. -/
theorem step_calls {c d : CommanderLink V} {e : CommanderEvent V} (h : c.Inv)
    (hstep : c.step e = some d) :
    d.Inv ∧ ∃ new, d.calledOn = c.calledOn ++ new ∧
      ((∀ p ∈ new, ¬ p.NullSubscriber) ↔ ¬ c.HandlesReasking e) := by
  by_cases he : e = .handleSubscribes
  · subst he
    exact handleSubscribes_calls h hstep
  have hsafe : d.Inv ∧ c.Safe d → d.Inv ∧ ∃ new, d.calledOn = c.calledOn ++ new ∧
      ((∀ p ∈ new, ¬ p.NullSubscriber) ↔ ¬ c.HandlesReasking e) :=
    fun ⟨hinv, new, hnew, hno⟩ => ⟨hinv, new, hnew, iff_of_true hno fun hh => he hh.1⟩
  have hlink : ∀ {l : Link V} {le : LinkEvent V}, c.link.step le = some l →
      (le = .constructPlugin ∨ (∃ key, le = .newSubscribe key) ∨ (∃ key, le = .subscribe key) ∨
        (∃ key, le = .unsubscribe key) ∨ ∃ id value, le = .reply id value) →
      ({ c with link := l } : CommanderLink V).Inv ∧ c.Safe { c with link := l } :=
    fun hl hle => ⟨h.of_sameProtocol (link_sameProtocol hl hle).1 (link_sameProtocol hl hle).2,
      [], by simp, by simp⟩
  apply hsafe
  cases e with
  | constructPlugin =>
    obtain ⟨l, hl, rfl⟩ := Option.map_eq_some_iff.1 hstep
    exact hlink hl (Or.inl rfl)
  | providerAppeared refused =>
    obtain ⟨-, rfl⟩ := Option.ite_some_none_eq_some.1 hstep
    exact providerAppeared_safe
      (h.of_sameProtocol (l := { c.link with appearedQueued := false }) (.refl _) rfl) refused
  | getSubscriberFinished =>
    obtain ⟨-, rfl⟩ := Option.ite_some_none_eq_some.1 hstep
    exact getSubscriberFinished_safe (c := { c with unanswered := c.unanswered - 1 }) h.modern
  | getSubscriberFailed err =>
    obtain ⟨-, rfl⟩ := Option.ite_some_none_eq_some.1 hstep
    exact getSubscriberFailed_safe (c := { c with unanswered := c.unanswered - 1 }) err h.modern
  | handleSubscribes => exact absurd rfl he
  | newSubscribe key =>
    obtain ⟨l, hl, rfl⟩ := Option.map_eq_some_iff.1 hstep
    exact hlink hl (Or.inr (Or.inl ⟨key, rfl⟩))
  | subscribe key =>
    have hmap : (c.link.step (.subscribe key)).map (fun l => { c with link := l }) = some d := hstep
    obtain ⟨l, hl, rfl⟩ := Option.map_eq_some_iff.1 hmap
    exact hlink hl (Or.inr (Or.inr (Or.inl ⟨key, rfl⟩)))
  | unsubscribe key =>
    have hmap : (c.link.step (.unsubscribe key)).map (fun l => { c with link := l }) = some d :=
      hstep
    obtain ⟨l, hl, rfl⟩ := Option.map_eq_some_iff.1 hmap
    exact hlink hl (Or.inr (Or.inr (Or.inr (Or.inl ⟨key, rfl⟩))))
  | serviceRegistered refused =>
    obtain ⟨-, hstep⟩ := Option.ite_none_right_eq_some.1 hstep
    have hlistener := h.of_sameProtocol (l := { c.link with
      listener := c.link.listener.setServicePresent.1 }) (.refl _) rfl
    split_ifs at hstep with hr
    · obtain rfl := Option.some.inj hstep
      exact providerAppeared_safe hlistener refused
    · obtain rfl := Option.some.inj hstep
      exact ⟨h.of_sameProtocol (.refl _) rfl, [], by simp, by simp⟩
  | serviceUnregistered =>
    obtain ⟨-, hstep⟩ := Option.ite_none_right_eq_some.1 hstep
    split_ifs at hstep with hr
    · obtain rfl := Option.some.inj hstep
      exact providerDisappeared_safe
    · obtain rfl := Option.some.inj hstep
      exact ⟨h.of_sameProtocol (.refl _) rfl, [], by simp, by simp⟩
  | reply id value =>
    obtain ⟨l, hl, rfl⟩ := Option.map_eq_some_iff.1 hstep
    exact hlink hl (Or.inr (Or.inr (Or.inr (Or.inr ⟨id, value, rfl⟩))))
  | blockUntilSubscribed key order value refused =>
    have hconstruct := construct_sameProtocol c.link
    obtain ⟨hinv, new, hnew, hno⟩ := providerAppeared_safe
      (h.of_sameProtocol hconstruct.1 hconstruct.2) refused
    simp only [step] at hstep
    split_ifs at hstep with hready horder
    · obtain rfl := Option.some.inj hstep
      have hwait := waitFor_sameProtocol (c.blockUntilReady refused).link key order value
      exact ⟨Inv.of_sameProtocol hinv hwait.1 hwait.2, new, hnew, hno⟩
    · obtain rfl := Option.some.inj hstep
      exact ⟨hinv, new, hnew, hno⟩

/-- A run from a state that satisfies the invariant. -/
theorem run_calls {c d : CommanderLink V} {es : List (CommanderEvent V)} (h : c.Inv)
    (hrun : run step c es = some d) :
    ∃ new, d.calledOn = c.calledOn ++ new ∧
      ((∀ p ∈ new, ¬ p.NullSubscriber) ↔ Along step (fun c e => ¬ c.HandlesReasking e) c es) := by
  induction es generalizing c with
  | nil =>
    cases hrun
    exact ⟨[], by simp, iff_of_true (by simp) trivial⟩
  | cons e es ih =>
    obtain ⟨u, hu, hrun⟩ := run_cons_eq_some.1 hrun
    obtain ⟨hinv, new, hnew, hiff⟩ := step_calls h hu
    obtain ⟨rest, hrest, hiff'⟩ := ih hinv hrun
    refine ⟨new ++ rest, by rw [hrest, hnew, List.append_assoc], ?_⟩
    rw [List.forall_mem_append, hiff, hiff']
    refine ⟨fun hno => .cons hno.1 hu hno.2, fun hno => ⟨hno.1, hno.2 u hu⟩⟩

end CommanderLink

/-- **When the old protocol has its subscriber object.**  In every run, the plugin's `subscribe` and
`unsubscribe` are called on the old protocol only with a subscriber object, exactly if no
`handleSubscribes` passes keys on in the ready state between an `onProviderAppeared` that ran in
that state and the next answer. -/
theorem subscriberInterface_iff {V : Type} {es : List (CommanderEvent V)} {c : CommanderLink V}
    (hrun : run CommanderLink.step CommanderLink.init es = some c) :
    (∀ p ∈ c.calledOn, p.newProtocol = false → p.subscriberInterface ≠ none) ↔
      Along CommanderLink.step (fun (c : CommanderLink V) e => ¬ c.HandlesReasking e)
        CommanderLink.init es := by
  have h0 : (CommanderLink.init : CommanderLink V).Inv :=
    ⟨fun h => Bool.noConfusion h, fun h => Bool.noConfusion h, fun h => PluginState.noConfusion h⟩
  obtain ⟨new, hnew, hiff⟩ := CommanderLink.run_calls h0 hrun
  rw [← hiff, show c.calledOn = new from hnew]
  exact forall₂_congr fun p _ => not_and.symm

/-- A key is subscribed once the commander is ready. -/
def subscribedCommander : List (CommanderEvent (Option ℤ)) :=
  [.constructPlugin, .providerAppeared none, .getSubscriberFinished, .subscribe "Screen.TopEdge"]

theorem subscriberInterface_iff_subscribed :
    ∃ c, run CommanderLink.step CommanderLink.init (subscribedCommander ++ [.handleSubscribes]) =
        some c ∧
      ((∀ p ∈ c.calledOn, p.newProtocol = false → p.subscriberInterface ≠ none) ↔
        Along CommanderLink.step (fun c e => ¬ c.HandlesReasking e) CommanderLink.init
          (subscribedCommander ++ [.handleSubscribes])) :=
  ⟨_, rfl, subscriberInterface_iff rfl⟩

/-- Somebody waits for the subscription before the main loop has run: the subscriber object is
dropped, and the call that was scheduled finds a null pointer. -/
theorem exists_null_called :
    ∃ c, run CommanderLink.step CommanderLink.init (subscribedCommander ++
        [.blockUntilSubscribed "Screen.TopEdge" [] none none, .handleSubscribes]) = some c ∧
      ∃ p ∈ c.calledOn, p.newProtocol = false ∧ p.subscriberInterface = none :=
  ⟨_, rfl, _, List.mem_singleton_self _, rfl, rfl⟩

end ContextSubscriber
