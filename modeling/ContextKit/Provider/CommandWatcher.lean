import ContextKit.Provider.PropertyAdaptor
import ContextKit.Subscriber.ContextProperty
import ContextKit.Subscriber.World

/-!
# `CommandWatcher`: the commander and its proxies

The commander offers every provided key itself.  A `PropertyProxy` passes the value of the real
provider, which its `subscriber` follows, on to the property of the key, unless the user of the
commander has added the key and so overrides it.  The subscriber is to be subscribed while the
property has clients, and the proxy learns that from the signals about the first and the last one.
A value is passed on when the handle's differs from the copy of the subscriber, so what the property
has is alike the value of the handle.

Properties outlive their proxies.  A change of the registry deletes all proxies and creates new
ones, which start unsubscribed and with no value: `proxiesOn_iff` says that they take up the work of
the old ones exactly if no client is there and the handle of the subscriber has no value.

The commander ignores itself, so its handles lead to the real providers.  Those change the value of
a handle only while it is subscribed (`World.myValue_of_unsubscribed`).
-/

namespace ContextProvide
open ContextKit Transition ContextProvider ContextSubscriber

/-- The fields of `PropertyProxy`.  The property itself is found by its key. -/
structure PropertyProxy (V : Type) where
  enabled : Bool
  value : V
  subscriber : ContextProperty V

/-- All that the commander has for one key: the `PropertyPrivate` with its adaptor, once there is
one; whether the key is in `properties`; its entry in `proxies`; and the handle. -/
structure CommandedKey (C P V : Type) where
  adaptor : Option (PropertyAdaptor C V)
  added : Bool
  proxy : Option (PropertyProxy V)
  handle : PropertyHandle P V

namespace CommandedKey

variable {C P V : Type} [QVariant V]

def init : CommandedKey C P V := ⟨none, false, none, PropertyHandle.init⟩

/-- `Property::init` -/
def createProperty (k : CommandedKey C P V) (now : ℕ) : CommandedKey C P V :=
  { k with adaptor := some (k.adaptor.getD (.init now)) }

/-- `Property::setValue` -/
def setValue (k : CommandedKey C P V) (v : V) (now : ℕ) : CommandedKey C P V :=
  { k with adaptor := k.adaptor.map (PropertyAdaptor.setValue · v now) }

/-- `PropertyProxy::enable` -/
def enable (k : CommandedKey C P V) (enable : Bool) (now : ℕ) : CommandedKey C P V :=
  match k.proxy with
  | none => k
  | some p =>
    let k := { k with proxy := some { p with enabled := enable } }
    if enable then k.setValue p.value now else k

/-- `PropertyProxy::onFirstSubscriber` -/
def onFirstSubscriber (k : CommandedKey C P V) : CommandedKey C P V :=
  match k.proxy with
  | none => k
  | some p =>
    let r := p.subscriber.subscribe k.handle
    { k with proxy := some { p with subscriber := r.1 }, handle := r.2 }

/-- `PropertyProxy::onLastSubscriber` -/
def onLastSubscriber (k : CommandedKey C P V) : CommandedKey C P V :=
  match k.proxy with
  | none => k
  | some p =>
    let r := p.subscriber.unsubscribe k.handle
    { k with proxy := some { p with subscriber := r.1 }, handle := r.2 }

/-- `PropertyProxy::onValueChanged` -/
def onValueChanged (k : CommandedKey C P V) (now : ℕ) : CommandedKey C P V :=
  match k.proxy with
  | none => k
  | some p =>
    let value := k.handle.myValue
    let k := { k with proxy := some { p with value := value } }
    if p.enabled then k.setValue value now else k

/-- The constructor of `PropertyProxy`. -/
def createProxy (k : CommandedKey C P V) (enabled : Bool) (now : ℕ) : CommandedKey C P V :=
  let k := k.createProperty now
  let r := ContextProperty.init.subscribe k.handle
  let r := r.1.unsubscribe r.2
  enable { k with proxy := some ⟨enabled, QVariant.invalid, r.1⟩, handle := r.2 } enabled now

/-- A proxy is deleted, and its subscriber with it. -/
def deleteProxy (k : CommandedKey C P V) : CommandedKey C P V :=
  match k.proxy with
  | none => k
  | some p => { k with proxy := none, handle := (p.subscriber.unsubscribe k.handle).2 }

/-- What `onRegistryChanged` does to a key. -/
def onRegistryChanged (k : CommandedKey C P V) (provided : Bool) (now : ℕ) : CommandedKey C P V :=
  let k := k.deleteProxy
  if provided then k.createProxy (!k.added) now else k

/-- `addCommand`, with the value to set unless it could not be parsed; no value given is the invalid
one. -/
def add (k : CommandedKey C P V) (value : Option V) (now : ℕ) : CommandedKey C P V :=
  let k := if k.added then k else { k.createProperty now with added := true }.enable false now
  match value with
  | none => k
  | some v => k.setValue v now

/-- `setCommand`, and `unsetCommand` with the invalid value. -/
def set (k : CommandedKey C P V) (v : V) (now : ℕ) : CommandedKey C P V :=
  if k.added then k.setValue v now else k

/-- `delCommand` -/
def del (k : CommandedKey C P V) (now : ℕ) : CommandedKey C P V :=
  { k with added := false }.enable true now

/-- Something happens at the property on the bus, and the proxy hears of the subscription. -/
def perform [DecidableEq C] (k : CommandedKey C P V) (e : AdaptorEvent C V) : CommandedKey C P V :=
  match k.adaptor with
  | none => k
  | some a =>
    let r := a.perform e
    let k := { k with adaptor := some r.1 }
    match r.2 with
    | none => k
    | some .firstSubscriberAppeared => k.onFirstSubscriber
    | some .lastSubscriberDisappeared => k.onLastSubscriber

/-- The handle is given a value. -/
def changeValue (k : CommandedKey C P V) (newValue : V) : CommandedKey C P V :=
  let r := k.handle.changeValue newValue
  { k with
    handle := r.1
    proxy := k.proxy.map fun p =>
      if r.2 then { p with subscriber := p.subscriber.notify } else p }

/-- A queued call of the subscriber is delivered, and the proxy hears of a change. -/
def deliver (k : CommandedKey C P V) (p : PropertyProxy V) (now : ℕ) : CommandedKey C P V :=
  let c := p.subscriber.onValueChanged k.handle
  let k := { k with proxy := some { p with subscriber := c } }
  if p.subscriber.emitted < c.emitted then k.onValueChanged now else k

/-- A key is idle: it has no client, and its handle no value. -/
def Idle (k : CommandedKey C P V) : Prop :=
  (∀ a, k.adaptor = some a → ¬ a.clientServiceNames.Nonempty) ∧
    Alike QVariant.invalid k.handle.myValue

/-- The proxy, if there is one and the key is not overridden, has its subscriber subscribed to the
real provider exactly while the property has clients, and then passes its value on to them. -/
def Proxied (k : CommandedKey C P V) : Prop :=
  ∀ p, k.proxy = some p → k.added = false → ∃ a, k.adaptor = some a ∧
    (p.subscriber.subscribed = true ↔ a.clientServiceNames.Nonempty) ∧
    (0 < k.handle.subscribeCount ↔ a.clientServiceNames.Nonempty) ∧
    (a.clientServiceNames.Nonempty → Alike a.propertyPrivate.value k.handle.myValue)

end CommandedKey

/-- The commander: whether its service was started, and what it has for each key. -/
structure CommandWatcher (C P K V : Type) where
  started : Bool
  keys : K → CommandedKey C P V

/-- What can happen: a client calls or exits, another provider is overheard, the registry changes, a
command is given, a handle gets a value, a queued call is delivered. -/
inductive CommandWatcherEvent (C K V : Type)
  | Subscribe (key : K) (client : C)
  | Unsubscribe (key : K) (client : C)
  | onClientExited (key : K) (client : C)
  | overhear (key : K) (values : List V) (timestamp : ℕ)
  | onRegistryChanged (provided : Finset K) (now : ℕ)
  | add (key : K) (value : Option V) (now : ℕ)
  | set (key : K) (v : V) (now : ℕ)
  | del (key : K) (now : ℕ)
  | restart
  | changeValue (key : K) (newValue : V)
  | deliver (key : K) (now : ℕ)

namespace CommandWatcher

variable {C P K V : Type} [DecidableEq C] [DecidableEq K] [QVariant V]

omit [DecidableEq C] [DecidableEq K] in
/-- No property and no proxy. -/
def init : CommandWatcher C P K V := ⟨false, fun _ => .init⟩

omit [DecidableEq C] [QVariant V] in
/-- One key gets a new state. -/
def update (s : CommandWatcher C P K V) (key : K) (k : CommandedKey C P V) :
    CommandWatcher C P K V :=
  { s with keys := Function.update s.keys key k }

omit [DecidableEq K] in
/-- `restartCommand`.  Starting the service succeeds. -/
def restart (s : CommandWatcher C P K V) : CommandWatcher C P K V where
  started := true
  keys key := if s.started then (s.keys key).perform (.forgetClients []) else s.keys key

/-- One event. -/
def step (s : CommandWatcher C P K V) :
    CommandWatcherEvent C K V → Option (CommandWatcher C P K V)
  | .Subscribe key client => some (s.update key ((s.keys key).perform (.Subscribe client [])))
  | .Unsubscribe key client => some (s.update key ((s.keys key).perform (.Unsubscribe client [])))
  | .onClientExited key client =>
    some (s.update key ((s.keys key).perform (.onClientExited client [])))
  | .overhear key values timestamp =>
    some (s.update key ((s.keys key).perform (.onValueChanged values timestamp)))
  | .onRegistryChanged provided now =>
    some { s with keys := fun key => (s.keys key).onRegistryChanged (key ∈ provided) now }
  | .add key value now =>
    let t := s.update key ((s.keys key).add value now)
    some (if s.started && (s.keys key).proxy.isNone then t.restart else t)
  | .set key v now => some (s.update key ((s.keys key).set v now))
  | .del key now => some (s.update key ((s.keys key).del now))
  | .restart => some s.restart
  | .changeValue key newValue =>
    if 0 < (s.keys key).handle.subscribeCount then
      some (s.update key ((s.keys key).changeValue newValue))
    else none
  | .deliver key now =>
    match (s.keys key).proxy with
    | none => none
    | some p =>
      if 0 < p.subscriber.queued then some (s.update key ((s.keys key).deliver p now)) else none

/-- No call of a subscriber is queued. -/
def Quiet (s : CommandWatcher C P K V) : Prop :=
  ∀ key p, (s.keys key).proxy = some p → p.subscriber.queued = 0

/-- Until the registry changes again, every key that has a proxy and is not overridden is proxied
whenever no call is queued. -/
def ProxiesOn (s : CommandWatcher C P K V) : Prop :=
  ∀ es t, (∀ e ∈ es, ∀ provided now, e ≠ .onRegistryChanged provided now) → run step s es = some t →
    t.Quiet → ∀ key, (t.keys key).Proxied

/-- The registry changes while a key that is provided then is not idle. -/
def Forgets (s : CommandWatcher C P K V) (e : CommandWatcherEvent C K V) : Prop :=
  ∃ provided now, e = .onRegistryChanged provided now ∧ ∃ key ∈ provided, ¬ (s.keys key).Idle

end CommandWatcher

/-! ### What the operations on a key keep -/

/-- The subscriber of a proxy follows the flag `subscribed` of the property, and the proxy holds its
copy of the value, which is alike that of the handle unless a call is queued. -/
structure PropertyProxy.Follows {P V : Type} [QVariant V] (p : PropertyProxy V)
    (handle : PropertyHandle P V) (flag : Bool) : Prop where
  subscribed : p.subscriber.subscribed = flag
  counted : handle.subscribeCount = if flag then 1 else 0
  copied : p.value = p.subscriber.value
  current : p.subscriber.queued = 0 → Alike p.value handle.myValue

/-- A subscriber follows the flag when it is subscribed and unsubscribed with it. -/
theorem PropertyProxy.Follows.subscribe {P V : Type} [QVariant V] {p : PropertyProxy V}
    {handle : PropertyHandle P V} (h : p.Follows handle false) :
    PropertyProxy.Follows { p with subscriber := (p.subscriber.subscribe handle).1 }
      (p.subscriber.subscribe handle).2 true := by
  rw [ContextProperty.subscribe, if_neg (by rw [h.subscribed]; decide)]
  refine ⟨rfl, ?_, h.copied, h.current⟩
  rw [h.counted]
  rfl

theorem PropertyProxy.Follows.unsubscribe {P V : Type} [QVariant V] {p : PropertyProxy V}
    {handle : PropertyHandle P V} {flag : Bool} (h : p.Follows handle flag) :
    PropertyProxy.Follows { p with subscriber := (p.subscriber.unsubscribe handle).1 }
      (p.subscriber.unsubscribe handle).2 false := by
  have hc := h.counted
  unfold ContextProperty.unsubscribe
  rw [h.subscribed]
  cases flag with
  | false => exact h
  | true =>
    refine ⟨rfl, ?_, h.copied, h.current⟩
    rw [hc]
    rfl

/-- Setting the property leaves its flag alone. -/
theorem PropertyProxy.Follows.setValue {C P V : Type} [QVariant V] {p : PropertyProxy V}
    {handle : PropertyHandle P V} {a : PropertyAdaptor C V}
    (hf : p.Follows handle a.propertyPrivate.subscribed) (v : V) (now : ℕ) :
    p.Follows handle (a.setValue v now).propertyPrivate.subscribed := by
  have hs := (PropertyPrivate.setValue_tells a.propertyPrivate v now).subscribed
  show p.Follows handle (a.propertyPrivate.setValue v now).1.subscribed
  rwa [hs]

namespace CommandedKey

variable {C P V : Type} [QVariant V]

/-- A key is in order: it has no proxy, and its handle is not subscribed; or the proxy follows the
property and, while the key is not overridden, has passed its value on. -/
inductive InOrder [DecidableEq C] : CommandedKey C P V → Prop
  | unproxied {adaptor : Option (PropertyAdaptor C V)} {added : Bool} {handle : PropertyHandle P V}
      (hi : ∀ a, adaptor = some a → a.Sound) (hc : handle.subscribeCount = 0) :
      InOrder ⟨adaptor, added, none, handle⟩
  | proxied {a : PropertyAdaptor C V} {added : Bool} {p : PropertyProxy V}
      {handle : PropertyHandle P V} (hi : a.Sound)
      (hf : p.Follows handle a.propertyPrivate.subscribed) (he : p.enabled = !added)
      (hv : p.enabled = true → a.propertyPrivate.value = p.value) :
      InOrder ⟨some a, added, some p, handle⟩

variable [DecidableEq C] {k : CommandedKey C P V}

/-- What is in order is as it should be once no call is queued. -/
theorem InOrder.proxies (h : k.InOrder)
    (hq : ∀ p, k.proxy = some p → p.subscriber.queued = 0) : k.Proxied := by
  cases h with
  | unproxied hi hc => exact fun p hp => by cases hp
  | @proxied a added p handle hi hf he hv =>
    intro p' hp' hadd
    obtain rfl := Option.some.inj hp'
    obtain rfl : added = false := hadd
    refine ⟨a, rfl, ?_, ?_, fun _ => ?_⟩
    · rw [hf.subscribed, hi.subscribed]
    · rw [← hi.subscribed]
      show 0 < handle.subscribeCount ↔ _
      rw [hf.counted]
      cases a.propertyPrivate.subscribed <;> simp
    · show Alike a.propertyPrivate.value handle.myValue
      rw [hv he]
      exact hf.current (hq p rfl)

theorem inOrder_init : (init : CommandedKey C P V).InOrder :=
  .unproxied (fun a ha => by cases ha) rfl

theorem InOrder.createProperty (h : k.InOrder) (now : ℕ) : (k.createProperty now).InOrder := by
  cases h with
  | @unproxied adaptor added handle hi hc =>
    refine .unproxied (fun a ha => ?_) hc
    obtain rfl := Option.some.inj ha
    cases adaptor with
    | none => exact PropertyAdaptor.sound_init now
    | some a => exact hi a rfl
  | proxied hi hf he hv => exact .proxied hi hf he hv

/-- The user sets a key that is overridden. -/
theorem InOrder.setValue (h : k.InOrder) (hadd : k.added = true) (v : V) (now : ℕ) :
    (k.setValue v now).InOrder := by
  cases h with
  | unproxied hi hc =>
    refine .unproxied (fun b hb => ?_) hc
    obtain ⟨a, ha, rfl⟩ := Option.map_eq_some_iff.1 hb
    exact (hi a ha).setValue v now
  | proxied hi hf he hv =>
    refine .proxied (hi.setValue v now) (hf.setValue v now) he fun h => ?_
    obtain rfl : _ = true := hadd
    rw [he] at h
    cases h

theorem InOrder.set (h : k.InOrder) (v : V) (now : ℕ) : (k.set v now).InOrder := by
  unfold CommandedKey.set
  split_ifs with hadd
  · exact h.setValue hadd v now
  · exact h

theorem InOrder.del (h : k.InOrder) (now : ℕ) : (k.del now).InOrder := by
  cases h with
  | unproxied hi hc => exact .unproxied hi hc
  | @proxied a added p handle hi hf he hv =>
    have hf' : PropertyProxy.Follows { p with enabled := true } handle
        a.propertyPrivate.subscribed := ⟨hf.subscribed, hf.counted, hf.copied, hf.current⟩
    exact .proxied (hi.setValue p.value now) (hf'.setValue p.value now) rfl
      fun _ => a.setValue_value p.value now

/-- A key becomes overridden. -/
theorem InOrder.override (h : k.InOrder) (now : ℕ) :
    ({ k.createProperty now with added := true }.enable false now).InOrder := by
  have h' := h.createProperty now
  generalize k.createProperty now = k' at h'
  cases h' with
  | unproxied hi hc => exact .unproxied hi hc
  | @proxied a added p handle hi hf he hv =>
    exact .proxied (p := { p with enabled := false }) hi
      ⟨hf.subscribed, hf.counted, hf.copied, hf.current⟩ rfl (fun h => by cases h)

theorem InOrder.add (h : k.InOrder) (value : Option V) (now : ℕ) : (k.add value now).InOrder := by
  have h' : (if k.added then k
      else { k.createProperty now with added := true }.enable false now).InOrder := by
    split_ifs
    · exact h
    · exact h.override now
  have hadd : (if k.added then k
      else { k.createProperty now with added := true }.enable false now).added = true := by
    split_ifs with hadd
    · exact hadd
    · unfold CommandedKey.enable
      dsimp only
      split <;> rfl
  unfold CommandedKey.add
  cases value with
  | none => exact h'
  | some v => exact h'.setValue hadd v now

/-- A client calls, or exits, or is forgotten. -/
theorem InOrder.perform (h : k.InOrder) {e : AdaptorEvent C V} (he : e.SetsNothing) :
    (k.perform e).InOrder := by
  cases h with
  | @unproxied adaptor added handle hi hc =>
    cases adaptor with
    | none => exact .unproxied hi hc
    | some a =>
      have hi' : ∀ b, some (a.perform e).1 = some b → b.Sound := by
        intro b hb
        obtain rfl := Option.some.inj hb
        exact (hi a rfl).perform e
      unfold CommandedKey.perform
      dsimp only
      cases (a.perform e).2 with
      | none => exact .unproxied hi' hc
      | some signal => cases signal <;> exact .unproxied hi' hc
  | @proxied a added p handle hi hf hen hv =>
    have hsignal := a.perform_signal e
    have hi' := hi.perform e
    have hv' : p.enabled = true → (a.perform e).1.propertyPrivate.value = p.value := fun h => by
      rw [a.perform_value he, hv h]
    unfold CommandedKey.perform
    dsimp only
    generalize hb : (a.perform e).1 = b at hsignal hi' hv'
    cases hs : (a.perform e).2 with
    | none =>
      rw [hs] at hsignal
      have hsame : b.propertyPrivate.subscribed = a.propertyPrivate.subscribed := hsignal
      exact .proxied hi' (by rwa [hsame]) hen hv'
    | some signal =>
      rw [hs] at hsignal
      cases signal with
      | firstSubscriberAppeared =>
        obtain ⟨hbefore, hafter⟩ : a.propertyPrivate.subscribed = false ∧
          b.propertyPrivate.subscribed = true := hsignal
        rw [hbefore] at hf
        refine .proxied hi' ?_ hen hv'
        rw [hafter]
        exact hf.subscribe
      | lastSubscriberDisappeared =>
        have hafter : b.propertyPrivate.subscribed = false := hsignal.2
        refine .proxied hi' ?_ hen hv'
        rw [hafter]
        exact hf.unsubscribe

/-- A call of the subscriber is queued for every new value of the handle. -/
theorem InOrder.changeValue (h : k.InOrder) (hpos : 0 < k.handle.subscribeCount) (v : V) :
    (k.changeValue v).InOrder := by
  cases h with
  | unproxied hi hc => exact absurd hpos (by rw [hc]; omega)
  | @proxied a added p handle hi hf he hv =>
    have hflag : a.propertyPrivate.subscribed = true := by
      by_contra hflag
      have hc := hf.counted
      rw [if_neg hflag] at hc
      exact absurd hpos (by rw [hc]; omega)
    unfold CommandedKey.changeValue PropertyHandle.changeValue
    by_cases hd : differs handle.myValue v = true
    · simp only [hd, if_true, Option.map_some]
      rw [ContextProperty.notify, if_pos (by rw [hf.subscribed, hflag])]
      exact .proxied (p := { p with subscriber := _ }) hi
        ⟨hf.subscribed, hf.counted, hf.copied, fun hq => absurd hq (Nat.succ_ne_zero _)⟩ he hv
    · simp only [hd, Option.map_some]
      exact .proxied hi hf he hv

/-- A delivery that finds a new value passes it on. -/
theorem InOrder.deliver (h : k.InOrder) {p : PropertyProxy V} (hp : k.proxy = some p) (now : ℕ) :
    (k.deliver p now).InOrder := by
  cases h with
  | unproxied hi hc => cases hp
  | @proxied a added p' handle hi hf he hv =>
    obtain rfl := Option.some.inj hp
    unfold CommandedKey.deliver ContextProperty.onValueChanged
    by_cases hd : differs p'.subscriber.value handle.myValue = true
    · simp only [hd, if_true, Nat.lt_succ_self]
      have hf' : PropertyProxy.Follows ⟨p'.enabled, handle.myValue, ⟨p'.subscriber.subscribed,
          handle.myValue, p'.subscriber.queued - 1, p'.subscriber.emitted + 1⟩⟩ handle
          a.propertyPrivate.subscribed := ⟨hf.subscribed, hf.counted, rfl, fun _ => Alike.refl _⟩
      unfold CommandedKey.onValueChanged
      dsimp only
      split_ifs with hen
      · exact .proxied (hi.setValue _ now) (hf'.setValue _ now) he
          fun _ => a.setValue_value handle.myValue now
      · exact .proxied hi hf' he (fun h => absurd h hen)
    · rw [Bool.not_eq_true] at hd
      have hcopy : Alike p'.value handle.myValue := hf.copied ▸ .of_differs hd
      simp only [hd, Bool.false_eq_true, if_false, lt_self_iff_false]
      exact .proxied (p := { p' with subscriber := _ }) hi
        ⟨hf.subscribed, hf.counted, hf.copied, fun _ => hcopy⟩ he hv

/-! ### What a change of the registry does to a key -/

section

omit [DecidableEq C] [QVariant V]

@[simp] theorem deleteProxy_proxy : k.deleteProxy.proxy = none := by
  unfold deleteProxy
  split
  · assumption
  · rfl

@[simp] theorem deleteProxy_adaptor : k.deleteProxy.adaptor = k.adaptor := by
  unfold deleteProxy
  split <;> rfl

@[simp] theorem deleteProxy_added : k.deleteProxy.added = k.added := by
  unfold deleteProxy
  split <;> rfl

@[simp] theorem deleteProxy_myValue : k.deleteProxy.handle.myValue = k.handle.myValue := by
  unfold deleteProxy ContextProperty.unsubscribe
  split
  · rfl
  · dsimp only
    split_ifs <;> rfl

end

/-- A deleted proxy takes its subscription with it. -/
theorem InOrder.deleteProxy (h : k.InOrder) : k.deleteProxy.InOrder := by
  cases h with
  | unproxied hi hc => exact .unproxied hi hc
  | @proxied a added p handle hi hf he hv =>
    refine .unproxied (fun b hb => ?_) hf.unsubscribe.counted
    obtain rfl := Option.some.inj hb
    exact hi

/-- A new proxy has a subscriber that has been unsubscribed at once and no value, and unless the key
is overridden it makes the property lose its value, too. -/
theorem createProxy_eq {adaptor : Option (PropertyAdaptor C V)} {added : Bool}
    {handle : PropertyHandle P V} (hi : ∀ a, adaptor = some a → a.Sound) (now : ℕ) :
    ∃ a, createProxy ⟨adaptor, added, none, handle⟩ (!added) now =
        ⟨some a, added, some ⟨!added, QVariant.invalid, .init⟩, handle⟩ ∧ a.Sound ∧
      (added = false → a.propertyPrivate.value = QVariant.invalid) ∧
      (a.clientServiceNames.Nonempty ↔
        ∃ b, adaptor = some b ∧ b.clientServiceNames.Nonempty) := by
  have hi' : (adaptor.getD (.init now)).Sound := by
    cases adaptor with
    | none => exact PropertyAdaptor.sound_init now
    | some a => exact hi a rfl
  have hclients : (adaptor.getD (.init now)).clientServiceNames.Nonempty ↔
      ∃ b, adaptor = some b ∧ b.clientServiceNames.Nonempty := by
    cases adaptor with
    | none => simp [PropertyAdaptor.init]
    | some a => simp
  cases added with
  | true => exact ⟨adaptor.getD (.init now), rfl, hi', (fun h => by cases h), hclients⟩
  | false =>
    exact ⟨(adaptor.getD (.init now)).setValue QVariant.invalid now, rfl,
      hi'.setValue QVariant.invalid now, fun _ => PropertyAdaptor.setValue_value _ _ now, hclients⟩

/-- What is left of a key that is provided after a change of the registry. -/
theorem onRegistryChanged_provided (h : k.InOrder) (now : ℕ) :
    ∃ a handle, k.onRegistryChanged true now =
        ⟨some a, k.added, some ⟨!k.added, QVariant.invalid, .init⟩, handle⟩ ∧ a.Sound ∧
      (k.added = false → a.propertyPrivate.value = QVariant.invalid) ∧
      handle.subscribeCount = 0 ∧
      (k.Idle ↔ ¬ a.clientServiceNames.Nonempty ∧ Alike QVariant.invalid handle.myValue) := by
  have hd := h.deleteProxy
  have hp := k.deleteProxy_proxy
  have hadaptor := k.deleteProxy_adaptor
  have hadded := k.deleteProxy_added
  have hvalue := k.deleteProxy_myValue
  unfold CommandedKey.onRegistryChanged
  generalize k.deleteProxy = k' at *
  cases hd with
  | proxied => cases hp
  | @unproxied adaptor added handle hi hc =>
    obtain ⟨a, ha, hia, hv, hclients⟩ := createProxy_eq hi now
    refine ⟨a, handle, ?_, hia, ?_, hc, ?_⟩
    · rw [← hadded]
      exact ha
    · rwa [← hadded]
    · unfold Idle
      rw [hclients, ← hadaptor, ← hvalue]
      simp

theorem InOrder.onRegistryChanged (h : k.InOrder) {provided : Bool}
    (hidle : provided = true → k.Idle) (now : ℕ) : (k.onRegistryChanged provided now).InOrder := by
  cases provided with
  | false => exact h.deleteProxy
  | true =>
    obtain ⟨a, handle, hk, hi, hv, hc, hidle'⟩ := onRegistryChanged_provided h now
    obtain ⟨hno, hvalue⟩ := hidle'.1 (hidle rfl)
    have hs : a.propertyPrivate.subscribed = false := by
      by_contra hs
      exact hno (hi.subscribed.1 (by simpa using hs))
    rw [hk]
    refine .proxied hi ⟨?_, ?_, rfl, fun _ => hvalue⟩ rfl fun he => hv (by simpa using he)
    · rw [hs]
      rfl
    · rw [hs, hc]
      rfl

omit [DecidableEq C] in
/-- No call is queued for a new proxy. -/
theorem onRegistryChanged_queued {provided : Bool} {now : ℕ} {p : PropertyProxy V}
    (hp : (k.onRegistryChanged provided now).proxy = some p) : p.subscriber.queued = 0 := by
  cases provided with
  | false =>
    have hnone : (k.onRegistryChanged false now).proxy = none := k.deleteProxy_proxy
    rw [hnone] at hp
    cases hp
  | true =>
    unfold CommandedKey.onRegistryChanged CommandedKey.createProxy enable at hp
    simp only [if_true] at hp
    split_ifs at hp <;> (obtain rfl := Option.some.inj hp; rfl)

/-- A proxy that is created for a key that is not idle does not do its work: the key may cease to be
overridden, and a client come. -/
theorem not_proxied_of_not_idle (h : k.InOrder) (hidle : ¬ k.Idle) (now : ℕ) (client : C) :
    ∃ p, (((k.onRegistryChanged true now).del now).perform (.Subscribe client [])).proxy = some p ∧
      p.subscriber.queued = 0 ∧
      ¬ (((k.onRegistryChanged true now).del now).perform (.Subscribe client [])).Proxied := by
  obtain ⟨a, handle, hk, hi, -, hc, hidle'⟩ := onRegistryChanged_provided h now
  let b := a.setValue QVariant.invalid now
  have hb : (k.onRegistryChanged true now).del now =
      ⟨some b, false, some ⟨true, QVariant.invalid, .init⟩, handle⟩ := by
    rw [hk]
    rfl
  have hbi : b.Sound := hi.setValue QVariant.invalid now
  have hbv : b.propertyPrivate.value = QVariant.invalid := a.setValue_value QVariant.invalid now
  have hsignal := b.perform_signal (.Subscribe client [])
  have hvalue := b.perform_value (e := .Subscribe client []) rfl
  have hti := hbi.perform (.Subscribe client [])
  have hmem : client ∈ (b.perform (.Subscribe client [])).1.clientServiceNames :=
    b.mem_Subscribe client
  rw [hb]
  unfold CommandedKey.perform
  dsimp only
  generalize (b.perform (.Subscribe client [])).1 = c at hsignal hvalue hti hmem
  have hne : c.clientServiceNames.Nonempty := ⟨client, hmem⟩
  cases hs : (b.perform (.Subscribe client [])).2 with
  | none =>
    -- The property had a client, and its subscriber stays unsubscribed.
    refine ⟨_, rfl, rfl, fun hprox => ?_⟩
    obtain ⟨c', hc', hsub, -⟩ := hprox _ rfl rfl
    obtain rfl := Option.some.inj hc'
    exact absurd (hsub.2 hne) (by simp [ContextProperty.init])
  | some signal =>
    rw [hs] at hsignal
    cases signal with
    | firstSubscriberAppeared =>
      -- The handle has a value, and will not tell of it.
      have hbefore : b.propertyPrivate.subscribed = false := hsignal.1
      have hno : ¬ a.clientServiceNames.Nonempty := fun hne =>
        absurd (hbi.subscribed.2 hne) (by rw [hbefore]; decide)
      refine ⟨_, rfl, rfl, fun hprox => ?_⟩
      obtain ⟨c', hc', -, -, hpass⟩ := hprox _ rfl rfl
      obtain rfl := Option.some.inj hc'
      refine hidle (hidle'.2 ⟨hno, ?_⟩)
      rw [← hbv, ← hvalue]
      exact hpass hne
    | lastSubscriberDisappeared =>
      have hafter : c.propertyPrivate.subscribed = false := hsignal.2
      exact absurd (hti.subscribed.2 hne) (by rw [hafter]; decide)

/-! ### Which keys have a proxy -/

omit [DecidableEq C] in
theorem isSome_enable (enabled : Bool) (now : ℕ) :
    (k.enable enabled now).proxy.isSome = k.proxy.isSome := by
  unfold CommandedKey.enable
  cases hp : k.proxy with
  | none => simp [hp]
  | some p => cases enabled <;> rfl

omit [DecidableEq C] in
theorem isSome_add (value : Option V) (now : ℕ) :
    (k.add value now).proxy.isSome = k.proxy.isSome := by
  have h : (if k.added then k
      else { k.createProperty now with added := true }.enable false now).proxy.isSome =
        k.proxy.isSome := by
    split_ifs
    · rfl
    · exact isSome_enable false now
  cases value with
  | none => exact h
  | some v => exact h

theorem isSome_perform (e : AdaptorEvent C V) :
    (k.perform e).proxy.isSome = k.proxy.isSome := by
  unfold CommandedKey.perform
  cases k.adaptor with
  | none => rfl
  | some a =>
    dsimp only
    cases (a.perform e).2 with
    | none => rfl
    | some signal =>
      unfold onFirstSubscriber onLastSubscriber
      cases hp : k.proxy <;> cases signal <;> simp

omit [DecidableEq C] in
theorem isSome_deliver {p : PropertyProxy V} (now : ℕ) : (k.deliver p now).proxy.isSome = true := by
  unfold CommandedKey.deliver CommandedKey.onValueChanged
  dsimp only
  split_ifs <;> rfl

omit [DecidableEq C] in
theorem isSome_onRegistryChanged (provided : Bool) (now : ℕ) :
    (k.onRegistryChanged provided now).proxy.isSome = provided := by
  cases provided with
  | false =>
    show k.deleteProxy.proxy.isSome = false
    rw [deleteProxy_proxy]
    rfl
  | true =>
    unfold CommandedKey.onRegistryChanged CommandedKey.createProxy
    simp only [if_true]
    rw [isSome_enable]
    rfl

end CommandedKey

namespace CommandWatcher

variable {C P K V : Type} [DecidableEq C] [DecidableEq K] [QVariant V]
  {s t : CommandWatcher C P K V}

omit [DecidableEq C] [QVariant V] in
@[simp] theorem update_keys_self (key : K) (k : CommandedKey C P V) :
    (s.update key k).keys key = k := Function.update_self ..

omit [DecidableEq C] [QVariant V] in
@[simp] theorem update_keys_of_ne {l key : K} (h : l ≠ key) (k : CommandedKey C P V) :
    (s.update key k).keys l = s.keys l := Function.update_of_ne h ..

omit [DecidableEq K] in
theorem isSome_restart (l : K) : (s.restart.keys l).proxy.isSome = (s.keys l).proxy.isSome := by
  unfold restart
  dsimp only
  split_ifs
  · exact CommandedKey.isSome_perform _
  · rfl

/-- A queued call of a subscriber is one of the proxy that its key has. -/
theorem step_deliver {key : K} {now : ℕ} (hstep : s.step (.deliver key now) = some t) :
    ∃ p, (s.keys key).proxy = some p ∧ 0 < p.subscriber.queued ∧
      t = s.update key ((s.keys key).deliver p now) := by
  simp only [step] at hstep
  cases hp : (s.keys key).proxy with
  | none => simp [hp] at hstep
  | some p =>
    simp only [hp] at hstep
    obtain ⟨hqueued, rfl⟩ := Option.ite_some_none_eq_some.1 hstep
    exact ⟨p, rfl, hqueued, rfl⟩

/-- The keys that have a proxy are those that the registry provides. -/
theorem isSome_step {e : CommandWatcherEvent C K V} (hstep : s.step e = some t) (l : K) :
    (t.keys l).proxy.isSome =
      match e with
      | .onRegistryChanged provided _ => decide (l ∈ provided)
      | _ => (s.keys l).proxy.isSome := by
  have hupdate : ∀ key (k : CommandedKey C P V), k.proxy.isSome = (s.keys key).proxy.isSome →
      ((s.update key k).keys l).proxy.isSome = (s.keys l).proxy.isSome := by
    intro key k hk
    rcases eq_or_ne l key with rfl | hne
    · rwa [update_keys_self]
    · rw [update_keys_of_ne hne]
  cases e with
  | Subscribe key client | Unsubscribe key client | onClientExited key client
  | overhear key values timestamp =>
    obtain rfl := Option.some.inj hstep
    exact hupdate key _ (CommandedKey.isSome_perform (k := s.keys key) _)
  | onRegistryChanged provided now =>
    obtain rfl := Option.some.inj hstep
    exact CommandedKey.isSome_onRegistryChanged _ now
  | add key value now =>
    obtain rfl := Option.some.inj hstep
    have hadd := hupdate key _ (CommandedKey.isSome_add value now)
    split_ifs
    · rw [isSome_restart, hadd]
    · exact hadd
  | set key v now =>
    obtain rfl := Option.some.inj hstep
    refine hupdate key _ ?_
    unfold CommandedKey.set
    split_ifs <;> rfl
  | del key now =>
    obtain rfl := Option.some.inj hstep
    exact hupdate key _ (CommandedKey.isSome_enable true now)
  | restart =>
    obtain rfl := Option.some.inj hstep
    exact isSome_restart l
  | changeValue key newValue =>
    obtain ⟨-, rfl⟩ := Option.ite_some_none_eq_some.1 hstep
    refine hupdate key _ ?_
    simp [CommandedKey.changeValue]
  | deliver key now =>
    obtain ⟨p, hp, -, rfl⟩ := step_deliver hstep
    refine hupdate key _ ?_
    rw [CommandedKey.isSome_deliver, hp]
    rfl

/-- Every key is in order. -/
def InOrder (s : CommandWatcher C P K V) : Prop := ∀ key, (s.keys key).InOrder

omit [DecidableEq K] in
theorem inOrder_init : (init : CommandWatcher C P K V).InOrder :=
  fun _ => CommandedKey.inOrder_init

theorem InOrder.update (h : s.InOrder) {key : K} {k : CommandedKey C P V} (hk : k.InOrder) :
    (s.update key k).InOrder := by
  intro l
  rcases eq_or_ne l key with rfl | hne
  · rwa [update_keys_self]
  · rw [update_keys_of_ne hne]
    exact h l

omit [DecidableEq K] in
theorem InOrder.restart (h : s.InOrder) : s.restart.InOrder := by
  intro key
  unfold CommandWatcher.restart
  dsimp only
  split_ifs
  · exact (h key).perform rfl
  · exact h key

/-- **One event** that finds the keys idle where their proxies are new keeps every key in order. -/
theorem inOrder_step {e : CommandWatcherEvent C K V} (h : s.InOrder) (hf : ¬ s.Forgets e)
    (hstep : s.step e = some t) : t.InOrder := by
  cases e with
  | Subscribe key client | Unsubscribe key client | onClientExited key client =>
    obtain rfl := Option.some.inj hstep
    exact h.update ((h key).perform rfl)
  | overhear key values timestamp =>
    obtain rfl := Option.some.inj hstep
    exact h.update ((h key).perform trivial)
  | onRegistryChanged provided now =>
    obtain rfl := Option.some.inj hstep
    intro key
    refine (h key).onRegistryChanged (fun hp => ?_) now
    by_contra hidle
    exact hf ⟨provided, now, rfl, key, of_decide_eq_true hp, hidle⟩
  | add key value now =>
    obtain rfl := Option.some.inj hstep
    have ht : (s.update key ((s.keys key).add value now)).InOrder :=
      h.update ((h key).add value now)
    split_ifs
    · exact ht.restart
    · exact ht
  | set key v now =>
    obtain rfl := Option.some.inj hstep
    exact h.update ((h key).set v now)
  | del key now =>
    obtain rfl := Option.some.inj hstep
    exact h.update ((h key).del now)
  | restart =>
    obtain rfl := Option.some.inj hstep
    exact h.restart
  | changeValue key newValue =>
    obtain ⟨hpos, rfl⟩ := Option.ite_some_none_eq_some.1 hstep
    exact h.update ((h key).changeValue hpos newValue)
  | deliver key now =>
    obtain ⟨p, hp, -, rfl⟩ := step_deliver hstep
    exact h.update ((h key).deliver hp now)

/-- Until the registry changes again, what is in order stays so. -/
theorem InOrder.proxiesOn (h : s.InOrder) : s.ProxiesOn := by
  intro es t hes hrun hquiet key
  have hf : Along step (fun s e => ¬ s.Forgets e) s es := by
    refine .of_inv (P := fun _ => True) (C := fun _ e => ∀ provided now, e ≠
      .onRegistryChanged provided now) (fun _ _ _ _ _ _ => trivial) ?_ trivial (along_of_forall hes)
    rintro s e - he ⟨provided, now, heq, -⟩
    exact he provided now heq
  have ht : t.InOrder := run_inv_along (fun _ _ _ h hf hst => inOrder_step h hf hst) h hf hrun
  exact (ht key).proxies (hquiet key)

/-- A change of the registry that finds a key not idle leaves it badly proxied. -/
theorem not_forgets [Inhabited C] {e : CommandWatcherEvent C K V} (h : s.InOrder)
    (hp : ∀ t, s.step e = some t → t.ProxiesOn) : ¬ s.Forgets e := by
  rintro ⟨provided, now, rfl, key, hkey, hidle⟩
  obtain ⟨p, hproxy, hq, hnot⟩ :=
    CommandedKey.not_proxied_of_not_idle (h key) hidle now (default : C)
  let t : CommandWatcher C P K V :=
    { s with keys := fun key => (s.keys key).onRegistryChanged (key ∈ provided) now }
  let k := (((s.keys key).onRegistryChanged true now).del now).perform (.Subscribe default [])
  have hkeys : ∀ l, ((t.update key ((t.keys key).del now)).update key
      (((t.update key ((t.keys key).del now)).keys key).perform (.Subscribe default []))).keys l =
        if l = key then k else t.keys l := by
    intro l
    rcases eq_or_ne l key with rfl | hne
    · simp [t, k, hkey]
    · simp [hne]
  have hprox := hp t rfl [.del key now, .Subscribe key default] _ (by simp) rfl ?_ key
  · rw [hkeys, if_pos rfl] at hprox
    exact hnot hprox
  · intro l q hq'
    rw [hkeys] at hq'
    split_ifs at hq' with hl
    · obtain rfl := Option.some.inj (hproxy.symm.trans hq')
      exact hq
    · exact CommandedKey.onRegistryChanged_queued hq'

end CommandWatcher

/-- **When the commander keeps proxying.**  In every run of clients, registry changes, commands and
new values of the handles: from each state on, and until the registry changes again, every key that
has a proxy and is not overridden has its subscriber subscribed exactly while it has clients, and
has a value alike the subscriber's then, whenever no call is queued; exactly if every change of the
registry finds the keys it provides without clients, and their handles without a value. -/
theorem proxiesOn_iff {C P K V : Type} [Inhabited C] [DecidableEq C] [DecidableEq K] [QVariant V]
    (es : List (CommandWatcherEvent C K V)) :
    Along CommandWatcher.step
        (fun (s : CommandWatcher C P K V) e => ∀ t, s.step e = some t → t.ProxiesOn)
        CommandWatcher.init es ↔
      Along CommandWatcher.step (fun (s : CommandWatcher C P K V) e => ¬ s.Forgets e)
        CommandWatcher.init es := by
  constructor
  · refine fun h => .of_inv (P := CommandWatcher.InOrder) (fun s e t hs hp hst => ?_)
      (fun s e hs hp => CommandWatcher.not_forgets hs hp) CommandWatcher.inOrder_init h
    exact CommandWatcher.inOrder_step hs (CommandWatcher.not_forgets hs hp) hst
  · refine fun h => .of_inv (P := CommandWatcher.InOrder)
      (fun s e t hs hf hst => CommandWatcher.inOrder_step hs hf hst)
      (fun s e hs hf t hst => ?_) CommandWatcher.inOrder_init h
    exact (CommandWatcher.inOrder_step hs hf hst).proxiesOn

/-- The registry changes while a client has subscribed a key: its subscriber is left unsubscribed,
and the client is told that the value is unknown. -/
theorem exists_proxy_asleep :
    ∃ s : CommandWatcher String String String (Option ℤ),
      run CommandWatcher.step CommandWatcher.init [.onRegistryChanged {"Screen.TopEdge"} 1,
        .Subscribe "Screen.TopEdge" ":1.1", .changeValue "Screen.TopEdge" (some 5),
        .deliver "Screen.TopEdge" 2, .onRegistryChanged {"Screen.TopEdge"} 3] = some s ∧
      s.Quiet ∧ ∃ p a, (s.keys "Screen.TopEdge").proxy = some p ∧
        (s.keys "Screen.TopEdge").added = false ∧ (s.keys "Screen.TopEdge").adaptor = some a ∧
        ":1.1" ∈ a.clientServiceNames ∧ p.subscriber.subscribed = false ∧
        ¬ Alike a.propertyPrivate.value (s.keys "Screen.TopEdge").handle.myValue := by
  refine ⟨_, rfl, ?_, _, _, rfl, rfl, rfl, by decide, rfl, by decide⟩
  exact fun key p hp => CommandedKey.onRegistryChanged_queued hp

end ContextProvide
