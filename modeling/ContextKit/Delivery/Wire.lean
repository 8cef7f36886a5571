import ContextKit.Provider.PropertyAdaptor
import ContextKit.Subscriber.KeyView
import ContextKit.Subscriber.SignalRouting

/-!
# A property and its subscriber on the bus

One property, the process that provides it, and one process that may subscribe to it: the two ends
are `PropertyAdaptor` and `Link`, and a `Wire` is what lies between them.  Calls reach the property
in the order they were made; replies, `ValueChanged` signals and the notices about the provider's
name reach the subscriber in the order the bus sent them; and a signal is sent to the subscriber
only while the bus has a match rule for it.  The rules are made by `connect` and `disconnect`, and
they reach the bus in order, but sooner or later than the calls.

A call that is made while nobody has the name waits, because the bus may start the provider for it,
or is refused.
-/

namespace ContextDelivery
open ContextKit ContextProvider ContextSubscriber Transition

/-- A call on the object of the property.  `Subscribe` calls are known by their watchers. -/
inductive ObjectCall
  | Subscribe (id : ℕ)
  | Unsubscribe
  deriving DecidableEq

/-- A call of a method, with the watcher it gets if it is `Subscribe`. -/
def ObjectCall.ofMember (id : ℕ) : Member → ObjectCall
  | .subscribe => .Subscribe id
  | .unsubscribe => .Unsubscribe

/-- The method that is called. -/
def ObjectCall.member : ObjectCall → Member
  | .Subscribe _ => .subscribe
  | .Unsubscribe => .unsubscribe

/-- The watcher of a call. -/
def ObjectCall.id? : ObjectCall → Option ℕ
  | .Subscribe id => some id
  | .Unsubscribe => none

/-- What the subscriber hears from the bus.  A reply is an error (`none`) or brings a value. -/
inductive BusMessage (V : Type)
  | reply (id : ℕ) (content : Option (ValueChanged V))
  | valueChanged (content : ValueChanged V)
  | serviceRegistered
  | serviceUnregistered
  deriving DecidableEq

namespace BusMessage

variable {V : Type}

/-- The value a message brings. -/
def content : BusMessage V → Option (ValueChanged V)
  | .reply _ content => content
  | .valueChanged content => some content
  | .serviceRegistered | .serviceUnregistered => none

/-- The call a message replies to. -/
def id? : BusMessage V → Option ℕ
  | .reply id _ => some id
  | _ => none

/-- What a message says about the name of the provider. -/
def notice : BusMessage V → Option Bool
  | .serviceRegistered => some true
  | .serviceUnregistered => some false
  | _ => none

end BusMessage

/-- The two ends and what is on its way between them: the calls that wait for the property, the
changes of the match rule that wait for the bus, whether the bus has the rule, and the messages to
the subscriber.  `reported` is what the plugin last reported to the provider for the key. -/
structure Wire (C V : Type) where
  link : Link V
  adaptor : PropertyAdaptor C V
  up : Bool
  calls : List ObjectCall
  rules : List Bool
  matched : Bool
  toSubscriber : List (BusMessage V)
  reported : Option (ValueChanged V)

/-- What can happen: something in the subscriber, a rule reaches the bus, a call reaches the
property or is refused, something else happens to the property, its service starts or stops, its
process ends and leaves the name to another one, or a message reaches the subscriber. -/
inductive WireEvent (C V : Type)
  | link (e : LinkEvent V)
  | rule
  | serve (handler : List (V × ℕ))
  | refuse
  | adaptor (e : AdaptorEvent C V)
  | start
  | stop (handler : List (V × ℕ))
  | exit (now : ℕ)
  | deliver

namespace Wire

variable {C V : Type} [QVariant V] [DecidableEq C] (self : C) (key : String)

omit [DecidableEq C] in
/-- Nothing has happened yet, and the provider of the property is not there. -/
def init (now : ℕ) : Wire C V where
  link := Link.init
  adaptor := PropertyAdaptor.init now
  up := false
  calls := []
  rules := []
  matched := false
  toSubscriber := []
  reported := none

omit [QVariant V] [DecidableEq C] in
/-- The events that happen in the subscriber, or concern its other keys. -/
def Inside (s : Wire C V) : LinkEvent V → Prop
  | .reply id _ => s.link.plugin.watchers[id]? ≠ some key
  | .serviceRegistered | .serviceUnregistered | .blockUntilSubscribed _ _ _ => False
  | _ => True

instance (s : Wire C V) (e : LinkEvent V) : Decidable (s.Inside key e) := by
  cases e <;> unfold Inside <;> infer_instance

/-- The calls on the object of the key that a slot of the plugin has made. -/
def newCalls (p q : ContextKitPlugin) : List ObjectCall :=
  ((q.calls (keyToPath key)).drop (p.calls (keyToPath key)).length).map
    (.ofMember p.watchers.length)

/-- The match rule is added with the connection and removed with it. -/
def newRules (p q : ContextKitPlugin) : List Bool :=
  if keyToPath key ∈ q.connections ↔ keyToPath key ∈ p.connections then []
  else [decide (keyToPath key ∈ q.connections)]

omit [QVariant V] [DecidableEq C] in
/-- Something happened in the subscriber, and what the plugin did goes to the bus. -/
def advance (s : Wire C V) (l : Link V) : Wire C V :=
  { s with
    link := l
    calls := s.calls ++ newCalls key s.link.plugin l.plugin
    rules := s.rules ++ newRules key s.link.plugin l.plugin }

/-- The message the subscriber gets from a message of the adaptor, which answers the call `id`. -/
def envelope (matched : Bool) (id : Option ℕ) : Message C V → Option (BusMessage V)
  | .reply client content => if client = self then id.map (.reply · (some content)) else none
  | .signal content => if matched then some (.valueChanged content) else none

omit [QVariant V] [DecidableEq C] in
/-- The messages the adaptor has sent on the way from one state to another, the newest first. -/
def newMessages (a b : PropertyAdaptor C V) : List (Message C V) :=
  b.sent.take (b.sent.length - a.sent.length)

/-- The adaptor did something, in answer to the call `id` if there is one. -/
def publish (s : Wire C V) (a : PropertyAdaptor C V) (id : Option ℕ) : Wire C V :=
  { s with
    adaptor := a
    toSubscriber := s.toSubscriber ++
      (newMessages s.adaptor a).reverse.filterMap (envelope self s.matched id) }

omit [QVariant V] [DecidableEq C] in
/-- The name has got an owner or lost it.  The subscriber listens once it has its plugin. -/
def notify (s : Wire C V) (m : BusMessage V) : Wire C V :=
  { s with
    toSubscriber :=
      if s.link.provider.pluginConstructed then s.toSubscriber ++ [m] else s.toSubscriber }

omit [QVariant V] in
/-- What happens to a property apart from the calls of this subscriber: its user may set it at any
time, the rest needs a provider on the bus. -/
def Elsewhere (s : Wire C V) : AdaptorEvent C V → Prop
  | .setValue _ _ => True
  | .Subscribe client _ | .Unsubscribe client _ | .onClientExited client _ =>
    s.up = true ∧ client ≠ self
  | .onValueChanged _ _ => s.up = true
  | .forgetClients _ => False

instance (s : Wire C V) (e : AdaptorEvent C V) : Decidable (s.Elsewhere self e) := by
  cases e <;> unfold Elsewhere <;> infer_instance

omit [DecidableEq C] in
/-- The plugin reports a value for `k` to the provider. -/
def report (s : Wire C V) (k : String) (value : TimedValue V) (content : ValueChanged V) :
    Wire C V :=
  { s with
    link := { s.link with provider := (s.link.provider.onPluginValueChanged k value).1 }
    reported := if k = key then some content else s.reported }

omit [DecidableEq C] in
/-- A message reaches the subscriber. -/
def receive (s : Wire C V) : BusMessage V → Option (Wire C V)
  | .reply id content =>
    (s.link.step (.reply id (content.map fun c => createTimedValue c.values c.timestamp))).map
      fun l => { s.advance key l with reported := content.or s.reported }
  | .valueChanged content =>
    some <|
      if keyToPath key ∈ s.link.plugin.connections then
        match s.link.plugin.onNewValueChanged (keyToPath key) content.values content.timestamp with
        | some (k, value) => s.report key k value content
        | none => s
      else s
  | .serviceRegistered => (s.link.step .serviceRegistered).map (s.advance key)
  | .serviceUnregistered => (s.link.step .serviceUnregistered).map (s.advance key)

/-- The property handles a call. -/
def handleCall (s : Wire C V) (call : ObjectCall) (handler : List (V × ℕ)) : Wire C V :=
  match call with
  | .Subscribe id => s.publish self (s.adaptor.Subscribe self handler).1 (some id)
  | .Unsubscribe => s.publish self (s.adaptor.Unsubscribe self handler).1 none

omit [QVariant V] [DecidableEq C] in
/-- Nobody handles a call, and the bus replies with an error. -/
def refuseCall (s : Wire C V) (call : ObjectCall) : Wire C V :=
  { s with toSubscriber := s.toSubscriber ++ (call.id?.map (.reply · none)).toList }

/-- One event. -/
def step (s : Wire C V) : WireEvent C V → Option (Wire C V)
  | .link e => if s.Inside key e then (s.link.step e).map (s.advance key) else none
  | .rule =>
    match s.rules with
    | [] => none
    | rule :: rules => some { s with rules := rules, matched := rule }
  | .serve handler =>
    match s.calls with
    | [] => none
    | call :: calls =>
      if s.up then some ({ s with calls := calls }.handleCall self call handler) else none
  | .refuse =>
    match s.calls with
    | [] => none
    | call :: calls => if s.up then none else some ({ s with calls := calls }.refuseCall call)
  | .adaptor e =>
    if s.Elsewhere self e then some (s.publish self (s.adaptor.perform e).1 none) else none
  | .start => if s.up then none else some ({ s with up := true }.notify .serviceRegistered)
  | .stop handler =>
    if s.up then
      let s := s.publish self (s.adaptor.forgetClients handler).1 none
      some ({ s with up := false }.notify .serviceUnregistered)
    else none
  | .exit now =>
    if s.up then
      some ({ s with up := false, adaptor := .init now }.notify .serviceUnregistered)
    else none
  | .deliver =>
    match s.toSubscriber with
    | [] => none
    | m :: ms => { s with toSubscriber := ms }.receive key m

end Wire

end ContextDelivery
