import ContextKit.Subscriber.ContextKitPlugin
import ContextKit.Transition.Run

/-!
# A `Provider` over its `ContextKitPlugin`

The two classes and the `DBusNameListener` together, on the new protocol: the plugin emits `ready`
and `failed` directly into the slots of the provider, which call the plugin back before the event is
over; `onProviderAppeared`, `handleSubscribes` and `newSubscribe` come queued; the service is
registered and unregistered, and `Subscribe` calls are replied to, at any time.

`blockUntilSubscribed` may be called before the plugin is constructed, and before it is ready; the
call then constructs the plugin and makes it ready first, and so it is one event here.
-/

namespace ContextSubscriber
open ContextKit Transition

/-- A provider, its plugin and the plugin's listener; whether the constructor's call of
`onProviderAppeared` is queued; and two notes about the `Subscribe` calls: how many had been made
when a key was last inserted into `subscribedKeys`, and when the name last appeared. -/
structure Link (V : Type) where
  provider : Provider String V
  plugin : ContextKitPlugin
  listener : DBusNameListener
  appearedQueued : Bool
  insertedAt : String → ℕ
  appearedAt : ℕ

/-- What can happen.  A reply is an error (`none`) or brings a value. -/
inductive LinkEvent (V : Type)
  | constructPlugin
  | providerAppeared
  | handleSubscribes
  | newSubscribe (key : String)
  | subscribe (key : String)
  | unsubscribe (key : String)
  | serviceRegistered
  | serviceUnregistered
  | reply (id : ℕ) (value : Option (TimedValue V))
  | blockUntilSubscribed (key : String) (order : List String) (value : Option (TimedValue V))

namespace Link

variable {V : Type}

/-- A provider that has not constructed its plugin yet. -/
def init : Link V where
  provider := Provider.init
  plugin := ContextKitPlugin.init
  listener := DBusNameListener.init
  appearedQueued := false
  insertedAt := fun _ => 0
  appearedAt := 0

/-- The provider calls the plugin. -/
def call (l : Link V) : PluginCall String → Link V
  | .subscribe keys => { l with plugin := l.plugin.subscribe keys }
  | .unsubscribe keys => { l with plugin := l.plugin.unsubscribe keys }

/-- A slot of the provider ran with this result. -/
def carryOut (l : Link V) (r : Provider String V × Outcome String) : Link V :=
  r.2.calls.foldl call { l with provider := r.1 }

/-- A slot of the plugin ran with this result, and may have emitted `ready`. -/
def emit (l : Link V) (r : ContextKitPlugin × Bool) : Link V :=
  if r.2 then { l with plugin := r.1 }.carryOut l.provider.onPluginReady
  else { l with plugin := r.1 }

/-- `Provider::constructPlugin`, for a plugin that can be constructed. -/
def construct (l : Link V) : Link V :=
  if l.provider.pluginConstructed then l
  else { l with provider := { l.provider with pluginConstructed := true }, appearedQueued := true }

/-- The `Subscribe` call `id` is replied to. -/
def finish (l : Link V) (id : ℕ) (value : Option (TimedValue V)) : Link V :=
  let p :=
    match l.plugin.watchers[id]?, value with
    | some key, some v => (l.provider.onPluginValueChanged key v).1
    | _, _ => l.provider
  { l with provider := p, plugin := l.plugin.onFinished id }

/-- The call of `ContextKitPlugin::blockUntilSubscribed`: the reply that is waited for brings
`value`. -/
def waitFor (l : Link V) (key : String) (order : List String) (value : Option (TimedValue V)) :
    Link V :=
  let l := { l with plugin := l.plugin.flush order }
  match l.plugin.pendingWatchers key with
  | none => l
  | some id => l.finish id value

/-- `Provider::blockUntilSubscribed` up to the point where the plugin has been made ready. -/
def blockUntilReady (l : Link V) : Link V :=
  l.construct.emit (l.construct.plugin.blockUntilReady l.construct.listener)

/-- One event. -/
def step (l : Link V) : LinkEvent V → Option (Link V)
  | .constructPlugin =>
    if .constructPlugin ∈ l.provider.callQueue then
      some { l with provider := l.provider.dequeue .constructPlugin }.construct
    else none
  | .providerAppeared =>
    if l.appearedQueued then
      some ({ l with appearedQueued := false }.emit (l.plugin.onProviderAppeared l.listener))
    else none
  | .handleSubscribes =>
    if .handleSubscribes ∈ l.provider.callQueue then
      some (l.carryOut (l.provider.dequeue .handleSubscribes).handleSubscribes)
    else none
  | .newSubscribe key =>
    if key ∈ l.plugin.queued then some { l with plugin := l.plugin.deliverNewSubscribe key }
    else none
  | .subscribe key =>
    some { l with
      provider := (l.provider.subscribe key).1
      insertedAt :=
        if key ∈ l.provider.subscribedKeys then l.insertedAt
        else Function.update l.insertedAt key l.plugin.watchers.length }
  | .unsubscribe key => some { l with provider := l.provider.unsubscribe key }
  | .serviceRegistered =>
    if l.provider.pluginConstructed then
      let r := l.listener.setServicePresent
      if r.2 then
        some ({ l with listener := r.1, appearedAt := l.plugin.watchers.length }.emit
          (l.plugin.onProviderAppeared r.1))
      else some { l with listener := r.1 }
    else none
  | .serviceUnregistered =>
    if l.provider.pluginConstructed then
      let r := l.listener.setServiceGone
      if r.2 then
        some ({ l with listener := r.1, plugin := l.plugin.onProviderDisappeared }.carryOut
          l.provider.onPluginFailed)
      else some { l with listener := r.1 }
    else none
  | .reply id value => if id ∈ l.plugin.unfinished then some (l.finish id value) else none
  | .blockUntilSubscribed key order value =>
    if l.blockUntilReady.provider.pluginState = .ready then
      if order.Nodup ∧ order.toFinset = l.blockUntilReady.plugin.pendingKeys then
        some (l.blockUntilReady.waitFor key order value)
      else none
    else some l.blockUntilReady

end Link

end ContextSubscriber
