import ContextKit.Subscriber.Session
import ContextKit.Subscriber.DBusNameListener

/-!
# `PropertyHandle`s over their `Provider`s

There is one handle for each key and one provider for each entry of the registry, and a handle calls
the providers it is routed to once for each time they occur in its list.  A `World` is all of them
together; the plugins of the providers keep their contract, as in `Session`.

The registry's answer, `myInfo->providers()`, comes with the event that asks for it.  The signals of
a provider are connected directly, so the handles run their slots before the provider's event is
over.
-/

namespace ContextSubscriber
open ContextKit Transition

/-- What does not change while the program runs: whether the commander is listened to at all, which
provider stands for it, and the type check. -/
structure Setup (P K V : Type) where
  commandingEnabled : Bool
  commander : P
  typeCheckEnabled : Bool
  typeCheck : K → V → Bool

/-- The fields of `PropertyHandle`. -/
structure PropertyHandle (P V : Type) where
  pendingSubscriptions : Finset P
  myProviders : List P
  subscribeCount : ℕ
  myValue : V

/-- The loop of `onValueChanged` over the values of the providers: the first value that is not null,
unless a later one is newer. -/
def latestValue {V : Type} [QVariant V] :
    Option (TimedValue V) → List (TimedValue V) → Option (TimedValue V)
  | latest, [] => latest
  | latest, current :: rest =>
    if QVariant.isNull current.value then latestValue latest rest
    else
      match latest with
      | none => latestValue (some current) rest
      | some l => latestValue (if l.lt current then some current else some l) rest

/-- The loop picks the newest of the values that are not null, the first of them in the list. -/
theorem latestValue_eq_argmax {V : Type} [QVariant V] (l : List (TimedValue V)) :
    latestValue none l = (l.filter fun v => !QVariant.isNull v.value).argmax TimedValue.time := by
  suffices h : ∀ latest, latestValue latest l =
      (l.filter fun v => !QVariant.isNull v.value).foldl
        (List.argAux fun b c => TimedValue.time c < TimedValue.time b) latest from h none
  induction l with
  | nil => intro latest; rfl
  | cons current rest ih =>
    intro latest
    unfold latestValue
    by_cases hn : QVariant.isNull current.value = true
    · rw [if_pos hn, ih, List.filter_cons_of_neg (by simp [hn])]
    · rw [if_neg hn, List.filter_cons_of_pos (by simpa using hn), List.foldl_cons]
      cases latest with
      | none => exact ih _
      | some l =>
        simp only [ih, List.argAux, TimedValue.lt, decide_eq_true_eq]

namespace PropertyHandle

variable {P K V : Type}

/-- A handle that nobody has subscribed yet. -/
def init [QVariant V] : PropertyHandle P V := ⟨∅, [], 0, QVariant.invalid⟩

/-- The end of `onValueChanged`, under the lock: stores the value if it differs.  The result tells
whether `valueChanged` is emitted. -/
def changeValue [QVariant V] (newValue : V) (h : PropertyHandle P V) : PropertyHandle P V × Bool :=
  if differs h.myValue newValue then ({ h with myValue := newValue }, true) else (h, false)

/-- Recomputes the value from those of the providers, checks its type and changes it. -/
def onValueChanged [QVariant V] (cfg : Setup P K V) (key : K) (get : P → TimedValue V)
    (h : PropertyHandle P V) : PropertyHandle P V × Bool :=
  let newValue :=
    match latestValue none (h.myProviders.map get) with
    | none => QVariant.invalid
    | some latest => latest.value
  if cfg.typeCheckEnabled && !QVariant.isNull newValue && !cfg.typeCheck key newValue then
    (h, false)
  else h.changeValue newValue

/-- The newest of the values the providers hold for the key, the invalid one if there is none. -/
def newestValue [QVariant V] (h : PropertyHandle P V) (get : P → TimedValue V) : V :=
  match latestValue none (h.myProviders.map get) with
  | none => QVariant.invalid
  | some latest => latest.value

theorem onValueChanged_eq_newestValue [QVariant V] (cfg : Setup P K V) (key : K)
    (get : P → TimedValue V) (h : PropertyHandle P V) :
    h.onValueChanged cfg key get =
      if cfg.typeCheckEnabled && !QVariant.isNull (h.newestValue get) &&
        !cfg.typeCheck key (h.newestValue get) then (h, false)
      else h.changeValue (h.newestValue get) := rfl

/-- `provider` has finished subscribing to the key of this handle. -/
def setSubscribeFinished [DecidableEq P] (h : PropertyHandle P V) (provider : P) :
    PropertyHandle P V :=
  { h with pendingSubscriptions := h.pendingSubscriptions.erase provider }

/-- Whether a caller of `waitForSubscription` still has to wait. -/
def isSubscribePending [QVariant V] [DecidableEq P] (cfg : Setup P K V)
    (commanderListener : DBusNameListener) (h : PropertyHandle P V) : Bool :=
  if cfg.commandingEnabled && decide (commanderListener.servicePresent = .unknown) then true
  else if !QVariant.isNull h.myValue then false
  else decide (h.pendingSubscriptions ≠ ∅)

end PropertyHandle

section

variable {P K V : Type} [DecidableEq P] [DecidableEq K]

/-- `provider->subscribe(myKey)` for each provider of a list, collecting those whose answer has to
be waited for. -/
def subscribeEach (key : K) :
    List P → (P → Session K V) × Finset P → (P → Session K V) × Finset P
  | [], r => r
  | p :: ps, (ss, pending) =>
    let r := (ss p).subscribe key
    subscribeEach key ps
      (Function.update ss p r.1, if r.2 then insert p pending else pending)

/-- `provider->unsubscribe(myKey)` for each provider of a list. -/
def unsubscribeEach (key : K) : List P → (P → Session K V) → (P → Session K V)
  | [], ss => ss
  | p :: ps, ss => unsubscribeEach key ps (Function.update ss p ((ss p).unsubscribe key))

/-- All providers and handles, and the presence of the commander. -/
structure World (P K V : Type) where
  sessions : P → Session K V
  handles : K → PropertyHandle P V
  commanderListener : DBusNameListener

/-- What can happen. -/
inductive WorldEvent (P K V : Type)
  | subscribe (key : K)
  | unsubscribe (key : K)
  | updateProvider (key : K) (infos : List P)
  | commander (presence : ServicePresence)
  | plugin (provider : P) (e : PluginEvent K V)

namespace World

/-- Nothing subscribed and no plugin ready. -/
def init [QVariant V] : World P K V := ⟨fun _ => Session.init, fun _ => PropertyHandle.init, .init⟩

/-- The value of `key` at each provider. -/
def get [QVariant V] (ss : P → Session K V) (key : K) : P → TimedValue V :=
  fun p => (ss p).provider.get key

/-- `PropertyHandle::subscribe` -/
def subscribe (w : World P K V) (key : K) : World P K V :=
  let h := w.handles key
  if h.subscribeCount + 1 = 1 then
    let r := subscribeEach key h.myProviders (w.sessions, ∅)
    { w with
      sessions := r.1
      handles := Function.update w.handles key
        { h with subscribeCount := h.subscribeCount + 1, pendingSubscriptions := r.2 } }
  else
    { w with
      handles := Function.update w.handles key { h with subscribeCount := h.subscribeCount + 1 } }

/-- `PropertyHandle::unsubscribe` -/
def unsubscribe (w : World P K V) (key : K) : World P K V :=
  let h := w.handles key
  if h.subscribeCount - 1 = 0 then
    { w with
      sessions := unsubscribeEach key h.myProviders w.sessions
      handles := Function.update w.handles key
        { h with subscribeCount := h.subscribeCount - 1, pendingSubscriptions := ∅ } }
  else
    { w with
      handles := Function.update w.handles key { h with subscribeCount := h.subscribeCount - 1 } }

/-- The providers a handle is routed to: the commander alone while it is present, otherwise what the
registry lists. -/
def newProviders (cfg : Setup P K V) (w : World P K V) (infos : List P) : List P :=
  if cfg.commandingEnabled && decide (w.commanderListener.servicePresent = .present) then
    [cfg.commander]
  else infos

/-- The values of the commander are forgotten when a handle is routed to it. -/
def clearCommander (cfg : Setup P K V) (w : World P K V) : P → Session K V :=
  if cfg.commandingEnabled && decide (w.commanderListener.servicePresent = .present) then
    Function.update w.sessions cfg.commander
      { w.sessions cfg.commander with
        provider := (w.sessions cfg.commander).provider.clearValues }
  else w.sessions

/-- `PropertyHandle::updateProvider`, with the answer `infos` of the registry. -/
def updateProvider [QVariant V] (cfg : Setup P K V) (w : World P K V) (key : K) (infos : List P) :
    World P K V :=
  let h := w.handles key
  let providers := newProviders cfg w infos
  let ss := clearCommander cfg w
  if 0 < h.subscribeCount then
    let r := subscribeEach key providers (unsubscribeEach key h.myProviders ss, ∅)
    let h' := { h with pendingSubscriptions := r.2, myProviders := providers }
    { w with
      sessions := r.1
      handles := Function.update w.handles key
        (if r.2 = ∅ then (h'.onValueChanged cfg key (get r.1 key)).1 else h') }
  else
    { w with
      sessions := ss
      handles := Function.update w.handles key { h with myProviders := providers } }

/-- The slots the handles run on the signals of a provider. -/
def route [QVariant V] (cfg : Setup P K V) (w : World P K V) (provider : P) (o : Signals K) :
    World P K V :=
  { w with
    handles := fun k =>
      let h := w.handles k
      let h := if k ∈ o.finished then h.setSubscribeFinished provider else h
      if k ∈ o.changed then (h.onValueChanged cfg k (get w.sessions k)).1 else h }

/-- One event.  A handle is never unsubscribed more often than it was subscribed. -/
def step [QVariant V] (cfg : Setup P K V) (w : World P K V) :
    WorldEvent P K V → Option (World P K V)
  | .subscribe key => some (w.subscribe key)
  | .unsubscribe key =>
    if 0 < (w.handles key).subscribeCount then some (w.unsubscribe key) else none
  | .updateProvider key infos => some (w.updateProvider cfg key infos)
  | .commander presence => some { w with commanderListener := ⟨presence⟩ }
  | .plugin provider e =>
    ((w.sessions provider).pluginStep e).map fun r =>
      route cfg { w with sessions := Function.update w.sessions provider r.1 } provider r.2

end World

end

end ContextSubscriber
