import Mathlib.Data.Multiset.MapFold
import ContextKit.Subscriber.DBusNameListener
import ContextKit.Subscriber.Provider

/-!
# `ContextKitPlugin`: the plugin that talks to providers on D-Bus

On the new protocol every key is an object of its own, and the plugin calls `Subscribe` and
`Unsubscribe` on it.  `Unsubscribe` is called at once.  `Subscribe` is put off: `subscribe` notes
the key in `pendingKeys` and queues a call of `newSubscribe`, which does the work if the key is
still noted; `blockUntilSubscribed` does not wait for the queue.

The record below holds the fields of the class together with what the slots leave behind outside of
it: the queued calls, the connected signals, the calls made on each object, and the watchers of the
`Subscribe` calls, in the order they were made.  A watcher is known by its place in that order.
-/

namespace ContextSubscriber
open ContextKit

/-- The characters an object path may consist of. -/
def isPathChar (c : Char) : Bool := c.isAlphanum || c = '_' || c = '/'

/-- The object path of a key.  Other characters become underscores, one for each UTF-16 unit. -/
def keyToPath (key : String) : String :=
  if key.toList.head? = some '/' then key
  else
    "/org/maemo/contextkit/" ++ String.ofList (key.toList.flatMap fun c =>
      if c = '.' then ['/'] else if isPathChar c then [c]
      else if c.toNat < 0x10000 then ['_'] else ['_', '_'])

/-- The methods of a property object. -/
inductive Member
  | subscribe
  | unsubscribe
  deriving DecidableEq

/-- The fields of `ContextKitPlugin`, and the traces of its slots. -/
structure ContextKitPlugin where
  defaultNewProtocol : Bool
  newProtocol : Bool
  managerInterface : Bool
  /-- The subscriber object of the old protocol, with the calls it has got, or a null pointer. -/
  subscriberInterface : Option (List (PluginCall String))
  objectPathToKey : String → Option String
  pendingWatchers : String → Option ℕ
  pendingKeys : Finset String
  /-- The queued calls of `newSubscribe`. -/
  queued : Multiset String
  /-- The object paths whose `ValueChanged` is connected. -/
  connections : Finset String
  /-- The calls made on each object path. -/
  calls : String → List Member
  /-- The keys of the `Subscribe` calls, in order. -/
  watchers : List String
  /-- The `Subscribe` calls that have got no reply yet. -/
  unfinished : Finset ℕ

namespace ContextKitPlugin

/-- The object as the constructor leaves it, for a bus name spoken to by the new protocol.  (The
call of `onProviderAppeared` it queues is not counted here.) -/
def init : ContextKitPlugin where
  defaultNewProtocol := true
  newProtocol := true
  managerInterface := false
  subscriberInterface := none
  objectPathToKey := fun _ => none
  pendingWatchers := fun _ => none
  pendingKeys := ∅
  queued := 0
  connections := ∅
  calls := fun _ => []
  watchers := []
  unfinished := ∅

/-- `reset`.  The `disconnect` names the empty path, and so ends no connection made for a key. -/
def reset (p : ContextKitPlugin) : ContextKitPlugin :=
  { p with
    subscriberInterface := none
    managerInterface := false
    newProtocol := p.defaultNewProtocol
    connections := p.connections.erase "" }

/-- The body of the loop of `subscribe`. -/
def subscribeKey (p : ContextKitPlugin) (key : String) : ContextKitPlugin :=
  { p with pendingKeys := insert key p.pendingKeys, queued := key ::ₘ p.queued }

/-- The body of the loop of `unsubscribe`. -/
def unsubscribeKey (p : ContextKitPlugin) (key : String) : ContextKitPlugin :=
  let objectPath := keyToPath key
  { p with
    objectPathToKey := Function.update p.objectPathToKey objectPath none
    calls := Function.update p.calls objectPath (p.calls objectPath ++ [.unsubscribe])
    connections := p.connections.erase objectPath }

/-- The order in which a set of keys is gone through makes no difference to `subscribe`. -/
instance : RightCommutative subscribeKey where
  right_comm p k l := by
    simp only [subscribeKey, Finset.insert_comm k l, Multiset.cons_swap k l]

/-- Nor does it to `unsubscribe`. -/
instance : RightCommutative unsubscribeKey where
  right_comm p k l := by
    have h₁ : ((p.connections.erase (keyToPath k)).erase (keyToPath l)) =
        ((p.connections.erase (keyToPath l)).erase (keyToPath k)) := Finset.erase_right_comm
    rcases eq_or_ne (keyToPath k) (keyToPath l) with h | h
    · simp only [unsubscribeKey, h]
    · simp only [unsubscribeKey, h₁, Function.update_comm h, Function.update_of_ne h,
        Function.update_of_ne h.symm]

/-- `subscribe` -/
def subscribe (p : ContextKitPlugin) (keys : Finset String) : ContextKitPlugin :=
  if p.newProtocol then keys.val.foldl subscribeKey p
  else { p with subscriberInterface := p.subscriberInterface.map (· ++ [.subscribe keys]) }

/-- `unsubscribe` -/
def unsubscribe (p : ContextKitPlugin) (keys : Finset String) : ContextKitPlugin :=
  if p.newProtocol then keys.val.foldl unsubscribeKey p
  else { p with subscriberInterface := p.subscriberInterface.map (· ++ [.unsubscribe keys]) }

/-- `newSubscribe`, unless the key has been handled already. -/
def newSubscribe (p : ContextKitPlugin) (key : String) : ContextKitPlugin :=
  if key ∈ p.pendingKeys then
    let objectPath := keyToPath key
    { p with
      pendingKeys := p.pendingKeys.erase key
      objectPathToKey := Function.update p.objectPathToKey objectPath (some key)
      calls := Function.update p.calls objectPath (p.calls objectPath ++ [.subscribe])
      connections := insert objectPath p.connections
      watchers := p.watchers ++ [key]
      pendingWatchers := Function.update p.pendingWatchers key (some p.watchers.length)
      unfinished := insert p.watchers.length p.unfinished }
  else p

/-- A queued call of `newSubscribe` is delivered. -/
def deliverNewSubscribe (p : ContextKitPlugin) (key : String) : ContextKitPlugin :=
  { p with queued := p.queued.erase key }.newSubscribe key

/-- `removePendingWatcher` -/
def removePendingWatcher (p : ContextKitPlugin) (key : String) : ContextKitPlugin :=
  { p with pendingWatchers := Function.update p.pendingWatchers key none }

/-- `PendingSubscribeWatcher::onFinished`, for the reply to the call `id`: whether it is an error
or not, the watcher of the key is removed. -/
def onFinished (p : ContextKitPlugin) (id : ℕ) : ContextKitPlugin :=
  match p.watchers[id]? with
  | none => p
  | some key => { p with unfinished := p.unfinished.erase id }.removePendingWatcher key

/-- The loop of `blockUntilSubscribed`, which takes the keys in some `order`. -/
def flush (p : ContextKitPlugin) (order : List String) : ContextKitPlugin :=
  if p.newProtocol then order.foldl newSubscribe p else p

/-- `blockUntilSubscribed`: the subscriptions that were put off are made now, and then the reply to
the one of `key` is waited for and handled. -/
def blockUntilSubscribed (p : ContextKitPlugin) (key : String) (order : List String) :
    ContextKitPlugin :=
  match (p.flush order).pendingWatchers key with
  | none => p.flush order
  | some id => (p.flush order).onFinished id

/-- `useNewProtocol`.  The result tells whether `ready` is emitted. -/
def useNewProtocol (p : ContextKitPlugin) (providerListener : DBusNameListener) :
    ContextKitPlugin × Bool :=
  ({ p with newProtocol := true }, decide (providerListener.servicePresent ≠ .notPresent))

/-- `onProviderAppeared`.  On the old protocol the subscriber object is asked for, and nothing is
emitted before the answer. -/
def onProviderAppeared (p : ContextKitPlugin) (providerListener : DBusNameListener) :
    ContextKitPlugin × Bool :=
  if p.reset.defaultNewProtocol then p.reset.useNewProtocol providerListener
  else ({ p.reset with managerInterface := true }, false)

/-- `onProviderDisappeared`; `failed` is emitted. -/
def onProviderDisappeared (p : ContextKitPlugin) : ContextKitPlugin := p.reset

/-- `blockUntilReady` -/
def blockUntilReady (p : ContextKitPlugin) (providerListener : DBusNameListener) :
    ContextKitPlugin × Bool :=
  p.onProviderAppeared providerListener

/-! ### The effect of each slot on the fields -/

section

variable (p : ContextKitPlugin)

theorem foldl_subscribeKey (m : Multiset String) :
    m.foldl subscribeKey p =
      { p with pendingKeys := m.toFinset ∪ p.pendingKeys, queued := m + p.queued } := by
  induction m using Multiset.induction_on generalizing p with
  | empty =>
    rw [Multiset.foldl_zero, Multiset.toFinset_zero, Finset.empty_union, Multiset.zero_add]
  | cons k m ih =>
    rw [Multiset.foldl_cons, ih]
    simp [subscribeKey]

theorem subscribe_of_newProtocol (h : p.newProtocol = true) (keys : Finset String) :
    p.subscribe keys =
      { p with pendingKeys := keys ∪ p.pendingKeys, queued := keys.val + p.queued } := by
  rw [subscribe, if_pos h, foldl_subscribeKey, Finset.val_toFinset]

theorem foldl_unsubscribeKey (m : Multiset String) :
    m.foldl unsubscribeKey p = { p with
      objectPathToKey := fun path => if path ∈ m.map keyToPath then none else p.objectPathToKey path
      calls := fun path =>
        p.calls path ++ List.replicate ((m.map keyToPath).count path) .unsubscribe
      connections := p.connections.filter (· ∉ m.map keyToPath) } := by
  induction m using Multiset.induction_on generalizing p with
  | empty =>
    rw [Multiset.foldl_zero]
    simp
  | cons k m ih =>
    rw [Multiset.foldl_cons, ih]
    have h₁ : (fun path => if path ∈ m.map keyToPath then none
        else Function.update p.objectPathToKey (keyToPath k) none path) =
        fun path => if path ∈ (k ::ₘ m).map keyToPath then none else p.objectPathToKey path := by
      funext path
      rcases eq_or_ne path (keyToPath k) with rfl | h
      · simp only [Function.update_self, Multiset.map_cons, Multiset.mem_cons, true_or, if_true,
          ite_self]
      · simp only [Function.update_of_ne h, Multiset.map_cons, Multiset.mem_cons, h, false_or]
    have h₂ : (fun path =>
        Function.update p.calls (keyToPath k) (p.calls (keyToPath k) ++ [.unsubscribe]) path ++
          List.replicate ((m.map keyToPath).count path) .unsubscribe) =
        fun path => p.calls path ++
          List.replicate (((k ::ₘ m).map keyToPath).count path) .unsubscribe := by
      funext path
      rcases eq_or_ne path (keyToPath k) with rfl | h
      · rw [Function.update_self, Multiset.map_cons, Multiset.count_cons_self,
          List.replicate_succ, List.append_assoc, List.singleton_append]
      · rw [Function.update_of_ne h, Multiset.map_cons, Multiset.count_cons_of_ne h]
    have h₃ : (p.connections.erase (keyToPath k)).filter (· ∉ m.map keyToPath) =
        p.connections.filter (· ∉ (k ::ₘ m).map keyToPath) := by
      ext path
      simp only [Finset.mem_filter, Finset.mem_erase, Multiset.map_cons, Multiset.mem_cons, not_or]
      rw [and_assoc, and_left_comm]
    simp only [unsubscribeKey, h₁, h₂, h₃]

/-- Unsubscribing changes nothing that belongs to the subscriptions that were put off. -/
theorem unsubscribe_of_newProtocol (h : p.newProtocol = true) (keys : Finset String) :
    p.unsubscribe keys = { p with
      objectPathToKey := (p.unsubscribe keys).objectPathToKey
      calls := (p.unsubscribe keys).calls
      connections := (p.unsubscribe keys).connections } := by
  rw [unsubscribe, if_pos h, foldl_unsubscribeKey]

theorem unsubscribe_pendingKeys (h : p.newProtocol = true) (keys : Finset String) :
    (p.unsubscribe keys).pendingKeys = p.pendingKeys := by
  rw [unsubscribe_of_newProtocol p h]

theorem unsubscribe_queued (h : p.newProtocol = true) (keys : Finset String) :
    (p.unsubscribe keys).queued = p.queued := by
  rw [unsubscribe_of_newProtocol p h]

theorem newSubscribe_of_notMem {key : String} (h : key ∉ p.pendingKeys) :
    p.newSubscribe key = p := if_neg h

@[simp] theorem newSubscribe_newProtocol (key : String) :
    (p.newSubscribe key).newProtocol = p.newProtocol := by
  unfold newSubscribe
  split_ifs <;> rfl

@[simp] theorem newSubscribe_queued (key : String) :
    (p.newSubscribe key).queued = p.queued := by
  unfold newSubscribe
  split_ifs <;> rfl

@[simp] theorem newSubscribe_pendingKeys (key : String) :
    (p.newSubscribe key).pendingKeys = p.pendingKeys.erase key := by
  unfold newSubscribe
  split_ifs with h
  · rfl
  · rw [Finset.erase_eq_of_notMem h]

/-- A reply touches the watchers only. -/
theorem onFinished_eq (id : ℕ) :
    p.onFinished id = { p with
      pendingWatchers := (p.onFinished id).pendingWatchers
      unfinished := (p.onFinished id).unfinished } := by
  unfold onFinished
  cases p.watchers[id]? <;> rfl

end

end ContextKitPlugin

end ContextSubscriber
