import Mathlib.Data.Finset.Sort
import Mathlib.Data.String.Basic
import ContextKit.Subscriber.Resolution

/-!
# Which value a finished subscription shows

A subscription finishes in one of three ways: a `PendingSubscribeWatcher` gets the reply of the new
protocol, a `SubscriberInterface` that of the old one, for any number of keys, or a plugin emits
`subscribeFinished` with a value.  All slots on the way are connected directly, so a reply is one
chain of calls through `Provider` and `HandleSignalRouter` down to the handles.  `Routing` runs that
chain and records what can be seen at each call of `setSubscribeFinished`.
-/

namespace ContextSubscriber
open ContextKit

variable {P K V : Type}

/-- What can be seen when `setSubscribeFinished` is called for `key`. -/
structure Moment (P K V : Type) where
  key : K
  providers : P → Provider K V
  handle : PropertyHandle P V

/-- The providers and the handles, and the calls of `setSubscribeFinished` so far. -/
structure Routing (P K V : Type) where
  providers : P → Provider K V
  handles : K → PropertyHandle P V
  released : List (Moment P K V)

/-- A `QMap` from keys to values. -/
structure ValueMap (K V : Type) where
  keys : Finset K
  value : K → V

/-- `SubscriberInterface::mergeNullsWithMap`: keys without a value are entered with null. -/
def ValueMap.mergeNulls [QVariant V] [DecidableEq K] (map : ValueMap K V) (nulls : List K) :
    ValueMap K V :=
  nulls.foldl (fun map null =>
    if null ∈ map.keys then map
    else ⟨insert null map.keys, Function.update map.value null QVariant.invalid⟩) map

/-- The replies by which a subscription finishes.  Values without a time stamp are stamped on
arrival, with what the clock shows then. -/
inductive Reply (K V : Type)
  | pendingSubscribe (key : K) (value : List V) (timestamp : ℕ)
  | subscriber (requestedKeys : Finset K) (subscribeTimeValues : ValueMap K V) (unknowns : List K)
      (clock : K → ℕ)
  | plugin (key : K) (value : TimedValue V)

/-- `createTimedValue`: no value at all stands for null. -/
def createTimedValue [QVariant V] (value : List V) (time : ℕ) : TimedValue V :=
  ⟨value.head?.getD QVariant.invalid, time⟩

/-- The value a reply carries for a key. -/
def Reply.carried [QVariant V] [DecidableEq K] : Reply K V → K → Option V
  | .pendingSubscribe k value timestamp, key =>
    if key = k then some (createTimedValue value timestamp).value else none
  | .subscriber _ subscribeTimeValues unknowns _, key =>
    let okMap := subscribeTimeValues.mergeNulls unknowns
    if key ∈ okMap.keys then some (okMap.value key) else none
  | .plugin k value, key => if key = k then some value.value else none

namespace Routing

variable [QVariant V] [DecidableEq P]

section

variable [DecidableEq K]

/-- `HandleSignalRouter::onSubscribeFinished` -/
def onSubscribeFinished (s : Routing P K V) (provider : P) (key : K) : Routing P K V :=
  { s with
    handles := Function.update s.handles key ((s.handles key).setSubscribeFinished provider)
    released := s.released ++ [⟨key, s.providers, s.handles key⟩] }

/-- `HandleSignalRouter::onValueChanged` -/
def onValueChanged (cfg : Setup P K V) (s : Routing P K V) (key : K) : Routing P K V :=
  { s with
    handles := Function.update s.handles key
      ((s.handles key).onValueChanged cfg key fun q => (s.providers q).get key).1 }

/-- `Provider::signalSubscribeFinished` -/
def signalSubscribeFinished (s : Routing P K V) (provider : P) (key : K) : Routing P K V :=
  if key ∈ (s.providers provider).signalSubscribeFinished key then
    s.onSubscribeFinished provider key
  else s

/-- `Provider::onPluginValueChanged` -/
def onPluginValueChanged (cfg : Setup P K V) (s : Routing P K V) (provider : P) (key : K)
    (newValue : TimedValue V) : Routing P K V :=
  let r := (s.providers provider).onPluginValueChanged key newValue
  let s := { s with providers := Function.update s.providers provider r.1 }
  if key ∈ r.2 then s.onValueChanged cfg key else s

/-- `Provider::onPluginSubscribeFinished`, the overload with a value. -/
def onPluginSubscribeFinished (cfg : Setup P K V) (s : Routing P K V) (provider : P) (key : K)
    (value : TimedValue V) : Routing P K V :=
  (s.signalSubscribeFinished provider key).onPluginValueChanged cfg provider key value

/-- `PendingSubscribeWatcher::onFinished` without an error. -/
def onPendingSubscribeFinished (cfg : Setup P K V) (s : Routing P K V) (provider : P) (key : K)
    (value : List V) (timestamp : ℕ) : Routing P K V :=
  let s := s.onPluginValueChanged cfg provider key (createTimedValue value timestamp)
  s.signalSubscribeFinished provider key

/-- `ContextKitPlugin::onDBusSubscribeFinished`, and `onDBusSubscribeFailed` as well: the provider
does the same on `subscribeFailed`. -/
def onDBusSubscribeFinished (s : Routing P K V) (provider : P) (keys : List K) : Routing P K V :=
  keys.foldl (fun s key => s.signalSubscribeFinished provider key) s

/-- `ContextKitPlugin::onDBusValuesChanged` -/
def onDBusValuesChanged (cfg : Setup P K V) (s : Routing P K V) (provider : P) (keys : List K)
    (value : K → V) (clock : K → ℕ) : Routing P K V :=
  keys.foldl (fun s key => s.onPluginValueChanged cfg provider key ⟨value key, clock key⟩) s

end

variable [LinearOrder K]

/-- `SubscriberInterface::onSubscribeFinished` without an error.  (The keys that fail are a `QSet`,
in no particular order.) -/
def onSubscriberFinished (cfg : Setup P K V) (s : Routing P K V) (provider : P)
    (requestedKeys : Finset K) (subscribeTimeValues : ValueMap K V) (unknowns : List K)
    (clock : K → ℕ) : Routing P K V :=
  let okMap := subscribeTimeValues.mergeNulls unknowns
  let s := s.onDBusSubscribeFinished provider (okMap.keys.sort (· ≤ ·))
  let s := s.onDBusValuesChanged cfg provider (okMap.keys.sort (· ≤ ·)) okMap.value clock
  s.onDBusSubscribeFinished provider ((requestedKeys \ okMap.keys).sort (· ≤ ·))

/-- A reply arrives for the plugin of `provider`. -/
def complete (cfg : Setup P K V) (s : Routing P K V) (provider : P) : Reply K V → Routing P K V
  | .pendingSubscribe key value timestamp =>
    s.onPendingSubscribeFinished cfg provider key value timestamp
  | .subscriber requestedKeys subscribeTimeValues unknowns clock =>
    s.onSubscriberFinished cfg provider requestedKeys subscribeTimeValues unknowns clock
  | .plugin key value => s.onPluginSubscribeFinished cfg provider key value

end Routing

/-- The provider has the value `v` cached, and the value of the handle is the newest one that its
providers have cached, as far as the comparison of values tells. -/
def Moment.Shows [QVariant V] [DecidableEq K] (provider : P) (v : V) (m : Moment P K V) : Prop :=
  ((m.providers provider).get m.key).value = v ∧
    Alike m.handle.myValue (m.handle.newestValue fun q => (m.providers q).get m.key)

/-- The values of `key` once `provider` has stored `newValue`. -/
def Routing.stored [QVariant V] [DecidableEq P] [DecidableEq K] (s : Routing P K V) (provider : P)
    (key : K) (newValue : TimedValue V) : P → TimedValue V :=
  Function.update (fun q => (s.providers q).get key) provider newValue

/-- What a reply carries will show.  One of the new protocol is stored before it is announced, and
the handle then has the newest value unless the type check refuses that (and the handle had another
one).  Any other reply is announced first, so for every key that is still subscribed what it carries
has to show before it arrives. -/
def Reply.WillShow [QVariant V] [DecidableEq P] [DecidableEq K] (cfg : Setup P K V)
    (s : Routing P K V) (provider : P) : Reply K V → Prop
  | .pendingSubscribe key value timestamp =>
    let newest := (s.handles key).newestValue
      (s.stored provider key (createTimedValue value timestamp))
    key ∈ (s.providers provider).subscribedKeys →
      cfg.Accepts key newest ∨ Alike (s.handles key).myValue newest
  | r => ∀ key v, r.carried key = some v → key ∈ (s.providers provider).subscribedKeys →
      (⟨key, s.providers, s.handles key⟩ : Moment P K V).Shows provider v

/-! ### The slots -/

/-- A handle that hears of its providers' values has the newest of them, unless that is refused. -/
theorem PropertyHandle.alike_onValueChanged_iff [QVariant V] (cfg : Setup P K V) (key : K)
    (get : P → TimedValue V) (h : PropertyHandle P V) :
    Alike (h.onValueChanged cfg key get).1.myValue (h.newestValue get) ↔
      cfg.Accepts key (h.newestValue get) ∨ Alike h.myValue (h.newestValue get) := by
  have hchange : Alike (h.changeValue (h.newestValue get)).1.myValue (h.newestValue get) := by
    unfold changeValue
    split_ifs with hd
    · exact Alike.refl _
    · exact .of_differs (by simpa using hd)
  have hacc := cfg.accepts_iff key (h.newestValue get)
  rw [onValueChanged_eq_newestValue]
  by_cases ha : cfg.Accepts key (h.newestValue get)
  · rw [if_neg (ne_true_of_eq_false (hacc.1 ha))]
    exact iff_of_true hchange (Or.inl ha)
  · rw [if_pos ((Bool.not_eq_false _).mp (mt hacc.2 ha)), or_iff_right ha]

@[simp] theorem PropertyHandle.onValueChanged_myProviders [QVariant V] (cfg : Setup P K V) (key : K)
    (get : P → TimedValue V) (h : PropertyHandle P V) :
    (h.onValueChanged cfg key get).1.myProviders = h.myProviders := by
  rw [onValueChanged_eq_newestValue]
  unfold changeValue
  split_ifs <;> rfl

namespace Routing

variable [QVariant V] [DecidableEq P]

section

variable [DecidableEq K]

omit [QVariant V] in
theorem signalSubscribeFinished_of_mem {s : Routing P K V} {provider : P} {key : K}
    (h : key ∈ (s.providers provider).subscribedKeys) :
    s.signalSubscribeFinished provider key = s.onSubscribeFinished provider key :=
  if_pos ((Provider.mem_signalSubscribeFinished _ _).2 ⟨rfl, h⟩)

omit [QVariant V] in
theorem signalSubscribeFinished_of_notMem {s : Routing P K V} {provider : P} {key : K}
    (h : key ∉ (s.providers provider).subscribedKeys) :
    s.signalSubscribeFinished provider key = s :=
  if_neg fun hk => h ((Provider.mem_signalSubscribeFinished _ _).1 hk).2

theorem onPluginValueChanged_of_mem (cfg : Setup P K V) {s : Routing P K V} {provider : P} {key : K}
    (newValue : TimedValue V) (h : key ∈ (s.providers provider).subscribedKeys) :
    s.onPluginValueChanged cfg provider key newValue =
      onValueChanged cfg
        { s with
          providers := Function.update s.providers provider
            { s.providers provider with
              values := Function.update (s.providers provider).values key (some newValue) } }
        key := by
  simp only [onPluginValueChanged, Provider.onPluginValueChanged, if_pos h, Finset.mem_singleton,
    if_true]

theorem onPluginValueChanged_of_notMem (cfg : Setup P K V) {s : Routing P K V} {provider : P}
    {key : K} (newValue : TimedValue V) (h : key ∉ (s.providers provider).subscribedKeys) :
    s.onPluginValueChanged cfg provider key newValue = s := by
  simp only [onPluginValueChanged, Provider.onPluginValueChanged, if_neg h, Finset.notMem_empty,
    if_false, Function.update_eq_self]

@[simp] theorem onPluginValueChanged_released (cfg : Setup P K V) (s : Routing P K V) (provider : P)
    (key : K) (newValue : TimedValue V) :
    (s.onPluginValueChanged cfg provider key newValue).released = s.released := by
  by_cases h : key ∈ (s.providers provider).subscribedKeys
  · rw [onPluginValueChanged_of_mem cfg newValue h]; rfl
  · rw [onPluginValueChanged_of_notMem cfg newValue h]

@[simp] theorem onPluginValueChanged_subscribedKeys (cfg : Setup P K V) (s : Routing P K V)
    (provider : P) (key : K) (newValue : TimedValue V) :
    ((s.onPluginValueChanged cfg provider key newValue).providers provider).subscribedKeys =
      (s.providers provider).subscribedKeys := by
  by_cases h : key ∈ (s.providers provider).subscribedKeys
  · rw [onPluginValueChanged_of_mem cfg newValue h]
    simp [onValueChanged]
  · rw [onPluginValueChanged_of_notMem cfg newValue h]

theorem onDBusValuesChanged_released (cfg : Setup P K V) (s : Routing P K V) (provider : P)
    (keys : List K) (value : K → V) (clock : K → ℕ) :
    (s.onDBusValuesChanged cfg provider keys value clock).released = s.released := by
  induction keys generalizing s with
  | nil => rfl
  | cons key keys ih =>
    show ((s.onPluginValueChanged cfg provider key _).onDBusValuesChanged cfg provider keys value
      clock).released = s.released
    rw [ih, onPluginValueChanged_released]

omit [QVariant V] in
/-- Announcing keys, none of them twice, shows each that is subscribed as it was before. -/
theorem onDBusSubscribeFinished_released (s : Routing P K V) (provider : P) {keys : List K}
    (hkeys : keys.Nodup) :
    (s.onDBusSubscribeFinished provider keys).released =
      s.released ++ (keys.filter (· ∈ (s.providers provider).subscribedKeys)).map
        fun key => ⟨key, s.providers, s.handles key⟩ := by
  induction keys generalizing s with
  | nil => simp [onDBusSubscribeFinished]
  | cons key keys ih =>
    obtain ⟨hkey, hkeys⟩ := List.nodup_cons.1 hkeys
    show ((s.signalSubscribeFinished provider key).onDBusSubscribeFinished provider
      keys).released = _
    rw [ih _ hkeys]
    by_cases h : key ∈ (s.providers provider).subscribedKeys
    · rw [signalSubscribeFinished_of_mem h, List.filter_cons_of_pos (by simpa using h)]
      simp only [onSubscribeFinished, List.map_cons, List.append_assoc, List.singleton_append]
      congr 2
      refine List.map_congr_left fun k hk => ?_
      have hne : k ≠ key := fun he => hkey (he ▸ List.mem_of_mem_filter hk)
      rw [Function.update_of_ne hne]
    · rw [signalSubscribeFinished_of_notMem h, List.filter_cons_of_neg (by simpa using h)]

omit [QVariant V] in
theorem mem_onDBusSubscribeFinished {s : Routing P K V} {provider : P} {keys : List K}
    (hkeys : keys.Nodup) {m : Moment P K V} :
    m ∈ (s.onDBusSubscribeFinished provider keys).released ↔
      m ∈ s.released ∨ m.key ∈ keys ∧ m.key ∈ (s.providers provider).subscribedKeys ∧
        m = ⟨m.key, s.providers, s.handles m.key⟩ := by
  rw [onDBusSubscribeFinished_released s provider hkeys, List.mem_append, List.mem_map]
  refine or_congr_right ⟨?_, fun ⟨hk, hs, hm⟩ => ⟨m.key, by simpa using ⟨hk, hs⟩, hm.symm⟩⟩
  rintro ⟨key, hkey, rfl⟩
  obtain ⟨hk, hs⟩ := List.mem_filter.1 hkey
  exact ⟨hk, by simpa using hs, rfl⟩

/-! ### The three replies -/

theorem key_of_mem_pendingSubscribe {cfg : Setup P K V} {s : Routing P K V} (hs : s.released = [])
    {provider : P} {key : K} {value : List V} {timestamp : ℕ} {m : Moment P K V}
    (hm : m ∈ (s.onPendingSubscribeFinished cfg provider key value timestamp).released) :
    m.key = key := by
  unfold onPendingSubscribeFinished at hm
  by_cases h : key ∈ (s.providers provider).subscribedKeys
  · rw [signalSubscribeFinished_of_mem (by simpa using h)] at hm
    simp only [onSubscribeFinished, onPluginValueChanged_released, hs, List.nil_append,
      List.mem_singleton] at hm
    rw [hm]
  · rw [signalSubscribeFinished_of_notMem (by simpa using h), onPluginValueChanged_released,
      hs] at hm
    cases hm

/-- The new protocol stores the value, then announces it. -/
theorem shows_pendingSubscribe_iff (cfg : Setup P K V) {s : Routing P K V} (hs : s.released = [])
    (provider : P) (key : K) (value : List V) (timestamp : ℕ) :
    (∀ m ∈ (s.onPendingSubscribeFinished cfg provider key value timestamp).released,
        m.Shows provider (createTimedValue value timestamp).value) ↔
      Reply.WillShow cfg s provider (.pendingSubscribe key value timestamp) := by
  unfold onPendingSubscribeFinished Reply.WillShow
  by_cases h : key ∈ (s.providers provider).subscribedKeys
  · rw [signalSubscribeFinished_of_mem (by simpa using h)]
    simp only [onSubscribeFinished, onPluginValueChanged_released, hs, List.nil_append,
      List.mem_singleton, forall_eq]
    rw [onPluginValueChanged_of_mem cfg _ h]
    -- What the providers have once the value is stored.
    have hget : (fun q => (Function.update s.providers provider { s.providers provider with
        values := Function.update (s.providers provider).values key
          (some (createTimedValue value timestamp)) } q).get key) =
        s.stored provider key (createTimedValue value timestamp) := by
      funext q
      rcases eq_or_ne q provider with rfl | hq
      · simp [stored, Provider.get]
      · simp [stored, hq]
    simp only [Moment.Shows, onValueChanged, Function.update_self, hget]
    rw [imp_iff_right h, ← PropertyHandle.alike_onValueChanged_iff]
    simp only [PropertyHandle.newestValue, PropertyHandle.onValueChanged_myProviders]
    exact and_iff_right (by simp [Provider.get])
  · rw [signalSubscribeFinished_of_notMem (by simpa using h), onPluginValueChanged_released, hs]
    simp [h]

/-- A plugin's own reply is announced, then stored. -/
theorem mem_pluginSubscribeFinished (cfg : Setup P K V) {s : Routing P K V} {provider : P} {key : K}
    {value : TimedValue V} {m : Moment P K V} :
    m ∈ (s.onPluginSubscribeFinished cfg provider key value).released ↔
      m ∈ s.released ∨ m.key = key ∧ key ∈ (s.providers provider).subscribedKeys ∧
        m = ⟨key, s.providers, s.handles key⟩ := by
  unfold onPluginSubscribeFinished
  rw [onPluginValueChanged_released]
  by_cases h : key ∈ (s.providers provider).subscribedKeys
  · rw [signalSubscribeFinished_of_mem h]
    simp only [onSubscribeFinished, List.mem_append, List.mem_singleton, h, true_and]
    exact or_congr_right ⟨fun hm => ⟨by rw [hm], hm⟩, fun hm => hm.2⟩
  · rw [signalSubscribeFinished_of_notMem h]
    simp [h]

end

/-- The old protocol announces all keys that have values, then stores the values, then announces
the keys that failed. -/
theorem mem_onSubscriberFinished [LinearOrder K] (cfg : Setup P K V) {s : Routing P K V}
    {provider : P} {requestedKeys : Finset K} {values : ValueMap K V} {unknowns : List K}
    {clock : K → ℕ} {m : Moment P K V} (hs : m ∉ s.released)
    (hkey : m.key ∈ (values.mergeNulls unknowns).keys) :
    m ∈ (s.onSubscriberFinished cfg provider requestedKeys values unknowns clock).released ↔
      m.key ∈ (s.providers provider).subscribedKeys ∧
        m = ⟨m.key, s.providers, s.handles m.key⟩ := by
  unfold onSubscriberFinished
  dsimp only
  rw [mem_onDBusSubscribeFinished (Finset.sort_nodup ..), onDBusValuesChanged_released,
    mem_onDBusSubscribeFinished (Finset.sort_nodup ..), Finset.mem_sort, Finset.mem_sort]
  constructor
  · rintro ((h | ⟨-, hsub, hm⟩) | ⟨hfailed, -, -⟩)
    · exact absurd h hs
    · exact ⟨hsub, hm⟩
    · exact absurd hkey (Finset.mem_sdiff.1 hfailed).2
  · exact fun ⟨hsub, hm⟩ => Or.inl (Or.inr ⟨hkey, hsub, hm⟩)

end Routing

/-- **When a finished subscription shows its value.**  At every call of `setSubscribeFinished` that
a reply leads to, the provider of that key has the value the reply carries for it and the handle
shows the newest of its providers' values, exactly if `WillShow` holds: the reply is one of the new
protocol and the newest value is then not refused, or all it carries for subscribed keys is shown
already before it arrives. -/
theorem shows_iff [QVariant V] [DecidableEq P] [LinearOrder K] {cfg : Setup P K V}
    {s : Routing P K V} {provider : P} {r : Reply K V} (hreleased : s.released = []) :
    (∀ m ∈ (s.complete cfg provider r).released, ∀ v, r.carried m.key = some v →
        m.Shows provider v) ↔ r.WillShow cfg s provider := by
  have hnot : ∀ m, m ∉ s.released := fun m => by rw [hreleased]; exact List.not_mem_nil
  cases r with
  | pendingSubscribe key value timestamp =>
    rw [← Routing.shows_pendingSubscribe_iff cfg hreleased]
    refine forall₂_congr fun m hm => ?_
    by_cases hkey : m.key = key
    · simp [Reply.carried, hkey]
    · exact absurd (Routing.key_of_mem_pendingSubscribe hreleased hm) hkey
  | subscriber requestedKeys values unknowns clock =>
    have hkeys : ∀ key v, (Reply.subscriber requestedKeys values unknowns clock).carried key =
        some v → key ∈ (values.mergeNulls unknowns).keys := by
      intro key v hv
      by_contra hkey
      simp [Reply.carried, hkey] at hv
    constructor
    · intro h key v hv hsub
      have hkey := hkeys key v hv
      exact h _ ((Routing.mem_onSubscriberFinished cfg (hnot _) hkey).2 ⟨hsub, rfl⟩) v hv
    · intro h m hm v hv
      obtain ⟨hsub, hm⟩ :=
        (Routing.mem_onSubscriberFinished cfg (hnot m) (hkeys m.key v hv)).1 hm
      have hshows := h m.key v hv hsub
      rwa [← hm] at hshows
  | plugin key value =>
    constructor
    · intro h k v hv hsub
      obtain rfl : k = key := by
        by_contra hne
        simp [Reply.carried, hne] at hv
      exact h _ ((Routing.mem_pluginSubscribeFinished cfg).2 (Or.inr ⟨rfl, hsub, rfl⟩)) v hv
    · intro h m hm v hv
      rcases (Routing.mem_pluginSubscribeFinished cfg).1 hm with hm | ⟨hkey, hsub, hm⟩
      · exact absurd hm (hnot m)
      · have hshows := h m.key v hv (hkey ▸ hsub)
        rw [hkey, ← hm] at hshows
        exact hshows

/-! ### A reply of the old protocol -/

/-- One provider of the key, subscribed to and without a value. -/
def waitingForTopEdge : Routing ℕ String (Option ℤ) where
  providers := fun _ => { Provider.init with subscribedKeys := {"Screen.TopEdge"} }
  handles := fun _ => ⟨{0}, [0], 1, none⟩
  released := []

def unchecked : Setup ℕ String (Option ℤ) := ⟨false, 0, false, fun _ _ => true⟩

/-- The old protocol's reply with one value. -/
def topEdgeReply (value : Option ℤ) : Reply String (Option ℤ) :=
  .subscriber {"Screen.TopEdge"} ⟨{"Screen.TopEdge"}, fun _ => value⟩ [] fun _ => 5

theorem shows_iff_topEdge :
    (∀ m ∈ (waitingForTopEdge.complete unchecked 0 (topEdgeReply none)).released, ∀ v,
        (topEdgeReply none).carried m.key = some v → m.Shows 0 v) ↔
      (topEdgeReply none).WillShow unchecked waitingForTopEdge 0 :=
  shows_iff rfl

/-- The reply carries the value 7, and the waiter is released while the cache is still empty. -/
theorem exists_released_early :
    ∃ m ∈ (waitingForTopEdge.complete unchecked 0 (topEdgeReply (some 7))).released,
      (topEdgeReply (some 7)).carried m.key = some (some 7) ∧
        m.key ∈ (m.providers 0).subscribedKeys ∧
        ((m.providers 0).get m.key).value = none ∧ m.handle.myValue = none := by
  refine ⟨⟨"Screen.TopEdge", waitingForTopEdge.providers, ⟨{0}, [0], 1, none⟩⟩, ?_,
    by decide, by decide, rfl, rfl⟩
  exact (Routing.mem_onSubscriberFinished unchecked (by simp [waitingForTopEdge])
    (by decide)).2 ⟨by decide, rfl⟩

end ContextSubscriber
