import ContextKit.Provider.ServiceBackend
import ContextKit.Subscriber.Completion
import ContextKit.Subscriber.ContextKitPlugin

/-!
# From object paths back to keys

`ContextKitPlugin` hears of values by `ValueChanged` signals that come from an object path, and
finds the key in `objectPathToKey`, which has one key for each path.  The two libraries agree on the
path of a key, but keys such as `a.b`, `a/b` and `/org/maemo/contextkit/a/b` have the same one.  A
`SignalRouting` is a plugin on the new protocol with the keys it is subscribed to;
`rightlyRouted_iff` says that signals go astray exactly when such keys meet.
-/

namespace ContextProvider

/-- The keys `Property` takes without complaint. -/
def IsPropertyKey (key : String) : Prop :=
  key.toList ≠ [] ∧ key.toList.all fun c => ContextSubscriber.isPathChar c || c = '.'

instance (key : String) : Decidable (IsPropertyKey key) := inferInstanceAs (Decidable (_ ∧ _))

end ContextProvider

namespace ContextSubscriber
open ContextKit Transition ContextProvider

/-- A provider registers a property where the plugin looks for it. -/
theorem objectPath_eq_keyToPath (key : String) : objectPath key = keyToPath key := by
  unfold objectPath keyToPath
  congr 2
  rw [List.flatMap_map]
  congr 1
  apply List.flatMap_congr
  intro c _
  by_cases hc : c = '.'
  · subst hc
    rfl
  · rw [if_neg hc, if_neg hc, isPathChar]

/-- `onNewValueChanged`: the key and the value `valueChanged` is emitted with. -/
def ContextKitPlugin.onNewValueChanged {V : Type} [QVariant V] (p : ContextKitPlugin)
    (path : String) (value : List V) (timestamp : ℕ) : Option (String × TimedValue V) :=
  (p.objectPathToKey path).map fun key => (key, createTimedValue value timestamp)

/-- A plugin and the keys it is subscribed to: those whose `Subscribe` call came after the last
`Unsubscribe` call. -/
structure SignalRouting where
  plugin : ContextKitPlugin
  subscribed : Finset String

/-- What can happen.  A provider signals the value of a key by the property's object path. -/
inductive RoutingEvent (V : Type)
  | subscribe (keys : Finset String)
  | newSubscribe (key : String)
  | unsubscribe (keys : Finset String)
  | valueChanged (key : String) (value : List V) (timestamp : ℕ)

namespace SignalRouting

/-- A plugin subscribed to nothing. -/
def init : SignalRouting := ⟨.init, ∅⟩

/-- What the plugin emits on a signal: the slot is called only while the path is connected. -/
def receive {V : Type} [QVariant V] (s : SignalRouting) (path : String) (value : List V)
    (timestamp : ℕ) : Option (String × TimedValue V) :=
  if path ∈ s.plugin.connections then s.plugin.onNewValueChanged path value timestamp else none

variable {V : Type}

/-- One event. -/
def step (s : SignalRouting) : RoutingEvent V → Option SignalRouting
  | .subscribe keys => some { s with plugin := s.plugin.subscribe keys }
  | .newSubscribe key =>
    some ⟨s.plugin.newSubscribe key,
      if key ∈ s.plugin.pendingKeys then insert key s.subscribed else s.subscribed⟩
  | .unsubscribe keys => some ⟨s.plugin.unsubscribe keys, s.subscribed \ keys⟩
  | .valueChanged _ _ _ => some s

/-- A signal for `key` would be reported for `key`. -/
def Routes (s : SignalRouting) (key : String) : Prop :=
  objectPath key ∈ s.plugin.connections ∧ s.plugin.objectPathToKey (objectPath key) = some key

/-- A signal is reported for its key if that is subscribed, and never for another key; and after
the event the signals of every subscribed key would be. -/
def RightlyRouted [QVariant V] (s : SignalRouting) (e : RoutingEvent V) : Prop :=
  (∀ key value timestamp, e = .valueChanged key value timestamp →
    (key ∈ s.subscribed → s.receive (objectPath key) value timestamp =
      some (key, createTimedValue value timestamp)) ∧
    ∀ k v, s.receive (objectPath key) value timestamp = some (k, v) → k = key) ∧
  ∀ t, s.step e = some t → ∀ key ∈ t.subscribed, t.Routes key

/-- An event for one key meets another one that is subscribed and has the same path. -/
def Collides (s : SignalRouting) : RoutingEvent V → Prop
  | .subscribe _ => False
  | .newSubscribe key =>
    key ∈ s.plugin.pendingKeys ∧ ∃ k ∈ s.subscribed, k ≠ key ∧ keyToPath k = keyToPath key
  | .unsubscribe keys => ∃ key ∈ keys, ∃ k ∈ s.subscribed, k ∉ keys ∧ keyToPath k = keyToPath key
  | .valueChanged key _ _ => ∃ k ∈ s.subscribed, k ≠ key ∧ keyToPath k = keyToPath key

/-- A key that has just been subscribed gets the signals of its path. -/
theorem receive_newSubscribe [QVariant V] {p : ContextKitPlugin} {key : String}
    (hp : key ∈ p.pendingKeys) (subscribed : Finset String) (value : List V) (timestamp : ℕ) :
    (⟨p.newSubscribe key, subscribed⟩ : SignalRouting).receive (keyToPath key) value timestamp =
      some (key, createTimedValue value timestamp) := by
  simp [receive, ContextKitPlugin.newSubscribe, if_pos hp, ContextKitPlugin.onNewValueChanged]

/-- The map is what it should be: each path leads to the one subscribed key that has it. -/
structure Exact (s : SignalRouting) : Prop where
  newProtocol : s.plugin.newProtocol = true
  mapped : ∀ path key,
    s.plugin.objectPathToKey path = some key ↔ key ∈ s.subscribed ∧ keyToPath key = path
  connected : ∀ path, path ∈ s.plugin.connections ↔ ∃ key ∈ s.subscribed, keyToPath key = path

theorem Exact.routes {s : SignalRouting} (h : s.Exact) {key : String} (hkey : key ∈ s.subscribed) :
    s.Routes key := by
  rw [Routes, objectPath_eq_keyToPath]
  exact ⟨(h.connected _).2 ⟨key, hkey, rfl⟩, (h.mapped _ _).2 ⟨hkey, rfl⟩⟩

/-- A pending key takes over its path, which no other subscribed key may have. -/
theorem Exact.newSubscribe {s : SignalRouting} (h : s.Exact) {key : String}
    (hp : key ∈ s.plugin.pendingKeys)
    (hfree : ∀ k ∈ s.subscribed, keyToPath k = keyToPath key → k = key) :
    (⟨s.plugin.newSubscribe key, insert key s.subscribed⟩ : SignalRouting).Exact := by
  simp only [hp, if_true, ContextKitPlugin.newSubscribe]
  constructor
  · exact h.newProtocol
  · intro path k
    rw [Finset.mem_insert]
    rcases eq_or_ne path (keyToPath key) with rfl | hpath
    · dsimp only
      rw [Function.update_self, Option.some.injEq]
      constructor
      · rintro rfl
        exact ⟨Or.inl rfl, rfl⟩
      · rintro ⟨rfl | hk, hkp⟩
        · rfl
        · exact (hfree k hk hkp).symm
    · dsimp only
      rw [Function.update_of_ne hpath, h.mapped]
      refine ⟨fun hk => ⟨Or.inr hk.1, hk.2⟩, ?_⟩
      rintro ⟨rfl | hk, hkp⟩
      · exact absurd hkp.symm hpath
      · exact ⟨hk, hkp⟩
  · intro path
    dsimp only
    rw [Finset.mem_insert, h.connected, Finset.exists_mem_insert, eq_comm]

/-- The paths of the keys are given up, and no key that stays subscribed may have one of them. -/
theorem Exact.unsubscribe {s : SignalRouting} (h : s.Exact) {keys : Finset String}
    (hmem : ∀ k ∈ s.subscribed, keyToPath k ∈ keys.val.map keyToPath ↔ k ∈ keys) :
    (⟨s.plugin.unsubscribe keys, s.subscribed \ keys⟩ : SignalRouting).Exact := by
  rw [ContextKitPlugin.unsubscribe, if_pos h.newProtocol, ContextKitPlugin.foldl_unsubscribeKey]
  constructor
  · exact h.newProtocol
  · intro path key
    dsimp only
    rw [Finset.mem_sdiff]
    split_ifs with hpath
    · refine iff_of_false (by simp) ?_
      rintro ⟨⟨hs, hno⟩, rfl⟩
      exact hno ((hmem key hs).1 hpath)
    · rw [h.mapped]
      constructor
      · rintro ⟨hs, rfl⟩
        exact ⟨⟨hs, fun hkey => hpath ((hmem key hs).2 hkey)⟩, rfl⟩
      · rintro ⟨⟨hs, -⟩, hkp⟩
        exact ⟨hs, hkp⟩
  · intro path
    dsimp only
    rw [Finset.mem_filter, h.connected]
    constructor
    · rintro ⟨⟨key, hs, rfl⟩, hpath⟩
      exact ⟨key, Finset.mem_sdiff.2 ⟨hs, fun hkey => hpath ((hmem key hs).2 hkey)⟩, rfl⟩
    · rintro ⟨key, hs, rfl⟩
      obtain ⟨hs, hno⟩ := Finset.mem_sdiff.1 hs
      exact ⟨⟨key, hs, rfl⟩, fun hpath => hno ((hmem key hs).1 hpath)⟩

/-- **One event** that meets no other key with the same path. -/
theorem exact_step {s t : SignalRouting} {e : RoutingEvent V} (h : s.Exact)
    (hcol : ¬ s.Collides e) (hstep : s.step e = some t) : t.Exact := by
  cases e with
  | subscribe keys =>
    obtain rfl := Option.some.inj hstep
    rw [ContextKitPlugin.subscribe_of_newProtocol _ h.newProtocol]
    exact ⟨h.newProtocol, h.mapped, h.connected⟩
  | newSubscribe key =>
    obtain rfl := Option.some.inj hstep
    by_cases hp : key ∈ s.plugin.pendingKeys
    · rw [if_pos hp]
      refine h.newSubscribe hp fun k hk hpath => ?_
      by_contra hne
      exact hcol ⟨hp, k, hk, hne, hpath⟩
    · rw [ContextKitPlugin.newSubscribe_of_notMem _ hp]
      simpa only [hp, if_false] using h
  | unsubscribe keys =>
    obtain rfl := Option.some.inj hstep
    refine h.unsubscribe fun k hk => ⟨fun hpath => ?_, fun hkey => Multiset.mem_map_of_mem _ hkey⟩
    by_contra hno
    obtain ⟨key, hkey, hkp⟩ := Multiset.mem_map.1 hpath
    exact hcol ⟨key, hkey, k, hk, hno, hkp.symm⟩
  | valueChanged key value timestamp =>
    obtain rfl := Option.some.inj hstep
    exact h

/-- What a signal is reported as. -/
theorem Exact.receive_eq_some [QVariant V] {s : SignalRouting} (h : s.Exact) {path : String}
    {value : List V} {timestamp : ℕ} {k : String} {v : TimedValue V} :
    s.receive path value timestamp = some (k, v) ↔
      (k ∈ s.subscribed ∧ keyToPath k = path) ∧ createTimedValue value timestamp = v := by
  unfold receive ContextKitPlugin.onNewValueChanged
  by_cases hc : path ∈ s.plugin.connections
  · rw [if_pos hc, Option.map_eq_some_iff]
    constructor
    · rintro ⟨key, hkey, he⟩
      obtain ⟨rfl, rfl⟩ := Prod.mk.inj he
      exact ⟨(h.mapped _ _).1 hkey, rfl⟩
    · rintro ⟨hk, rfl⟩
      exact ⟨k, (h.mapped _ _).2 hk, rfl⟩
  · rw [if_neg hc]
    refine iff_of_false (by simp) ?_
    rintro ⟨⟨hk, hpath⟩, -⟩
    exact hc ((h.connected _).2 ⟨k, hk, hpath⟩)

theorem rightlyRouted_of_exact [QVariant V] {s : SignalRouting} {e : RoutingEvent V} (h : s.Exact)
    (hcol : ¬ s.Collides e) : s.RightlyRouted e := by
  refine ⟨?_, fun t ht key hkey => (exact_step h hcol ht).routes hkey⟩
  rintro key value timestamp rfl
  rw [objectPath_eq_keyToPath]
  refine ⟨fun hkey => h.receive_eq_some.2 ⟨⟨hkey, rfl⟩, rfl⟩, fun k v hkv => ?_⟩
  obtain ⟨⟨hk, hpath⟩, -⟩ := h.receive_eq_some.1 hkv
  by_contra hne
  exact hcol ⟨k, hk, hne, hpath⟩

theorem not_rightlyRouted_of_collides [QVariant V] {s : SignalRouting} {e : RoutingEvent V}
    (h : s.Exact) (hcol : s.Collides e) : ¬ s.RightlyRouted e := by
  rintro ⟨hsignal, hafter⟩
  cases e with
  | subscribe keys => exact hcol
  | newSubscribe key =>
    -- The path now leads to the new key, and no longer to the old one.
    obtain ⟨hp, k, hk, hne, hpath⟩ := hcol
    have hroutes := (hafter _ rfl k (by simp [hp, hk])).2
    rw [objectPath_eq_keyToPath, hpath, ContextKitPlugin.newSubscribe, if_pos hp] at hroutes
    dsimp only at hroutes
    rw [Function.update_self, Option.some.injEq] at hroutes
    exact hne hroutes.symm
  | unsubscribe keys =>
    -- The path now leads nowhere.
    obtain ⟨key, hkey, k, hk, hno, hpath⟩ := hcol
    have hroutes := (hafter _ rfl k (Finset.mem_sdiff.2 ⟨hk, hno⟩)).2
    rw [objectPath_eq_keyToPath, hpath, ContextKitPlugin.unsubscribe, if_pos h.newProtocol,
      ContextKitPlugin.foldl_unsubscribeKey] at hroutes
    dsimp only at hroutes
    rw [if_pos (Multiset.mem_map_of_mem _ hkey)] at hroutes
    cases hroutes
  | valueChanged key value timestamp =>
    obtain ⟨k, hk, hne, hpath⟩ := hcol
    refine hne ((hsignal key value timestamp rfl).2 k (createTimedValue value timestamp) ?_)
    rw [objectPath_eq_keyToPath]
    exact h.receive_eq_some.2 ⟨⟨hk, hpath⟩, rfl⟩

end SignalRouting

/-- **When signals reach the right keys.**  In every run of `subscribe`, `newSubscribe`,
`unsubscribe` and signals, each signal is reported for its own key if that is subscribed and never
for another, and every subscribed key stays reachable by its signals, exactly if no event is about
a key that shares its path with another key subscribed at that time. -/
theorem rightlyRouted_iff {V : Type} [QVariant V] (es : List (RoutingEvent V)) :
    Along SignalRouting.step SignalRouting.RightlyRouted .init es ↔
      Along SignalRouting.step (fun s e => ¬ s.Collides e) .init es := by
  have h0 : SignalRouting.init.Exact :=
    ⟨rfl, fun path key => by simp [SignalRouting.init, ContextKitPlugin.init],
      fun path => by simp [SignalRouting.init, ContextKitPlugin.init]⟩
  have hno : ∀ (s : SignalRouting) (e : RoutingEvent V), s.Exact → s.RightlyRouted e →
      ¬ s.Collides e :=
    fun s e h hr hcol => SignalRouting.not_rightlyRouted_of_collides h hcol hr
  constructor
  · exact fun h => .of_inv (fun s e t h hr hst => SignalRouting.exact_step h (hno s e h hr) hst)
      hno h0 h
  · exact fun h => .of_inv (fun s e t h hcol hst => SignalRouting.exact_step h hcol hst)
      (fun s e h hcol => SignalRouting.rightlyRouted_of_exact h hcol) h0 h

/-- Two keys with one path, subscribed one after the other. -/
def twoSpellings : List (RoutingEvent (Option ℤ)) :=
  [.subscribe {"Battery.Low", "Battery/Low"}, .newSubscribe "Battery.Low",
    .newSubscribe "Battery/Low"]

/-- The provider's signal for `Battery.Low` is reported for `Battery/Low`. -/
theorem exists_signal_misrouted :
    IsPropertyKey "Battery.Low" ∧ IsPropertyKey "Battery/Low" ∧
      ∃ s, run SignalRouting.step .init twoSpellings = some s ∧ "Battery.Low" ∈ s.subscribed ∧
        s.receive (objectPath "Battery.Low") [some (1 : ℤ)] 5 =
          some ("Battery/Low", ⟨some 1, 5⟩) := by
  have hpath : keyToPath "Battery.Low" = keyToPath "Battery/Low" := by decide
  refine ⟨by decide, by decide, _, rfl, by decide, ?_⟩
  rw [objectPath_eq_keyToPath, hpath]
  exact SignalRouting.receive_newSubscribe (by decide) _ _ _

end ContextSubscriber
