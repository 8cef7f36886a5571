import Mathlib.Data.Finset.Prod
import Mathlib.Data.Finset.Image
import Mathlib.Data.String.Basic
import ContextKit.Transition.Run

/-!
# `ServiceBackend`: when a service is on the bus

A `Service` is a proxy for a `ServiceBackend`, and the backend counts its proxies.  Backends are
kept in a map and never deleted: one whose last proxy is gone is stopped, and is found again by the
next `Service` of the same connection, or of the same bus and name.  The two functions that look it
up are written differently: the one for a bus and a name starts the backend each time, the one for a
connection only when it is new.

A connection is known by its name.  `connectToBus` returns the connection of that name if there is
one, so two backends of one bus name, on different buses, share their connection.
-/

namespace ContextProvider
open Transition

/-- `PropertyAdaptor::objectPath` -/
def objectPath (key : String) : String :=
  if key.toList.head? = some '/' then key
  else
    "/org/maemo/contextkit/" ++
      String.ofList ((key.toList.map fun c => if c = '.' then '/' else c).flatMap fun c =>
        if c.isAlphanum || c = '_' || c = '/' then [c]
        else if c.toNat < 0x10000 then ['_'] else ['_', '_'])

/-- `QDBusConnection::BusType`, as far as it is in use. -/
inductive BusType
  | sessionBus
  | systemBus
  deriving DecidableEq

structure ServiceBackend where
  refCount : ℕ
  connection : String
  busName : String
  properties : Finset String
  createdAdaptors : Finset String

/-- What is registered on the bus: objects and names, each with its connection. -/
structure Registrations where
  objects : Finset (String × String)
  names : Finset (String × String)

namespace ServiceBackend

/-- The constructors. -/
def new (connection busName : String) : ServiceBackend := ⟨0, connection, busName, ∅, ∅⟩

def sharedConnection (b : ServiceBackend) : Bool := b.busName = ""

/-- The object of each of the given keys, on the connection of the backend. -/
def objectsOf (b : ServiceBackend) (keys : Finset String) : Finset (String × String) :=
  keys.image fun key => (b.connection, objectPath key)

/-- `registerProperty` for a set of keys.  Every registration succeeds. -/
def registerProperties (b : ServiceBackend) (keys : Finset String) (bus : Registrations) :
    ServiceBackend × Registrations :=
  ({ b with createdAdaptors := b.createdAdaptors ∪ keys },
    { bus with objects := bus.objects ∪ b.objectsOf keys })

def addProperty (b : ServiceBackend) (key : String) (bus : Registrations) :
    ServiceBackend × Registrations :=
  { b with properties := insert key b.properties }.registerProperties {key} bus

def start (b : ServiceBackend) (bus : Registrations) : ServiceBackend × Registrations :=
  let r := b.registerProperties b.properties bus
  if b.sharedConnection then r
  else (r.1, { r.2 with names := insert (b.connection, b.busName) r.2.names })

def stop (b : ServiceBackend) (bus : Registrations) : Registrations where
  objects := bus.objects \ b.objectsOf b.createdAdaptors
  names := if b.sharedConnection then bus.names else bus.names.erase (b.connection, b.busName)

def ref (b : ServiceBackend) : ServiceBackend := { b with refCount := b.refCount + 1 }

def unref (b : ServiceBackend) (bus : Registrations) : ServiceBackend × Registrations :=
  let b := { b with refCount := b.refCount - 1 }
  (b, if b.refCount = 0 then b.stop bus else bus)

end ServiceBackend

/-- The map of the backends, the bus, and the object paths that belong to a property. -/
structure Services where
  instances : String → Option ServiceBackend
  bus : Registrations
  paths : Finset (String × String)

/-- What can happen: a `Service` is created for a connection, or for a bus and a name; a `Service`
is deleted, or a property created, at the backend found by `lookup`. -/
inductive ServicesEvent
  | serviceOnConnection (connection : String)
  | service (busType : BusType) (busName : String)
  | deleteService (lookup : String)
  | createProperty (lookup key : String)

namespace Services

/-- No service, and nothing registered. -/
def init : Services := ⟨fun _ => none, ⟨∅, ∅⟩, ∅⟩

/-- The backend at `lookup` and the bus get new values. -/
def set (s : Services) (lookup : String) (r : ServiceBackend × Registrations) : Services :=
  { s with instances := Function.update s.instances lookup (some r.1), bus := r.2 }

/-- The key of the map for a bus and a name. -/
def lookupOf (busType : BusType) (busName : String) : String :=
  "contextprovider_" ++ (if busType = .sessionBus then "session" else "system") ++ busName

/-- One event.  No two properties on one connection have the same object path. -/
def step (s : Services) : ServicesEvent → Option Services
  | .serviceOnConnection connection =>
    match s.instances connection with
    | none =>
      let r := (ServiceBackend.new connection "").start s.bus
      some (s.set connection (r.1.ref, r.2))
    | some b => some (s.set connection (b.ref, s.bus))
  | .service busType busName =>
    let lookup := lookupOf busType busName
    let b := (s.instances lookup).getD (.new busName busName)
    let r := b.start s.bus
    some (s.set lookup (r.1.ref, r.2))
  | .deleteService lookup =>
    match s.instances lookup with
    | none => none
    | some b => if 0 < b.refCount then some (s.set lookup (b.unref s.bus)) else none
  | .createProperty lookup key =>
    match s.instances lookup with
    | none => none
    | some b =>
      if 0 < b.refCount then
        if key ∈ b.properties then some s
        else if (b.connection, objectPath key) ∈ s.paths then none
        else
          some { s.set lookup (b.addProperty key s.bus) with
            paths := insert (b.connection, objectPath key) s.paths }
      else none

/-- The objects of a backend's properties are on the bus, and so is its name if it has one, exactly
while it has a proxy. -/
structure UpWhileAlive (bus : Registrations) (b : ServiceBackend) : Prop where
  object : ∀ key ∈ b.properties,
    ((b.connection, objectPath key) ∈ bus.objects ↔ 0 < b.refCount)
  name : b.busName ≠ "" → ((b.connection, b.busName) ∈ bus.names ↔ 0 < b.refCount)

/-- Every service is up exactly while it has a proxy. -/
def Right (s : Services) : Prop := ∀ lookup b, s.instances lookup = some b → UpWhileAlive s.bus b

/-- Another backend has the bus name of `b` on the same connection, and `alive` or no proxy. -/
def HasTwin (s : Services) (lookup : String) (b : ServiceBackend) (alive : Bool) : Prop :=
  b.busName ≠ "" ∧ ∃ l c, s.instances l = some c ∧ l ≠ lookup ∧ c.connection = b.connection ∧
    c.busName = b.busName ∧ decide (0 < c.refCount) = alive

/-- A `Service` for a connection finds a backend without proxies that has something to register; or
a name is registered that belongs to another backend without proxies, or unregistered that belongs
to another one with proxies. -/
def Misses (s : Services) : ServicesEvent → Prop
  | .serviceOnConnection connection =>
    ∃ b, s.instances connection = some b ∧ b.refCount = 0 ∧
      (b.properties.Nonempty ∨ b.busName ≠ "")
  | .service busType busName =>
    s.HasTwin (lookupOf busType busName)
      ((s.instances (lookupOf busType busName)).getD (.new busName busName)) false
  | .deleteService lookup =>
    ∃ b, s.instances lookup = some b ∧ b.refCount = 1 ∧ s.HasTwin lookup b true
  | .createProperty _ _ => False

end Services

/-! ### What starting and stopping do to the bus -/

namespace ServiceBackend

variable (b : ServiceBackend) (bus : Registrations)

theorem mem_objectsOf {keys : Finset String} {x : String × String} :
    x ∈ b.objectsOf keys ↔ ∃ key ∈ keys, (b.connection, objectPath key) = x := Finset.mem_image

@[simp] theorem start_fst :
    (b.start bus).1 = { b with createdAdaptors := b.createdAdaptors ∪ b.properties } := by
  unfold start
  dsimp only
  split_ifs <;> rfl

@[simp] theorem mem_start_objects {x : String × String} :
    x ∈ (b.start bus).2.objects ↔ x ∈ bus.objects ∨ x ∈ b.objectsOf b.properties := by
  rw [← Finset.mem_union]
  unfold start
  dsimp only
  split_ifs <;> rfl

@[simp] theorem mem_start_names {x : String × String} :
    x ∈ (b.start bus).2.names ↔
      x ∈ bus.names ∨ b.busName ≠ "" ∧ x = (b.connection, b.busName) := by
  unfold start sharedConnection
  by_cases hname : b.busName = ""
  · simp [hname, registerProperties]
  · simp [hname, registerProperties, or_comm]

@[simp] theorem mem_stop_objects {x : String × String} :
    x ∈ (b.stop bus).objects ↔ x ∈ bus.objects ∧ x ∉ b.objectsOf b.createdAdaptors :=
  Finset.mem_sdiff

@[simp] theorem mem_stop_names {x : String × String} :
    x ∈ (b.stop bus).names ↔
      x ∈ bus.names ∧ ¬ (b.busName ≠ "" ∧ x = (b.connection, b.busName)) := by
  unfold stop sharedConnection
  by_cases hname : b.busName = ""
  · simp [hname]
  · simp [hname, and_comm]

end ServiceBackend

namespace Services

@[simp] theorem set_instances_self (s : Services) (lookup : String)
    (r : ServiceBackend × Registrations) : (s.set lookup r).instances lookup = some r.1 :=
  Function.update_self ..

theorem set_instances_of_ne (s : Services) {l lookup : String}
    (r : ServiceBackend × Registrations) (h : l ≠ lookup) :
    (s.set lookup r).instances l = s.instances l := Function.update_of_ne h ..

/-- The backends after one of them got a new value. -/
theorem set_instances_eq_some {s : Services} {l lookup : String}
    {r : ServiceBackend × Registrations} {b : ServiceBackend} :
    (s.set lookup r).instances l = some b ↔
      l = lookup ∧ r.1 = b ∨ l ≠ lookup ∧ s.instances l = some b := by
  rcases eq_or_ne l lookup with rfl | hne
  · simp
  · simp [s.set_instances_of_ne r hne, hne]

/-- Every property has its adaptor, and an object path of its own. -/
structure WellFormed (s : Services) : Prop where
  adaptors : ∀ l b, s.instances l = some b → b.createdAdaptors = b.properties
  paths : ∀ l b, s.instances l = some b → ∀ key ∈ b.properties,
    (b.connection, objectPath key) ∈ s.paths
  distinct : ∀ l b l' b', s.instances l = some b → s.instances l' = some b' →
    ∀ key ∈ b.properties, ∀ key' ∈ b'.properties,
      (b.connection, objectPath key) = (b'.connection, objectPath key') → l = l'

theorem WellFormed.notMem_objectsOf {s : Services} (h : s.WellFormed) {l lookup : String}
    {b c : ServiceBackend} (hb : s.instances lookup = some b) (hc : s.instances l = some c)
    (hne : l ≠ lookup) {key : String} (hkey : key ∈ c.properties) :
    (c.connection, objectPath key) ∉ b.objectsOf b.properties := by
  rw [b.mem_objectsOf]
  rintro ⟨key', hkey', he⟩
  exact hne (h.distinct l c lookup b hc hb key hkey key' hkey' he.symm)

/-- A backend at `lookup` that keeps its connection and its properties. -/
theorem WellFormed.set {s : Services} (h : s.WellFormed) {lookup : String}
    {r : ServiceBackend × Registrations} (ha : r.1.createdAdaptors = r.1.properties)
    (hb : r.1.properties = ∅ ∨ ∃ b, s.instances lookup = some b ∧
      b.connection = r.1.connection ∧ b.properties = r.1.properties) :
    (s.set lookup r).WellFormed := by
  -- Whatever has a property in the new state had it before, at the same place.
  have hold : ∀ l b, (s.set lookup r).instances l = some b → ∀ key ∈ b.properties,
      ∃ b', s.instances l = some b' ∧ b'.connection = b.connection ∧ key ∈ b'.properties := by
    intro l b hl key hkey
    rcases set_instances_eq_some.1 hl with ⟨rfl, rfl⟩ | ⟨-, hl⟩
    · rcases hb with hempty | ⟨b', hb', hconn, hprops⟩
      · rw [hempty] at hkey
        cases hkey
      · exact ⟨b', hb', hconn, hprops ▸ hkey⟩
    · exact ⟨b, hl, rfl, hkey⟩
  constructor
  · intro l b hl
    rcases set_instances_eq_some.1 hl with ⟨rfl, rfl⟩ | ⟨-, hl⟩
    · exact ha
    · exact h.adaptors l b hl
  · intro l b hl key hkey
    obtain ⟨b', hb', hconn, hkey'⟩ := hold l b hl key hkey
    rw [← hconn]
    exact h.paths l b' hb' key hkey'
  · intro l b l' b' hl hl' key hkey key' hkey' he
    obtain ⟨c, hc, hconn, hk⟩ := hold l b hl key hkey
    obtain ⟨c', hc', hconn', hk'⟩ := hold l' b' hl' key' hkey'
    rw [← hconn, ← hconn'] at he
    exact h.distinct l c l' c' hc hc' key hk key' hk' he

theorem right_set {s : Services} {lookup : String} {r : ServiceBackend × Registrations} :
    (s.set lookup r).Right ↔ UpWhileAlive r.2 r.1 ∧
      ∀ l c, l ≠ lookup → s.instances l = some c → UpWhileAlive r.2 c := by
  constructor
  · intro h
    refine ⟨h lookup r.1 (s.set_instances_self lookup r), fun l c hne hc => h l c ?_⟩
    exact set_instances_eq_some.2 (Or.inr ⟨hne, hc⟩)
  · rintro ⟨hown, hother⟩ l c hc
    rcases set_instances_eq_some.1 hc with ⟨rfl, rfl⟩ | ⟨hne, hc⟩
    · exact hown
    · exact hother l c hne hc

/-- What is up stays right as long as proxies come and go, but not the last one. -/
theorem UpWhileAlive.recount {bus : Registrations} {b : ServiceBackend} (h : UpWhileAlive bus b)
    (hpos : 0 < b.refCount) {n : ℕ} (hn : 0 < n) : UpWhileAlive bus { b with refCount := n } where
  object key hkey := iff_of_true ((h.object key hkey).2 hpos) hn
  name hname := iff_of_true ((h.name hname).2 hpos) hn

/-- Starting a backend for a new proxy is right unless it registers the name of a dead twin. -/
theorem right_start {s : Services} (hwf : s.WellFormed) (hright : s.Right) {lookup : String}
    {b : ServiceBackend} (hb : s.instances lookup = some b ∨ b.properties = ∅) :
    (s.set lookup ((b.start s.bus).1.ref, (b.start s.bus).2)).Right ↔
      ¬ s.HasTwin lookup b false := by
  rw [right_set]
  have hown : UpWhileAlive (b.start s.bus).2 (b.start s.bus).1.ref := by
    rw [b.start_fst]
    constructor
    · intro key hkey
      exact iff_of_true ((b.mem_start_objects _).2 (Or.inr (b.mem_objectsOf.2 ⟨key, hkey, rfl⟩)))
        (Nat.succ_pos _)
    · intro hname
      exact iff_of_true ((b.mem_start_names _).2 (Or.inr ⟨hname, rfl⟩)) (Nat.succ_pos _)
  have hobject : ∀ l c, l ≠ lookup → s.instances l = some c → ∀ key ∈ c.properties,
      ((c.connection, objectPath key) ∈ (b.start s.bus).2.objects ↔ 0 < c.refCount) := by
    intro l c hne hc key hkey
    rw [b.mem_start_objects, or_iff_left, (hright l c hc).object key hkey]
    rcases hb with hb | hempty
    · exact hwf.notMem_objectsOf hb hc hne hkey
    · rw [hempty]
      simp [ServiceBackend.objectsOf]
  constructor
  · rintro ⟨-, hother⟩ ⟨hname, l, c, hc, hne, hconn, hbus, hdead⟩
    have hup := (hother l c hne hc).name (by rwa [hbus])
    rw [hconn, hbus, b.mem_start_names] at hup
    have hpos := hup.1 (Or.inr ⟨hname, rfl⟩)
    exact absurd hpos (of_decide_eq_false hdead)
  · intro htwin
    refine ⟨hown, fun l c hne hc => ⟨hobject l c hne hc, fun hname => ?_⟩⟩
    rw [b.mem_start_names]
    by_cases he : (c.connection, c.busName) = (b.connection, b.busName)
    · obtain ⟨hconn, hbus⟩ := Prod.mk.inj he
      have hbname : b.busName ≠ "" := hbus ▸ hname
      refine iff_of_true (Or.inr ⟨hbname, he⟩) ?_
      by_contra hdead
      exact htwin ⟨hbname, l, c, hc, hne, hconn, hbus, decide_eq_false hdead⟩
    · rw [or_iff_left fun h => he h.2]
      exact (hright l c hc).name hname

/-- Finding a backend without starting it is right unless it has to be started. -/
theorem right_ref {s : Services} (hright : s.Right) {lookup : String} {b : ServiceBackend}
    (hb : s.instances lookup = some b) :
    (s.set lookup (b.ref, s.bus)).Right ↔
      ¬ (b.refCount = 0 ∧ (b.properties.Nonempty ∨ b.busName ≠ "")) := by
  rw [right_set]
  have hother : ∀ l c, l ≠ lookup → s.instances l = some c → UpWhileAlive s.bus c :=
    fun l c _ hc => hright l c hc
  rw [and_iff_left hother]
  have hup := hright lookup b hb
  rcases Nat.eq_zero_or_pos b.refCount with hzero | hpos
  · constructor
    · rintro hnew ⟨-, ⟨key, hkey⟩ | hname⟩
      · have hpos := (hup.object key hkey).1 ((hnew.object key hkey).2 (Nat.succ_pos _))
        omega
      · have hpos := (hup.name hname).1 ((hnew.name hname).2 (Nat.succ_pos _))
        omega
    · intro hno
      rw [not_and_or, not_or, Finset.not_nonempty_iff_eq_empty, not_ne_iff] at hno
      obtain ⟨hempty, hname⟩ := hno.resolve_left (not_not.2 hzero)
      refine ⟨fun key hkey => ?_, fun hne => absurd hname hne⟩
      have hkey' : key ∈ b.properties := hkey
      rw [hempty] at hkey'
      cases hkey'
  · exact iff_of_true (hup.recount hpos (Nat.succ_pos _)) fun h => by omega

/-- Deleting a proxy is right unless it unregisters the name of a twin that is alive. -/
theorem right_unref {s : Services} (hwf : s.WellFormed) (hright : s.Right) {lookup : String}
    {b : ServiceBackend} (hb : s.instances lookup = some b) (hpos : 0 < b.refCount) :
    (s.set lookup (b.unref s.bus)).Right ↔ ¬ (b.refCount = 1 ∧ s.HasTwin lookup b true) := by
  rw [right_set]
  have hup := hright lookup b hb
  unfold ServiceBackend.unref
  dsimp only
  by_cases hone : b.refCount = 1
  · -- The last proxy: the backend is stopped.
    rw [if_pos (by omega)]
    have hadaptors := hwf.adaptors lookup b hb
    have hobject : ∀ l c, l ≠ lookup → s.instances l = some c → ∀ key ∈ c.properties,
        ((c.connection, objectPath key) ∉ b.objectsOf b.createdAdaptors) := by
      intro l c hne hc key hkey
      rw [hadaptors]
      exact hwf.notMem_objectsOf hb hc hne hkey
    constructor
    · rintro ⟨-, hother⟩ ⟨-, hname, l, c, hc, hne, hconn, hbus, halive⟩
      have hnew := (hother l c hne hc).name (by rwa [hbus])
      have hmem := hnew.2 (of_decide_eq_true halive)
      rw [hconn, hbus, ServiceBackend.mem_stop_names] at hmem
      exact hmem.2 ⟨hname, rfl⟩
    · intro htwin
      refine ⟨⟨fun key hkey => ?_, fun hname => ?_⟩, fun l c hne hc =>
        ⟨fun key hkey => ?_, fun hname => ?_⟩⟩
      · refine iff_of_false (fun hmem => ?_) (by dsimp only; omega)
        rw [ServiceBackend.mem_stop_objects] at hmem
        refine hmem.2 ((ServiceBackend.mem_objectsOf _).2 ⟨key, ?_, rfl⟩)
        show key ∈ b.createdAdaptors
        rw [hadaptors]
        exact hkey
      · refine iff_of_false (fun hmem => ?_) (by dsimp only; omega)
        rw [ServiceBackend.mem_stop_names] at hmem
        exact hmem.2 ⟨hname, rfl⟩
      · rw [ServiceBackend.mem_stop_objects, ← (hright l c hc).object key hkey]
        exact and_iff_left (hobject l c hne hc key hkey)
      · rw [ServiceBackend.mem_stop_names, ← (hright l c hc).name hname]
        refine and_iff_left_iff_imp.2 fun hmem hsame => ?_
        obtain ⟨hconn, hbus⟩ := Prod.mk.inj hsame.2
        exact htwin ⟨hone, hsame.1, l, c, hc, hne, hconn, hbus,
          decide_eq_true (((hright l c hc).name hname).1 hmem)⟩
  · rw [if_neg (by omega)]
    exact iff_of_true ⟨hup.recount hpos (by omega), fun l c _ hc => hright l c hc⟩
      fun h => hone h.1

/-- The objects on the bus once a property is added. -/
theorem ServiceBackend.mem_addProperty_objects {b : ServiceBackend} {key : String}
    {bus : Registrations} {x : String × String} :
    x ∈ (b.addProperty key bus).2.objects ↔
      x ∈ bus.objects ∨ x = (b.connection, objectPath key) := by
  simp [ServiceBackend.addProperty, ServiceBackend.registerProperties, ServiceBackend.objectsOf,
    or_comm]

section

variable {s : Services} {lookup key : String} {b : ServiceBackend}

/-- Whatever has a property once one is created is the new property, or had it before. -/
theorem mem_properties_addProperty (hb : s.instances lookup = some b) {l k : String}
    {c : ServiceBackend} (hc : (s.set lookup (b.addProperty key s.bus)).instances l = some c)
    (hk : k ∈ c.properties) : (l = lookup ∧ c.connection = b.connection ∧ k = key) ∨
      ∃ c', s.instances l = some c' ∧ c'.connection = c.connection ∧ k ∈ c'.properties := by
  rcases set_instances_eq_some.1 hc with ⟨rfl, rfl⟩ | ⟨-, hc⟩
  · rcases Finset.mem_insert.1 hk with rfl | hk
    · exact Or.inl ⟨rfl, rfl, rfl⟩
    · exact Or.inr ⟨b, hb, rfl, hk⟩
  · exact Or.inr ⟨c, hc, rfl, hk⟩

/-- A new property has a path of its own. -/
theorem wellFormed_createProperty (hwf : s.WellFormed) (hb : s.instances lookup = some b)
    (hfree : (b.connection, objectPath key) ∉ s.paths) :
    { s.set lookup (b.addProperty key s.bus) with
      paths := insert (b.connection, objectPath key) s.paths }.WellFormed := by
  refine ⟨fun l c hc => ?_, fun l c hc k hk => ?_, fun l c l' c' hc hc' k hk k' hk' he => ?_⟩
  · rcases set_instances_eq_some.1 hc with ⟨rfl, rfl⟩ | ⟨-, hc⟩
    · show b.createdAdaptors ∪ {key} = insert key b.properties
      rw [hwf.adaptors l b hb, Finset.insert_eq, Finset.union_comm]
    · exact hwf.adaptors l c hc
  · rw [Finset.mem_insert]
    rcases mem_properties_addProperty hb hc hk with ⟨-, hconn, rfl⟩ | ⟨c', hc', hconn, hk'⟩
    · exact Or.inl (by rw [hconn])
    · rw [← hconn]
      exact Or.inr (hwf.paths l c' hc' k hk')
  · rcases mem_properties_addProperty hb hc hk with ⟨hl, hconn, hkey⟩ | ⟨d, hd, hconn, hkd⟩ <;>
      rcases mem_properties_addProperty hb hc' hk' with
        ⟨hl', hconn', hkey'⟩ | ⟨d', hd', hconn', hkd'⟩
    · rw [hl, hl']
    · rw [hconn, hkey, ← hconn'] at he
      exact absurd (hwf.paths l' d' hd' k' hkd') (he ▸ hfree)
    · rw [hconn', hkey', ← hconn] at he
      exact absurd (hwf.paths l d hd k hkd) (he ▸ hfree)
    · rw [← hconn, ← hconn'] at he
      exact hwf.distinct l d l' d' hd hd' k hkd k' hkd' he

/-- A new property appears with its object, and touches no other. -/
theorem right_createProperty (hwf : s.WellFormed) (hright : s.Right)
    (hb : s.instances lookup = some b) (hpos : 0 < b.refCount)
    (hfree : (b.connection, objectPath key) ∉ s.paths) :
    { s.set lookup (b.addProperty key s.bus) with
      paths := insert (b.connection, objectPath key) s.paths }.Right := by
  have hup := hright lookup b hb
  rw [Right]
  refine right_set.2 ⟨⟨fun k hk => ?_, hup.name⟩, fun l c hne hc => ⟨fun k hk => ?_, ?_⟩⟩
  · refine iff_of_true (ServiceBackend.mem_addProperty_objects.2 ?_) hpos
    rcases Finset.mem_insert.1 hk with rfl | hk
    · exact Or.inr rfl
    · exact Or.inl ((hup.object k hk).2 hpos)
  · rw [ServiceBackend.mem_addProperty_objects, or_iff_left, (hright l c hc).object k hk]
    exact fun he => hfree (he ▸ hwf.paths l c hc k hk)
  · exact (hright l c hc).name

end

/-- **One event** in a state where every service is up exactly while it has a proxy: so it is in the
next state, exactly if the event misses nothing. -/
theorem step_right {s t : Services} {e : ServicesEvent} (hwf : s.WellFormed) (hright : s.Right)
    (hstep : s.step e = some t) : t.WellFormed ∧ (t.Right ↔ ¬ s.Misses e) := by
  cases e with
  | serviceOnConnection connection =>
    simp only [step] at hstep
    cases hb : s.instances connection with
    | none =>
      simp only [hb, Option.some.injEq] at hstep
      subst hstep
      refine ⟨hwf.set (by simp [ServiceBackend.ref, ServiceBackend.new])
        (Or.inl (by simp [ServiceBackend.ref, ServiceBackend.new])), ?_⟩
      have hno : ¬ s.HasTwin connection (.new connection "") false := fun h => h.1 rfl
      refine (right_start hwf hright (Or.inr rfl)).trans (iff_of_true hno ?_)
      rintro ⟨b, hb', -⟩
      rw [hb] at hb'
      cases hb'
    | some b =>
      simp only [hb, Option.some.injEq] at hstep
      subst hstep
      refine ⟨hwf.set (hwf.adaptors _ b hb) (Or.inr ⟨b, hb, rfl, rfl⟩), ?_⟩
      simp only [right_ref hright hb, Misses, hb, Option.some.injEq, exists_eq_left']
  | service busType busName =>
    simp only [step, Option.some.injEq] at hstep
    subst hstep
    cases hb : s.instances (lookupOf busType busName) with
    | none =>
      refine ⟨hwf.set (by simp [ServiceBackend.ref, ServiceBackend.new])
        (Or.inl (by simp [ServiceBackend.ref, ServiceBackend.new])), ?_⟩
      rw [Misses, hb]
      exact right_start hwf hright (Or.inr rfl)
    | some b =>
      refine ⟨hwf.set ?_ (Or.inr ⟨b, hb, ?_⟩), ?_⟩
      · simp [ServiceBackend.ref, hwf.adaptors _ b hb]
      · simp [ServiceBackend.ref]
      · rw [Misses, hb]
        exact right_start hwf hright (Or.inl hb)
  | deleteService lookup =>
    simp only [step] at hstep
    cases hb : s.instances lookup with
    | none => simp [hb] at hstep
    | some b =>
      simp only [hb] at hstep
      obtain ⟨hpos, rfl⟩ := Option.ite_some_none_eq_some.1 hstep
      refine ⟨hwf.set (hwf.adaptors _ b hb) (Or.inr ⟨b, hb, rfl, rfl⟩), ?_⟩
      simp only [right_unref hwf hright hb hpos, Misses, hb, Option.some.injEq, exists_eq_left']
  | createProperty lookup key =>
    simp only [step] at hstep
    cases hb : s.instances lookup with
    | none => simp [hb] at hstep
    | some b =>
      simp only [hb] at hstep
      split_ifs at hstep with hpos hkey hpath
      · obtain rfl := Option.some.inj hstep
        exact ⟨hwf, iff_of_true hright not_false⟩
      · obtain rfl := Option.some.inj hstep
        exact ⟨wellFormed_createProperty hwf hb hpath,
          iff_of_true (right_createProperty hwf hright hb hpos hpath) not_false⟩

end Services

/-- **When a service is up exactly while a `Service` exists.**  In every run of constructions and
destructions of services and creations of properties: after each event every backend is up exactly
while it has a proxy, exactly if no event misses a backend that has to be started, or that shares
its connection and name with another one. -/
theorem upWhileAlive_iff (es : List ServicesEvent) :
    Along Services.step (fun s e => ∀ t, s.step e = some t → t.Right) Services.init es ↔
      Along Services.step (fun s e => (s.step e).isSome → ¬ s.Misses e) Services.init es := by
  have h0 : Services.init.WellFormed ∧ Services.init.Right :=
    ⟨⟨fun _ _ h => (by cases h), fun _ _ h => (by cases h), fun _ _ _ _ h => (by cases h)⟩,
      fun _ _ h => (by cases h)⟩
  constructor
  · refine fun h => .of_inv (P := fun s => s.WellFormed ∧ s.Right) (fun s e t h hr hst =>
      ⟨(Services.step_right h.1 h.2 hst).1, hr t hst⟩) (fun s e h hr hsome => ?_) h0 h
    obtain ⟨t, ht⟩ := Option.isSome_iff_exists.1 hsome
    exact (Services.step_right h.1 h.2 ht).2.1 (hr t ht)
  · refine fun h => .of_inv (P := fun s => s.WellFormed ∧ s.Right) (fun s e t h hm hst => ?_)
      (fun s e h hm t hst => ?_) h0 h
    · obtain ⟨hwf, hiff⟩ := Services.step_right h.1 h.2 hst
      exact ⟨hwf, hiff.2 (hm (by rw [hst]; rfl))⟩
    · exact (Services.step_right h.1 h.2 hst).2.2 (hm (by rw [hst]; rfl))

/-- A service on a connection is deleted and created again: its property stays off the bus. -/
theorem exists_service_down :
    ∃ s, run Services.step Services.init [.serviceOnConnection "qt_default_session_bus",
        .createProperty "qt_default_session_bus" "Battery.Level",
        .deleteService "qt_default_session_bus",
        .serviceOnConnection "qt_default_session_bus"] = some s ∧
      ∃ b, s.instances "qt_default_session_bus" = some b ∧ 0 < b.refCount ∧
        "Battery.Level" ∈ b.properties ∧
        (b.connection, objectPath "Battery.Level") ∉ s.bus.objects := by
  refine ⟨_, rfl, _, rfl, by decide, by decide, ?_⟩
  rw [ServiceBackend.unref]
  decide

end ContextProvider
