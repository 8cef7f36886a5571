import ContextKit.Provider.PropertyPrivate
import ContextKit.Provider.ServiceBackend

/-!
# `contextc`: the C interface

A C program has one service at a time, which the library keeps in a global variable together with
the listeners of the keys installed on it.  Both are made by `context_provider_init` and destroyed
by `context_provider_stop`; the properties stay with the backend of the service.

Maps and lists are made by the library and handed to the program as pointers.  A block of memory is
known by its number here, and no number is given twice, so that `deleted` counts how often a block
has been freed.  A pointer is a valid argument as long as its block is not freed.

## Main results

* `ContextC.inv_step`: the two variables are set together, and what is still there was not freed;
* `ContextC.safe_iff_service`: every call is safe, unless a map or a list is set without a service.
-/

namespace ContextProvider
open ContextKit Transition

/-- The `QVariant`s that the C interface makes; a double is given by its bits. -/
class CVariant (V : Type) extends QVariant V where
  ofInt : ℤ → V
  ofDouble : UInt64 → V
  ofBool : Bool → V
  ofString : String → V
  ofMap : List (String × V) → V
  ofList : List V → V

/-- What is behind a pointer. -/
inductive Block (V : Type)
  | map (m : List (String × V))
  | list (l : List V)

/-- A map or a list as a value. -/
def Block.toVariant {V : Type} [CVariant V] : Block V → V
  | .map m => CVariant.ofMap m
  | .list l => CVariant.ofList l

def Block.isMap {V : Type} : Block V → Bool
  | .map _ => true
  | .list _ => false

/-- A null pointer that is dereferenced. -/
inductive NullPointer
  | cService
  | listeners
  deriving DecidableEq

/-- A `PropertyListener` or a `GroupListener`. -/
structure Listener where
  keys : List String
  clearsOnSubscribe : Bool

/-- The global variables, with the service given by the key of its backend; the properties of each
backend; and the memory. -/
structure ContextC (V : Type) where
  cService : Option String
  listeners : Option (List Listener)
  properties : String → String → Option (PropertyPrivate V)
  heap : ℕ → Option (Block V)
  deleted : ℕ → ℕ

namespace ContextC

variable {V : Type} {c c' : ContextC V}

/-- The program starts. -/
def start : ContextC V where
  cService := none
  listeners := none
  properties _ _ := none
  heap _ := none
  deleted _ := 0

/-! ### The variables and the memory -/

/-- The result is 0 if there is a service already. -/
def contextProviderInit (busType : BusType) (busName : String) (c : ContextC V) :
    ℤ × ContextC V :=
  if c.cService ≠ none then (0, c)
  else
    (1, { c with cService := some (Services.lookupOf busType busName), listeners := some [] })

def contextProviderStop (c : ContextC V) : ContextC V :=
  if c.cService ≠ none then { c with listeners := none, cService := none } else c

/-- `delete` -/
def delete (pointer : ℕ) (c : ContextC V) : ContextC V :=
  { c with
    heap := Function.update c.heap pointer none
    deleted := Function.update c.deleted pointer (c.deleted pointer + 1) }

/-- The service and its listeners are there or not together, a block in use has not been freed, and
none has been freed twice. -/
structure Inv (c : ContextC V) : Prop where
  both : c.cService = none ↔ c.listeners = none
  live : ∀ pointer, c.heap pointer ≠ none → c.deleted pointer = 0
  once : ∀ pointer, c.deleted pointer ≤ 1

theorem inv_start : (start : ContextC V).Inv :=
  ⟨by simp [start], fun _ h => absurd rfl h, fun _ => Nat.zero_le 1⟩

theorem inv_init (hc : c.Inv) (busType : BusType) (busName : String) :
    (c.contextProviderInit busType busName).2.Inv := by
  rw [contextProviderInit]
  split_ifs with h
  · exact hc
  · exact ⟨by simp, hc.live, hc.once⟩

theorem inv_stop (hc : c.Inv) : c.contextProviderStop.Inv := by
  rw [contextProviderStop]
  split_ifs with h
  · exact ⟨by simp, hc.live, hc.once⟩
  · exact hc

/-- A change of the properties alone. -/
theorem Inv.of_eq (hc : c.Inv) (hservice : c'.cService = c.cService)
    (hlisteners : c'.listeners = c.listeners) (hheap : c'.heap = c.heap)
    (hdeleted : c'.deleted = c.deleted) : c'.Inv where
  both := by rw [hservice, hlisteners, hc.both]
  live := by rw [hheap, hdeleted]; exact hc.live
  once := by rw [hdeleted]; exact hc.once

theorem inv_delete (hc : c.Inv) {pointer : ℕ} (h : c.heap pointer ≠ none) :
    (c.delete pointer).Inv := by
  refine ⟨hc.both, fun p hp => ?_, fun p => ?_⟩
  · rcases eq_or_ne p pointer with rfl | hne
    · simp [delete] at hp
    · have hbefore : c.heap p ≠ none := by simpa [delete, hne] using hp
      simpa [delete, hne] using hc.live p hbefore
  · rcases eq_or_ne p pointer with rfl | hne
    · simp [delete, hc.live p h]
    · simpa [delete, hne] using hc.once p

/-! ### Listeners -/

variable [CVariant V]

/-- A property of a backend gets a new state. -/
def putProperty (service key : String) (p : PropertyPrivate V) (c : ContextC V) : ContextC V :=
  { c with properties := fun s k => if s = service ∧ k = key then some p else c.properties s k }

/-- `Property::init`: the property is found, or made. -/
def createProperty (now : ℕ) (service : String) (c : ContextC V) (key : String) : ContextC V :=
  c.putProperty service key ((c.properties service key).getD (.init now))

/-- A listener for these keys is made and appended. -/
def install (now : ℕ) (l : Listener) (c : ContextC V) : Except NullPointer (ContextC V) :=
  match c.cService with
  | none => .ok c
  | some service =>
    match c.listeners with
    | none => .error .listeners
    | some listeners =>
      .ok { l.keys.foldl (createProperty now service) c with listeners := some (listeners ++ [l]) }

def contextProviderInstallKey (now : ℕ) (key : String) (clears : Bool) (c : ContextC V) :
    Except NullPointer (ContextC V) := c.install now ⟨[key], clears⟩

def contextProviderInstallGroup (now : ℕ) (keyGroup : List String) (clears : Bool)
    (c : ContextC V) : Except NullPointer (ContextC V) := c.install now ⟨keyGroup, clears⟩

/-! ### Values -/

/-- `cService->setValue(key, v)` -/
def setValue (now : ℕ) (key : String) (v : V) (c : ContextC V) :
    Except NullPointer (ContextC V) :=
  match c.cService with
  | none => .error .cService
  | some service =>
    match c.properties service key with
    | none => .ok c
    | some p => .ok (c.putProperty service key (p.setValue v now).1)

/-- The value is only set if there is a service. -/
def setIfService (now : ℕ) (key : String) (v : V) (c : ContextC V) :
    Except NullPointer (ContextC V) := if c.cService ≠ none then c.setValue now key v else .ok c

def contextProviderSetInteger (now : ℕ) (key : String) (value : ℤ) :
    ContextC V → Except NullPointer (ContextC V) := setIfService now key (CVariant.ofInt value)

def contextProviderSetDouble (now : ℕ) (key : String) (value : UInt64) :
    ContextC V → Except NullPointer (ContextC V) := setIfService now key (CVariant.ofDouble value)

def contextProviderSetBoolean (now : ℕ) (key : String) (value : ℤ) :
    ContextC V → Except NullPointer (ContextC V) :=
  setIfService now key (CVariant.ofBool (value ≠ 0))

def contextProviderSetString (now : ℕ) (key value : String) :
    ContextC V → Except NullPointer (ContextC V) := setIfService now key (CVariant.ofString value)

def contextProviderSetNull (now : ℕ) (key : String) :
    ContextC V → Except NullPointer (ContextC V) := setIfService now key QVariant.invalid

/-- The value behind the pointer is set, and the block freed if the program asks for it. -/
def setBlock (now : ℕ) (key : String) (pointer : ℕ) (free : Bool) (c : ContextC V) :
    Except NullPointer (ContextC V) := do
  let v := ((c.heap pointer).map Block.toVariant).getD QVariant.invalid
  let c ← c.setValue now key v
  return if free then c.delete pointer else c

def contextProviderSetMap (now : ℕ) (key : String) (map : ℕ) (freeMap : Bool) :
    ContextC V → Except NullPointer (ContextC V) := setBlock now key map freeMap

def contextProviderSetList (now : ℕ) (key : String) (list : ℕ) (freeList : Bool) :
    ContextC V → Except NullPointer (ContextC V) := setBlock now key list freeList

/-! ### Sequences of calls -/

/-- The calls of a program.  `putBlock` is what the functions for maps and lists come to: a block is
made, or its contents change; and `free` is `context_provider_map_free` or
`context_provider_list_free`. -/
inductive Call (V : Type)
  | init (busType : BusType) (busName : String)
  | stop
  | installKey (now : ℕ) (key : String) (clears : Bool)
  | installGroup (now : ℕ) (keyGroup : List String) (clears : Bool)
  | setInteger (now : ℕ) (key : String) (value : ℤ)
  | setDouble (now : ℕ) (key : String) (value : UInt64)
  | setBoolean (now : ℕ) (key : String) (value : ℤ)
  | setString (now : ℕ) (key value : String)
  | setNull (now : ℕ) (key : String)
  | setMap (now : ℕ) (key : String) (map : ℕ) (freeMap : Bool)
  | setList (now : ℕ) (key : String) (list : ℕ) (freeList : Bool)
  | putBlock (pointer : ℕ) (block : Block V)
  | free (pointer : ℕ)

/-- A pointer that is given is that of a map, of a list, or of either, in use; and a block is made
where none has been. -/
def validArguments (c : ContextC V) : Call V → Bool
  | .setMap _ _ map _ => (c.heap map).any Block.isMap
  | .setList _ _ list _ => (c.heap list).any fun b => !b.isMap
  | .putBlock pointer _ => c.deleted pointer = 0
  | .free pointer => (c.heap pointer).isSome
  | _ => true

def call (c : ContextC V) : Call V → Except NullPointer (ContextC V)
  | .init busType busName => .ok (c.contextProviderInit busType busName).2
  | .stop => .ok c.contextProviderStop
  | .installKey now key clears => c.contextProviderInstallKey now key clears
  | .installGroup now keyGroup clears => c.contextProviderInstallGroup now keyGroup clears
  | .setInteger now key value => c.contextProviderSetInteger now key value
  | .setDouble now key value => c.contextProviderSetDouble now key value
  | .setBoolean now key value => c.contextProviderSetBoolean now key value
  | .setString now key value => c.contextProviderSetString now key value
  | .setNull now key => c.contextProviderSetNull now key
  | .setMap now key map freeMap => c.contextProviderSetMap now key map freeMap
  | .setList now key list freeList => c.contextProviderSetList now key list freeList
  | .putBlock pointer block =>
    .ok { c with heap := Function.update c.heap pointer (some block) }
  | .free pointer => .ok (c.delete pointer)

/-- A call with valid arguments, if it returns. -/
def step (c : ContextC V) (e : Call V) : Option (ContextC V) :=
  if c.validArguments e then (c.call e).toOption else none

/-- The functions `context_provider_set_*`. -/
def Call.isSetter : Call V → Bool
  | .setInteger .. | .setDouble .. | .setBoolean .. | .setString .. | .setNull .. | .setMap ..
  | .setList .. => true
  | _ => false

/-- The block that a setter is asked to free. -/
def Call.toFree : Call V → Option ℕ
  | .setMap _ _ map freeMap => if freeMap then some map else none
  | .setList _ _ list freeList => if freeList then some list else none
  | _ => none

/-- The call dereferences no null pointer and keeps the invariant; if it sets a value without a
service, it only frees the block that it is to free; and this block is freed once. -/
def Safe (c : ContextC V) (e : Call V) : Prop :=
  ∃ c', c.call e = .ok c' ∧ c'.Inv ∧
    (e.isSetter → c.cService = none → c' = e.toFree.elim c fun pointer => c.delete pointer) ∧
    ∀ pointer ∈ e.toFree, c.deleted pointer = 0 ∧ c'.deleted pointer = 1

/-- A map or a list is set, and there is no service. -/
def WithoutService (c : ContextC V) : Call V → Prop
  | .setMap .. | .setList .. => c.cService = none
  | _ => False

/-! ### What each function keeps -/

theorem inv_createProperties (hc : c.Inv) (now : ℕ) (service : String) (keys : List String) :
    (keys.foldl (createProperty now service) c).Inv ∧
      (keys.foldl (createProperty now service) c).cService = c.cService := by
  induction keys generalizing c with
  | nil => exact ⟨hc, rfl⟩
  | cons key keys ih => exact ih (hc.of_eq rfl rfl rfl rfl)

/-- A listener is only appended to listeners. -/
theorem install_ok (hc : c.Inv) (now : ℕ) (l : Listener) :
    ∃ c', c.install now l = .ok c' ∧ c'.Inv := by
  rw [install]
  cases hservice : c.cService with
  | none => exact ⟨c, rfl, hc⟩
  | some service =>
    cases hlisteners : c.listeners with
    | none =>
      rw [hc.both.2 hlisteners] at hservice
      cases hservice
    | some listeners =>
      obtain ⟨hcreated, hsame⟩ := inv_createProperties hc now service l.keys
      refine ⟨_, rfl, ?_, hcreated.live, hcreated.once⟩
      simp [hsame, hservice]

theorem setValue_ok (hc : c.Inv) (hservice : c.cService ≠ none) (now : ℕ) (key : String) (v : V) :
    ∃ c', c.setValue now key v = .ok c' ∧ c'.Inv ∧ c'.heap = c.heap ∧ c'.deleted = c.deleted := by
  obtain ⟨service, hsome⟩ := Option.ne_none_iff_exists'.1 hservice
  simp only [setValue, hsome]
  cases c.properties service key with
  | none => exact ⟨c, rfl, hc, rfl, rfl⟩
  | some p => exact ⟨_, rfl, hc.of_eq rfl rfl rfl rfl, rfl, rfl⟩

theorem setIfService_ok (hc : c.Inv) (now : ℕ) (key : String) (v : V) :
    ∃ c', c.setIfService now key v = .ok c' ∧ c'.Inv ∧ (c.cService = none → c' = c) := by
  rw [setIfService]
  split_ifs with h
  · obtain ⟨c', hok, hinv, -⟩ := setValue_ok hc h now key v
    exact ⟨c', hok, hinv, fun hnone => absurd hnone h⟩
  · exact ⟨c, rfl, hc, fun _ => rfl⟩

/-- A map or a list can be set if there is a service, and is freed once. -/
theorem setBlock_ok (hc : c.Inv) (hservice : c.cService ≠ none) {pointer : ℕ}
    (h : c.heap pointer ≠ none) (now : ℕ) (key : String) (free : Bool) :
    ∃ c', c.setBlock now key pointer free = .ok c' ∧ c'.Inv ∧
      (free = true → c.deleted pointer = 0 ∧ c'.deleted pointer = 1) := by
  obtain ⟨d, hok, hinv, hheap, hdeleted⟩ := setValue_ok hc hservice now key
    (((c.heap pointer).map Block.toVariant).getD QVariant.invalid)
  have hzero := hc.live pointer h
  cases free with
  | false =>
    refine ⟨d, ?_, hinv, fun hfree => by cases hfree⟩
    rw [setBlock, hok]
    rfl
  | true =>
    refine ⟨d.delete pointer, ?_, inv_delete hinv (by rwa [hheap]), fun _ => ⟨hzero, ?_⟩⟩
    · rw [setBlock, hok]
      rfl
    · simp [delete, hdeleted, hzero]

theorem setBlock_error (hservice : c.cService = none) (now : ℕ) (key : String) (pointer : ℕ)
    (free : Bool) : c.setBlock now key pointer free = .error .cService := by
  rw [setBlock, setValue, hservice]
  rfl

/-! ### Every sequence of calls -/

/-- A setter that is guarded. -/
theorem safe_setIfService (hc : c.Inv) {e : Call V} (hfree : e.toFree = none) {now : ℕ}
    {key : String} {v : V} (he : c.call e = c.setIfService now key v) : c.Safe e := by
  obtain ⟨c', hok, hinv, hsame⟩ := setIfService_ok hc now key v
  refine ⟨c', he.trans hok, hinv, fun _ hnone => ?_, ?_⟩
  · rw [hfree]
    exact hsame hnone
  · simp [hfree]

/-- One that is not. -/
theorem safe_setBlock (hc : c.Inv) (hservice : c.cService ≠ none) {e : Call V} {now pointer : ℕ}
    {key : String} {free : Bool} (h : c.heap pointer ≠ none)
    (hfree : e.toFree = if free then some pointer else none)
    (he : c.call e = c.setBlock now key pointer free) : c.Safe e := by
  obtain ⟨c', hok, hinv, hfreed⟩ := setBlock_ok hc hservice h now key free
  refine ⟨c', he.trans hok, hinv, fun _ hnone => absurd hnone hservice, fun p hp => ?_⟩
  rw [hfree] at hp
  obtain ⟨htrue, hsome⟩ := Option.ite_none_right_eq_some.1 hp
  cases hsome
  exact hfreed htrue

theorem safe_of_service (hc : c.Inv) {e : Call V} (hvalid : c.validArguments e = true)
    (hservice : ¬ c.WithoutService e) : c.Safe e := by
  -- A function that is no setter has nothing to free and only has to keep the invariant.
  have hother {c' : ContextC V} (hok : c.call e = .ok c') (hinv : c'.Inv)
      (hsetter : e.isSetter = false) (hfree : e.toFree = none) : c.Safe e :=
    ⟨c', hok, hinv, by simp [hsetter], by simp [hfree]⟩
  cases e with
  | init busType busName => exact hother rfl (inv_init hc busType busName) rfl rfl
  | stop => exact hother rfl (inv_stop hc) rfl rfl
  | installKey now key clears =>
    obtain ⟨c', hok, hinv⟩ := install_ok hc now ⟨[key], clears⟩
    exact hother hok hinv rfl rfl
  | installGroup now keyGroup clears =>
    obtain ⟨c', hok, hinv⟩ := install_ok hc now ⟨keyGroup, clears⟩
    exact hother hok hinv rfl rfl
  | setInteger | setDouble | setBoolean | setString | setNull =>
    exact safe_setIfService hc rfl rfl
  | setMap now key map freeMap =>
    obtain ⟨m, hm, -⟩ := (Option.any_eq_true _ _).1 hvalid
    exact safe_setBlock hc hservice (by simp [hm]) rfl rfl
  | setList now key list freeList =>
    obtain ⟨l, hl, -⟩ := (Option.any_eq_true _ _).1 hvalid
    exact safe_setBlock hc hservice (by simp [hl]) rfl rfl
  | putBlock pointer block =>
    refine hother rfl ⟨hc.both, fun p hp => ?_, hc.once⟩ rfl rfl
    rcases eq_or_ne p pointer with rfl | hne
    · exact of_decide_eq_true hvalid
    · exact hc.live p (by simpa [hne] using hp)
  | free pointer =>
    exact hother rfl (inv_delete hc (Option.isSome_iff_ne_none.1 hvalid)) rfl rfl

theorem call_error {e : Call V} (h : c.WithoutService e) : c.call e = .error .cService := by
  cases e with
  | setMap now key map freeMap => exact setBlock_error h now key map freeMap
  | setList now key list freeList => exact setBlock_error h now key list freeList
  | _ => exact h.elim

theorem inv_step {e : Call V} (hc : c.Inv) (h : step c e = some c') : c'.Inv := by
  obtain ⟨hvalid, hreturns⟩ := Option.ite_none_right_eq_some.1 h
  have hservice : ¬ c.WithoutService e := by
    intro hnone
    rw [call_error hnone] at hreturns
    cases hreturns
  obtain ⟨d, hok, hinv, -⟩ := safe_of_service hc hvalid hservice
  rw [hok] at hreturns
  cases hreturns
  exact hinv

/-- **Every call is safe** if and only if no map or list is set while there is no service. -/
theorem safe_iff_service (es : List (Call V)) :
    Along step (fun c e => c.validArguments e = true → c.Safe e) start es ↔
      Along step (fun c e => c.validArguments e = true → ¬ c.WithoutService e) start es := by
  constructor
  · apply Along.of_inv (P := fun _ => True) (fun _ _ _ _ _ _ => trivial) _ trivial
    intro c e _ hsafe hvalid hnone
    obtain ⟨c', hok, -⟩ := hsafe hvalid
    rw [call_error hnone] at hok
    cases hok
  · apply Along.of_inv (P := Inv) (fun c e c' hc _ h => inv_step hc h) _ inv_start
    intro c e hc hservice hvalid
    exact safe_of_service hc hvalid (hservice hvalid)

/-- The numbers among the values of the C interface, and null. -/
instance : CVariant (Option ℤ) where
  ofInt := some
  ofDouble _ := none
  ofBool b := some b.toInt
  ofString _ := none
  ofMap _ := none
  ofList _ := none

/-- A map is set after the service was stopped. -/
theorem exists_null_dereferenced :
    ∃ (c : ContextC (Option ℤ)) (e : Call (Option ℤ)),
      run step start [.init .sessionBus "com.test.provider", .installKey 0 "Something.Big" false,
        .putBlock 0 (.map [("x", some 1)]), .stop] = some c ∧
      c.validArguments e = true ∧ c.call e = .error .cService ∧ ¬ c.Safe e := by
  refine ⟨_, .setMap 1 "Something.Big" 0 true, rfl, rfl, rfl, ?_⟩
  rintro ⟨c', hok, -⟩
  cases hok

end ContextC

end ContextProvider
