import ContextKit.Provider.ServiceBackend

/-!
# Starting a service when the bus refuses

`start()` registers the objects of the properties one after the other and then the bus name, and
each of these calls may fail.  Here the outcome of every call is given, and what is registered over
the connection is kept apart by owner: the object at a path may be one of this backend, or not.

`registerObject` is not called for every property.  If anything is registered at the path already,
that is taken for success; `toRegister` are the properties that remain.  A call that fails ends
`start()` at once, while `stop()` clears up after a failure to get the bus name.

## Main results

* `ServiceOnBus.registerProperties_fst`: the loop comes to its end exactly if no property that
  remains is refused;
* `ServiceOnBus.allOrNothing_iff`: when `start()` is all or nothing.
-/

namespace ContextProvider

/-- An object registered over the connection: that of a property of this backend, or another one. -/
inductive BusObject
  | property (key : String)
  | foreign
  deriving DecidableEq

/-- A backend, the object at each path, and whether the bus name is owned. -/
structure ServiceOnBus where
  backend : ServiceBackend
  objects : String → Option BusObject
  nameOwned : Bool

/-- What `registerObject` returns for the object of each property, and `registerService`. -/
structure BusReplies where
  registerObject : String → Bool
  registerService : Bool

/-- The keys of a hash, in the order in which it gives them. -/
structure KeyOrder (keys : Finset String) where
  toList : List String
  nodup : toList.Nodup
  mem_iff : ∀ key, key ∈ toList ↔ key ∈ keys

namespace ServiceOnBus

/-- The adaptor of a property is there, made now if need be. -/
def createAdaptor (s : ServiceOnBus) (key : String) : ServiceOnBus :=
  { s with backend :=
      { s.backend with createdAdaptors := insert key s.backend.createdAdaptors } }

def registerObject (s : ServiceOnBus) (key : String) : ServiceOnBus :=
  { s with objects := Function.update s.objects (objectPath key) (some (.property key)) }

/-- The result, and what the call leaves. -/
def registerProperty (replies : BusReplies) (s : ServiceOnBus) (key : String) :
    Bool × ServiceOnBus :=
  let s := s.createAdaptor key
  if s.objects (objectPath key) ≠ none then (true, s)
  else if !replies.registerObject key then (false, s)
  else (true, s.registerObject key)

/-- The loop of `start()`. -/
def registerProperties (replies : BusReplies) : ServiceOnBus → List String → Bool × ServiceOnBus
  | s, [] => (true, s)
  | s, key :: keys =>
    let r := s.registerProperty replies key
    if !r.1 then (false, r.2) else registerProperties replies r.2 keys

/-- `unregisterObject` takes away whatever is at the path. -/
def stop (s : ServiceOnBus) : ServiceOnBus where
  backend := s.backend
  objects path := if path ∈ s.backend.createdAdaptors.image objectPath then none else s.objects path
  nameOwned := if s.backend.sharedConnection then s.nameOwned else false

def start (replies : BusReplies) (s : ServiceOnBus) (order : KeyOrder s.backend.properties) :
    Bool × ServiceOnBus :=
  let r := s.registerProperties replies order.toList
  if !r.1 then (false, r.2)
  else if s.backend.sharedConnection then (true, r.2)
  else if !replies.registerService then (false, r.2.stop)
  else (true, { r.2 with nameOwned := true })

/-- None of the backend's objects is registered, nor its name. -/
def Stopped (s : ServiceOnBus) : Prop :=
  (∀ path key, s.objects path ≠ some (.property key)) ∧
    (s.backend.sharedConnection = false → s.nameOwned = false)

/-- Each property's own object is registered, and the name. -/
def Started (s : ServiceOnBus) : Prop :=
  (∀ key ∈ s.backend.properties, s.objects (objectPath key) = some (.property key)) ∧
    (s.backend.sharedConnection = false → s.nameOwned = true)

/-- The service is started if `start()` says so, and it remains stopped if not. -/
def AllOrNothing (replies : BusReplies) (s : ServiceOnBus)
    (order : KeyOrder s.backend.properties) : Prop :=
  ((s.start replies order).1 = true → (s.start replies order).2.Started) ∧
    ((s.start replies order).1 = false → s.Stopped → (s.start replies order).2.Stopped)

/-- Of these properties the ones whose path is free, and of several with one path the first. -/
def toRegister (objects : String → Option BusObject) : List String → List String
  | [] => []
  | key :: keys =>
    if objects (objectPath key) = none then
      key :: (toRegister objects keys).filter fun k => objectPath k ≠ objectPath key
    else toRegister objects keys

variable {replies : BusReplies} {s : ServiceOnBus} {key : String} {keys : List String}

/-! ### One property -/

theorem registerProperty_of_occupied (h : s.objects (objectPath key) ≠ none) :
    s.registerProperty replies key = (true, s.createAdaptor key) := if_pos h

theorem registerProperty_of_free (h : s.objects (objectPath key) = none) :
    s.registerProperty replies key =
      if replies.registerObject key then (true, (s.createAdaptor key).registerObject key)
      else (false, s.createAdaptor key) := by
  have hfree : ¬ (s.createAdaptor key).objects (objectPath key) ≠ none := not_not.2 h
  rw [registerProperty, if_neg hfree]
  cases replies.registerObject key <;> rfl

/-- What is left to register once a property is registered. -/
theorem toRegister_registerObject (objects : String → Option BusObject) (key : String)
    (o : BusObject) (keys : List String) :
    toRegister (Function.update objects (objectPath key) (some o)) keys =
      (toRegister objects keys).filter fun k => objectPath k ≠ objectPath key := by
  induction keys with
  | nil => rfl
  | cons k keys ih =>
    rw [toRegister, toRegister, ih]
    rcases eq_or_ne (objectPath k) (objectPath key) with hpath | hpath
    · rw [hpath, Function.update_self, if_neg (Option.some_ne_none o)]
      by_cases hfree : objects (objectPath key) = none
      · simp [hfree, hpath, List.filter_filter]
      · rw [if_neg hfree]
    · rw [Function.update_of_ne hpath]
      by_cases hfree : objects (objectPath k) = none
      · rw [if_pos hfree, if_pos hfree, List.filter_cons, if_pos (by simpa using hpath)]
        simp only [List.filter_filter, Bool.and_comm]
      · rw [if_neg hfree, if_neg hfree]

/-! ### The loop -/

theorem registerProperties_of_occupied (h : s.objects (objectPath key) ≠ none) :
    s.registerProperties replies (key :: keys) =
      (s.createAdaptor key).registerProperties replies keys := by
  rw [registerProperties, registerProperty_of_occupied h]
  rfl

theorem registerProperties_of_accepted (h : s.objects (objectPath key) = none)
    (hreply : replies.registerObject key = true) :
    s.registerProperties replies (key :: keys) =
      ((s.createAdaptor key).registerObject key).registerProperties replies keys := by
  rw [registerProperties, registerProperty_of_free h, if_pos hreply]
  rfl

theorem registerProperties_of_refused (h : s.objects (objectPath key) = none)
    (hreply : replies.registerObject key = false) :
    s.registerProperties replies (key :: keys) = (false, s.createAdaptor key) := by
  rw [registerProperties, registerProperty_of_free h, hreply]
  rfl

/-- The three ways a turn of the loop goes. -/
theorem registerProperties_cons (replies : BusReplies) (s : ServiceOnBus) (key : String)
    (keys : List String) :
    (s.objects (objectPath key) ≠ none ∧
      s.registerProperties replies (key :: keys) =
        (s.createAdaptor key).registerProperties replies keys) ∨
    (s.objects (objectPath key) = none ∧ replies.registerObject key = true ∧
      s.registerProperties replies (key :: keys) =
        ((s.createAdaptor key).registerObject key).registerProperties replies keys) ∨
    (s.objects (objectPath key) = none ∧ replies.registerObject key = false ∧
      s.registerProperties replies (key :: keys) = (false, s.createAdaptor key)) := by
  by_cases hfree : s.objects (objectPath key) = none
  · cases hreply : replies.registerObject key with
    | true => exact .inr (.inl ⟨hfree, rfl, registerProperties_of_accepted hfree hreply⟩)
    | false => exact .inr (.inr ⟨hfree, rfl, registerProperties_of_refused hfree hreply⟩)
  · exact .inl ⟨hfree, registerProperties_of_occupied hfree⟩

/-- What making an adaptor, and registering an object at a free path, preserve. -/
theorem registerProperties_inv {P : ServiceOnBus → Prop} (hs : P s)
    (hadaptor : ∀ t, ∀ key ∈ keys, P t → P (t.createAdaptor key))
    (hobject : ∀ t : ServiceOnBus, ∀ key ∈ keys, t.objects (objectPath key) = none → P t →
      P (t.registerObject key)) :
    P (s.registerProperties replies keys).2 := by
  induction keys generalizing s with
  | nil => exact hs
  | cons key keys ih =>
    have hmade := hadaptor s key List.mem_cons_self hs
    have hrest {t : ServiceOnBus} (ht : P t) : P (t.registerProperties replies keys).2 :=
      ih ht (fun t k hk => hadaptor t k (List.mem_cons_of_mem key hk))
        fun t k hk => hobject t k (List.mem_cons_of_mem key hk)
    rcases registerProperties_cons replies s key keys with
      ⟨-, heq⟩ | ⟨hfree, -, heq⟩ | ⟨-, -, heq⟩ <;> rw [heq]
    · exact hrest hmade
    · exact hrest (hobject _ key List.mem_cons_self hfree hmade)
    · exact hmade

/-- Nothing but objects and adaptors change. -/
theorem registerProperties_frame (replies : BusReplies) (s : ServiceOnBus) (keys : List String) :
    (s.registerProperties replies keys).2.nameOwned = s.nameOwned ∧
      (s.registerProperties replies keys).2.backend.properties = s.backend.properties ∧
      (s.registerProperties replies keys).2.backend.sharedConnection =
        s.backend.sharedConnection := by
  apply registerProperties_inv (P := fun t => t.nameOwned = s.nameOwned ∧
    t.backend.properties = s.backend.properties ∧
    t.backend.sharedConnection = s.backend.sharedConnection) ⟨rfl, rfl, rfl⟩
  · intro t key _ ht
    exact ht
  · intro t key _ _ ht
    exact ht

/-- An object stays where it is. -/
theorem registerProperties_objects_of_some {path : String} {o : BusObject}
    (h : s.objects path = some o) :
    (s.registerProperties replies keys).2.objects path = some o := by
  apply registerProperties_inv (P := fun t => t.objects path = some o) h
  · intro t key _ ht
    exact ht
  · intro t key _ hfree ht
    have hne : path ≠ objectPath key := by
      rintro rfl
      rw [hfree] at ht
      cases ht
    exact (Function.update_of_ne hne _ _).trans ht

/-- A new object is that of one of the properties, at its path. -/
theorem registerProperties_objects_origin {path : String} {o : BusObject}
    (h : (s.registerProperties replies keys).2.objects path = some o) :
    s.objects path = some o ∨ ∃ key ∈ keys, objectPath key = path ∧ o = .property key := by
  revert h
  apply registerProperties_inv (P := fun t => t.objects path = some o → s.objects path = some o ∨
    ∃ key ∈ keys, objectPath key = path ∧ o = .property key) Or.inl
  · intro t key _ ht
    exact ht
  · intro t key hkey _ ht h
    rcases eq_or_ne path (objectPath key) with rfl | hne
    · have ho : some (BusObject.property key) = some o :=
        (Function.update_self (objectPath key) _ t.objects).symm.trans h
      exact .inr ⟨key, hkey, rfl, (Option.some.inj ho).symm⟩
    · exact ht ((Function.update_of_ne hne _ _).symm.trans h)

/-- After the loop each property has its adaptor, and there is something at its path. -/
theorem registerProperties_of_fst (h : (s.registerProperties replies keys).1 = true) :
    ∀ key ∈ keys, key ∈ (s.registerProperties replies keys).2.backend.createdAdaptors ∧
      (s.registerProperties replies keys).2.objects (objectPath key) ≠ none := by
  induction keys generalizing s with
  | nil => simp
  | cons key keys ih =>
    -- What holds of the key once its turn is over remains so.
    have hkept {t : ServiceOnBus} (hadaptor : key ∈ t.backend.createdAdaptors)
        (hsome : t.objects (objectPath key) ≠ none) :
        key ∈ (t.registerProperties replies keys).2.backend.createdAdaptors ∧
          (t.registerProperties replies keys).2.objects (objectPath key) ≠ none := by
      constructor
      · apply registerProperties_inv (P := fun t => key ∈ t.backend.createdAdaptors) hadaptor
        · intro t k _ ht
          exact Finset.mem_insert_of_mem ht
        · intro t k _ _ ht
          exact ht
      · obtain ⟨o, ho⟩ := Option.ne_none_iff_exists'.1 hsome
        rw [registerProperties_objects_of_some ho]
        exact Option.some_ne_none o
    rw [List.forall_mem_cons]
    rcases registerProperties_cons replies s key keys with
      ⟨htaken, heq⟩ | ⟨-, -, heq⟩ | ⟨-, -, heq⟩ <;> rw [heq] at h ⊢
    · exact ⟨hkept (Finset.mem_insert_self ..) htaken, ih h⟩
    · refine ⟨hkept (Finset.mem_insert_self ..) ?_, ih h⟩
      simp [registerObject]
    · cases h

/-- **The loop comes to its end** exactly if no property that is left to register is refused. -/
theorem registerProperties_fst :
    (s.registerProperties replies keys).1 = true ↔
      ∀ key ∈ toRegister s.objects keys, replies.registerObject key = true := by
  induction keys generalizing s with
  | nil => simp [registerProperties, toRegister]
  | cons key keys ih =>
    rw [toRegister]
    rcases registerProperties_cons replies s key keys with
      ⟨htaken, heq⟩ | ⟨hfree, hreply, heq⟩ | ⟨hfree, hreply, heq⟩ <;> rw [heq]
    · rw [if_neg htaken, ih]
      rfl
    · rw [if_pos hfree, List.forall_mem_cons, and_iff_right hreply, ih,
        ← toRegister_registerObject s.objects key (.property key)]
      rfl
    · simp [hfree, hreply]

/-- Up to the first property that is left to register, the loop only makes adaptors. -/
theorem registerProperties_of_head (replies : BusReplies)
    (h : key ∈ (toRegister s.objects keys).head?) :
    ∃ (t : ServiceOnBus) (rest : List String),
      t.objects = s.objects ∧ t.objects (objectPath key) = none ∧
        s.registerProperties replies keys = t.registerProperties replies (key :: rest) := by
  induction keys generalizing s with
  | nil => simp [toRegister] at h
  | cons k keys ih =>
    rw [toRegister] at h
    by_cases hfree : s.objects (objectPath k) = none
    · rw [if_pos hfree] at h
      obtain rfl : k = key := Option.some.inj h
      exact ⟨s, keys, rfl, hfree, rfl⟩
    · rw [if_neg hfree] at h
      rw [registerProperties_of_occupied hfree]
      exact ih (s := s.createAdaptor k) h

/-- If it is refused, no object is registered. -/
theorem registerProperties_of_head_refused (h : key ∈ (toRegister s.objects keys).head?)
    (hreply : replies.registerObject key = false) :
    (s.registerProperties replies keys).2.objects = s.objects := by
  obtain ⟨t, rest, hobjects, hfree, heq⟩ := registerProperties_of_head replies h
  rw [heq, registerProperties_of_refused hfree hreply]
  exact hobjects

/-- If it is accepted, its object is registered whatever comes after it. -/
theorem registerProperties_of_head_accepted (h : key ∈ (toRegister s.objects keys).head?)
    (hreply : replies.registerObject key = true) :
    (s.registerProperties replies keys).2.objects (objectPath key) = some (.property key) := by
  obtain ⟨t, rest, -, hfree, heq⟩ := registerProperties_of_head replies h
  rw [heq, registerProperties_of_accepted hfree hreply]
  apply registerProperties_objects_of_some
  exact Function.update_self ..

/-! ### Starting -/

/-- The path of each property is free or taken by its own object, and not that of another
property. -/
def PathsApart (s : ServiceOnBus) : Prop :=
  ∀ key ∈ s.backend.properties,
    (s.objects (objectPath key) = none ∨ s.objects (objectPath key) = some (.property key)) ∧
      ∀ k ∈ s.backend.properties, objectPath k = objectPath key → k = key

theorem objects_own_iff (order : KeyOrder s.backend.properties)
    (h : (s.registerProperties replies order.toList).1 = true) :
    (∀ key ∈ s.backend.properties,
      (s.registerProperties replies order.toList).2.objects (objectPath key) =
        some (.property key)) ↔ s.PathsApart := by
  constructor
  · intro hown key hkey
    constructor
    · by_contra! hother
      obtain ⟨o, ho⟩ := Option.ne_none_iff_exists'.1 hother.1
      have hkept : (s.registerProperties replies order.toList).2.objects (objectPath key) = some o :=
        registerProperties_objects_of_some ho
      exact hother.2 (ho.trans (hkept.symm.trans (hown key hkey)))
    · intro k hk hpath
      have howner := hown k hk
      rw [hpath, hown key hkey] at howner
      exact (BusObject.property.inj (Option.some.inj howner)).symm
  · intro hapart key hkey
    obtain ⟨-, hsome⟩ := registerProperties_of_fst h key ((order.mem_iff key).2 hkey)
    obtain ⟨o, ho⟩ := Option.ne_none_iff_exists'.1 hsome
    rw [ho]
    -- The object was there before, or a property with this path has put it there.
    rcases registerProperties_objects_origin ho with hbefore | ⟨k, hk, hpath, rfl⟩
    · rcases (hapart key hkey).1 with hnone | hown
      · rw [hnone] at hbefore
        cases hbefore
      · rw [← hbefore, hown]
    · rw [(hapart key hkey).2 k ((order.mem_iff k).1 hk) hpath]

/-- What has been registered since the backend was stopped is taken away by `stop()`. -/
theorem stopped_stop (hs : s.Stopped) (h : (s.registerProperties replies keys).1 = true) :
    (s.registerProperties replies keys).2.stop.Stopped := by
  constructor
  · intro path key hobject
    obtain ⟨hnotMem, hbefore⟩ := Option.ite_none_left_eq_some.1 hobject
    rcases registerProperties_objects_origin hbefore with hold | ⟨k, hk, rfl, -⟩
    · exact hs.1 path key hold
    · exact hnotMem (Finset.mem_image_of_mem objectPath (registerProperties_of_fst h k hk).1)
  · intro hprivate
    have hname : (s.registerProperties replies keys).2.backend.sharedConnection = false := hprivate
    simp [stop, hname]

/-- The loop left early has registered something unless the first call was refused. -/
theorem stopped_registerProperties_iff (hs : s.Stopped)
    (h : (s.registerProperties replies keys).1 = false) :
    (s.registerProperties replies keys).2.Stopped ↔
      ∃ key ∈ (toRegister s.objects keys).head?, replies.registerObject key = false := by
  obtain ⟨hnameOwned, -, hshared⟩ := registerProperties_frame replies s keys
  constructor
  · intro hstopped
    cases hhead : (toRegister s.objects keys).head? with
    | none =>
      -- With nothing to register the loop would not have been left.
      have hend : (s.registerProperties replies keys).1 = true :=
        registerProperties_fst.2 (by simp [List.head?_eq_none_iff.1 hhead])
      rw [h] at hend
      cases hend
    | some key =>
      refine ⟨key, rfl, Bool.eq_false_iff.2 fun hreply => ?_⟩
      exact hstopped.1 _ key (registerProperties_of_head_accepted hhead hreply)
  · rintro ⟨key, hhead, hreply⟩
    rw [Stopped, registerProperties_of_head_refused hhead hreply, hnameOwned, hshared]
    exact hs

/-- The three ways in which `start()` ends. -/
theorem start_of_left (order : KeyOrder s.backend.properties)
    (h : (s.registerProperties replies order.toList).1 = false) :
    s.start replies order = (false, (s.registerProperties replies order.toList).2) := by
  rw [start, h]
  rfl

theorem start_of_refused (order : KeyOrder s.backend.properties)
    (h : (s.registerProperties replies order.toList).1 = true)
    (hprivate : s.backend.sharedConnection = false) (hname : replies.registerService = false) :
    s.start replies order = (false, (s.registerProperties replies order.toList).2.stop) := by
  rw [start, h, hprivate, hname]
  rfl

theorem start_of_accepted (order : KeyOrder s.backend.properties)
    (h : (s.registerProperties replies order.toList).1 = true)
    (hname : s.backend.sharedConnection = true ∨ replies.registerService = true) :
    (s.start replies order).1 = true ∧
      (s.start replies order).2.objects = (s.registerProperties replies order.toList).2.objects ∧
      ((s.start replies order).2.Started ↔
        ∀ key ∈ s.backend.properties, (s.registerProperties replies order.toList).2.objects
          (objectPath key) = some (.property key)) := by
  obtain ⟨-, hproperties, hshared⟩ := registerProperties_frame replies s order.toList
  cases hconnection : s.backend.sharedConnection with
  | true => simp [start, h, hconnection, Started, hproperties, hshared]
  | false =>
    have hreply : replies.registerService = true := by simpa [hconnection] using hname
    simp [start, h, hconnection, hreply, Started, hproperties]

/-- **`start()` is all or nothing** if and only if it meets no object that is not the property's own
where it succeeds, and the first call of `registerObject` is refused where one is. -/
theorem allOrNothing_iff (replies : BusReplies) (s : ServiceOnBus)
    (order : KeyOrder s.backend.properties) :
    s.AllOrNothing replies order ↔
      ((∀ key ∈ toRegister s.objects order.toList, replies.registerObject key = true) →
        s.backend.sharedConnection = true ∨ replies.registerService = true → s.PathsApart) ∧
      ((∃ key ∈ toRegister s.objects order.toList, replies.registerObject key = false) →
        s.Stopped → ∃ key ∈ (toRegister s.objects order.toList).head?,
          replies.registerObject key = false) := by
  rw [← registerProperties_fst]
  cases h : (s.registerProperties replies order.toList).1 with
  | true =>
    have hnone : ¬ ∃ key ∈ toRegister s.objects order.toList,
        replies.registerObject key = false := by
      rintro ⟨key, hkey, hreply⟩
      rw [registerProperties_fst.1 h key hkey] at hreply
      cases hreply
    simp only [hnone, false_imp_iff, and_true, true_imp_iff]
    by_cases hname : s.backend.sharedConnection = true ∨ replies.registerService = true
    · obtain ⟨hresult, -, hstarted⟩ := start_of_accepted order h hname
      simp only [AllOrNothing, hresult, hname, true_imp_iff, Bool.true_eq_false, false_imp_iff,
        and_true]
      rw [hstarted, objects_own_iff order h]
    · obtain ⟨hprivate, hreply⟩ := not_or.1 hname
      rw [Bool.not_eq_true] at hprivate hreply
      simp only [AllOrNothing, start_of_refused order h hprivate hreply, hname, false_imp_iff,
        iff_true, Bool.false_eq_true, true_imp_iff, true_and]
      exact fun hs => stopped_stop hs h
  | false =>
    have hsome : ∃ key ∈ toRegister s.objects order.toList,
        replies.registerObject key = false := by
      by_contra! hall
      rw [registerProperties_fst.2 fun key hkey => by simpa using hall key hkey] at h
      cases h
    simp only [AllOrNothing, start_of_left order h, hsome, Bool.false_eq_true, false_imp_iff,
      true_and, true_imp_iff]
    exact forall_congr' fun hs => stopped_registerProperties_iff hs h

/-- Where every call succeeds, `start()` registers what `ServiceBackend.start` does. -/
theorem start_objects (order : KeyOrder s.backend.properties)
    (hreplies : ∀ key, replies.registerObject key = true) (hname : replies.registerService = true)
    {bus : Registrations}
    (hbus : ∀ path, s.objects path ≠ none ↔ (s.backend.connection, path) ∈ bus.objects)
    (path : String) :
    (s.start replies order).2.objects path ≠ none ↔
      (s.backend.connection, path) ∈ (s.backend.start bus).2.objects := by
  have hloop : (s.registerProperties replies order.toList).1 = true :=
    registerProperties_fst.2 fun key _ => hreplies key
  obtain ⟨-, hobjects, -⟩ := start_of_accepted order hloop (.inr hname)
  rw [hobjects, ServiceBackend.mem_start_objects, ServiceBackend.mem_objectsOf, ← hbus]
  constructor
  · intro hsome
    obtain ⟨o, ho⟩ := Option.ne_none_iff_exists'.1 hsome
    rcases registerProperties_objects_origin ho with hbefore | ⟨key, hkey, rfl, -⟩
    · exact .inl (Option.ne_none_iff_exists'.2 ⟨o, hbefore⟩)
    · exact .inr ⟨key, (order.mem_iff key).1 hkey, rfl⟩
  · rintro (hbefore | ⟨key, hkey, hpath⟩)
    · obtain ⟨o, ho⟩ := Option.ne_none_iff_exists'.1 hbefore
      exact Option.ne_none_iff_exists'.2 ⟨o, registerProperties_objects_of_some ho⟩
    · cases hpath
      exact (registerProperties_of_fst hloop key ((order.mem_iff key).2 hkey)).2

/-- Two properties of a stopped backend, over a connection of its own. -/
def twoProperties (first second : String) : ServiceOnBus where
  backend := { ServiceBackend.new "org.test" "org.test" with properties := {first, second} }
  objects _ := none
  nameOwned := false

def twoKeys (first second : String) (h : first ≠ second) :
    KeyOrder (twoProperties first second).backend.properties where
  toList := [first, second]
  nodup := by simpa using h
  mem_iff key := by simp [twoProperties]

theorem stopped_twoProperties (first second : String) : (twoProperties first second).Stopped :=
  ⟨fun _ _ h => (by cases h), fun _ => rfl⟩

/-- The second object is refused and the first one remains; or the first one is at the path of the
second, which is reported as started. -/
theorem exists_start_partial :
    ¬ (twoProperties "Screen.TopEdge" "Battery.Low").AllOrNothing
        ⟨fun key => key ≠ "Battery.Low", true⟩ (twoKeys _ _ (by decide)) ∧
      ¬ (twoProperties "Screen.TopEdge" "Screen/TopEdge").AllOrNothing ⟨fun _ => true, true⟩
        (twoKeys _ _ (by decide)) := by
  constructor
  · intro h
    have hstopped := h.2 (by decide) (stopped_twoProperties _ _)
    exact hstopped.1 (objectPath "Screen.TopEdge") "Screen.TopEdge" (by decide)
  · intro h
    have hstarted := h.1 (by decide +kernel)
    have hobject := hstarted.1 "Screen/TopEdge" (by decide +kernel)
    revert hobject
    decide +kernel

end ServiceOnBus

end ContextProvider
