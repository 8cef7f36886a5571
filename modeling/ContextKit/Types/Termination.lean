import ContextKit.Types.ContextTypeInfo

/-!
# When a type check ends

`typeCheck` calls itself for the base type of a reference, and then for the elements of a list or
the entries of a map.  The values get smaller on the way down, but nothing bounds the way from base
type to base type: `hasBase` and `getBase` carry a depth, `typeCheck` does not.  `BaseEnds` says
that the base types of a name come to an end, and `typeCheck_ends_iff` that a check comes to a
result exactly if they do for every reference it comes to.

What is hard-wired for a name is a sequence of items, each a fixed result or another check, that is
gone through up to the first failure.
-/

namespace ContextKit
open AssocTree

/-- The base types of the type `name` lead to one without a base. -/
inductive BaseEnds (reg : TypeRegistry) : String → Prop
  | intro {name : String} (h : ∀ b, base reg name = some b → BaseEnds reg b.name) :
      BaseEnds reg name

/-- A part of what is hard-wired: a result, or a check of another value. -/
inductive Item
  | result (b : Bool)
  | check (t : AssocTree) (v : Value)

/-- What an item comes to. -/
def Item.run (check : AssocTree → Value → Option Bool) : Item → Option Bool
  | .result b => some b
  | .check t v => check t v

section

variable (conv : Conversions)

/-- The items of a list: first its length, then the elements. -/
def listItems (t : AssocTree) : Value → List Item
  | .list vl =>
    let length : ℤ := vl.length
    if (t.valueOf "min").any fun m => decide (length < (parameterToInt conv m).toInt) then
      [.result false]
    else if (t.valueOf "max").any fun m => decide ((parameterToInt conv m).toInt < length) then
      [.result false]
    else
      match t.valueOf "type" with
      | none => []
      | some eltype => vl.map (.check eltype)
  | _ => [.result false]

/-- The items of a map: its entries. -/
def mapItems (t : AssocTree) : Value → List Item
  | .map m =>
    let othersAllowed := t.nodes.any fun p => p.name = "allow-other-keys"
    if allowedKeys t = [] then []
    else
      m.map fun entry =>
        match (allowedKeys t).lookup entry.1 with
        | some none => .result true
        | some (some type) => .check type entry.2
        | none => .result othersAllowed
  | _ => [.result false]

/-- The items of what is hard-wired for a name. -/
def items (t : AssocTree) (v : Value) : List Item :=
  if t.name = "list" then listItems conv t v
  else if t.name = "map" then mapItems t v
  else [.result ((checkHardwired conv (fun _ _ => none) t v).getD true)]

/-- The check of `v` against `t` passes this item. -/
def Item.Passes (reg : TypeRegistry) : Item → Prop
  | .result b => b = true
  | .check t v => Returns conv reg t v true

/-- Checking `v` against `t`, one comes to check `v'` against `t'`: for the base type; and if that
accepts the value, for an item all the items before which pass. -/
inductive Reached (reg : TypeRegistry) : AssocTree → Value → AssocTree → Value → Prop
  | refl (t : AssocTree) (v : Value) : Reached reg t v t v
  | base {t b t' : AssocTree} {v v' : Value} (hb : base reg t.name = some b)
      (h : Reached reg (b.instantiate t.nodes) v t' v') : Reached reg t v t' v'
  | item {t t₁ t' : AssocTree} {v v₁ v' : Value} {l r : List Item}
      (hb : ∀ b, base reg t.name = some b → Returns conv reg (b.instantiate t.nodes) v true)
      (hitems : items conv t v = l ++ .check t₁ v₁ :: r) (hl : ∀ i ∈ l, i.Passes conv reg)
      (h : Reached reg t₁ v₁ t' v') : Reached reg t v t' v'

end

/-! ### The items of a check -/

section

variable {conv : Conversions} {check check' : AssocTree → Value → Option Bool}

theorem checkAll_map {α β : Type} (f : α → β) (g : β → Option Bool) (l : List α) :
    checkAll g (l.map f) = checkAll (fun a => g (f a)) l := by
  induction l with
  | nil => rfl
  | cons a l ih => simp only [List.map_cons, checkAll, ih]

theorem checkHardwired_eq_items (t : AssocTree) (v : Value) :
    checkHardwired conv check t v = checkAll (Item.run check) (items conv t v) := by
  unfold items
  split_ifs with hlist hmap
  · have hwired : checkHardwired conv check t v = checkList conv check t v := by
      simp [checkHardwired, hlist]
    rw [hwired]
    cases v with
    | list vl =>
      unfold checkList listItems
      dsimp only
      split_ifs
      · rfl
      · rfl
      · cases t.valueOf "type" with
        | none => rfl
        | some eltype => exact (checkAll_map (Item.check eltype) (Item.run check) vl).symm
    | null | bool | int | uint | longLong | uLongLong | double | string | map => rfl
  · have hwired : checkHardwired conv check t v = checkMap check t v := by
      simp [checkHardwired, hmap]
    rw [hwired]
    cases v with
    | map m =>
      unfold checkMap mapItems
      dsimp only
      split_ifs
      · rfl
      · rw [checkAll_map]
        congr 1
        funext entry
        rcases (allowedKeys t).lookup entry.1 with _ | _ | type <;> rfl
    | null | bool | int | uint | longLong | uLongLong | double | string | list => rfl
  · -- The other names ask for no other check.
    have hsame : checkHardwired conv check t v = checkHardwired conv (fun _ _ => none) t v := by
      simp only [checkHardwired, if_neg hlist, if_neg hmap]
    have hsome : (checkHardwired conv (fun _ _ => none) t v).isSome = true := by
      simp only [checkHardwired, if_neg hlist, if_neg hmap, apply_ite Option.isSome,
        Option.isSome_some, ite_self]
    obtain ⟨b, hb⟩ := Option.isSome_iff_exists.1 hsome
    rw [hsame, hb]
    cases b <;> rfl

theorem checkAll_mono {α : Type} {f g : α → Option Bool} (hfg : ∀ a b, f a = some b → g a = some b)
    {l : List α} {b : Bool} (h : checkAll f l = some b) : checkAll g l = some b := by
  induction l with
  | nil => exact h
  | cons a l ih =>
    rw [checkAll] at h ⊢
    rcases hf : f a with _ | _ | _
    · rw [hf] at h
      cases h
    · rw [hf] at h
      rw [hfg a false hf]
      exact h
    · rw [hf] at h
      rw [hfg a true hf]
      exact ih h

theorem typeCheck_mono {reg : TypeRegistry} {fuel : ℕ} {t : AssocTree} {v : Value} {b : Bool}
    (h : typeCheck conv reg fuel t v = some b) : typeCheck conv reg (fuel + 1) t v = some b := by
  induction fuel generalizing t v b with
  | zero => cases h
  | succ fuel ih =>
    have hwired : ∀ b, checkHardwired conv (typeCheck conv reg fuel) t v = some b →
        checkHardwired conv (typeCheck conv reg (fuel + 1)) t v = some b := by
      intro b hb
      rw [checkHardwired_eq_items] at hb ⊢
      refine checkAll_mono (fun i c hc => ?_) hb
      cases i with
      | result d => exact hc
      | check t v => exact ih hc
    rw [typeCheck] at h ⊢
    cases hb : base reg t.name with
    | none =>
      rw [hb] at h
      exact hwired b h
    | some bt =>
      simp only [hb] at h ⊢
      rcases hbase : typeCheck conv reg fuel (bt.instantiate t.nodes) v with _ | _ | _
      · rw [hbase] at h
        cases h
      · rw [hbase] at h
        rw [ih hbase]
        exact h
      · rw [hbase] at h
        rw [ih hbase]
        exact hwired b h

/-- A result with some amount of fuel is the result. -/
theorem returns_iff {reg : TypeRegistry} {t : AssocTree} {v : Value} {b : Bool} :
    Returns conv reg t v b ↔ ∃ fuel, typeCheck conv reg fuel t v = some b := by
  constructor
  · rintro ⟨n, hn⟩
    exact ⟨n, hn n le_rfl⟩
  · rintro ⟨n, hn⟩
    refine ⟨n, fun fuel hfuel => ?_⟩
    induction hfuel with
    | refl => exact hn
    | step _ ih => exact typeCheck_mono ih

end

/-! ### The two directions -/

section

variable {conv : Conversions} {reg : TypeRegistry} {t t' : AssocTree} {v v' : Value}

/-- A check that comes to a result has come to the end of the base types. -/
theorem baseEnds_of_returns {b : Bool} (h : Returns conv reg t v b) : BaseEnds reg t.name := by
  obtain ⟨fuel, hrun⟩ := returns_iff.1 h
  clear h
  induction fuel generalizing t b with
  | zero => cases hrun
  | succ fuel ih =>
    refine .intro fun bt hbt => ?_
    rw [typeCheck] at hrun
    simp only [hbt] at hrun
    rcases hbase : typeCheck conv reg fuel (bt.instantiate t.nodes) v with _ | c
    · rw [hbase] at hrun
      cases hrun
    · have hends := ih hbase
      rwa [instantiate_eq] at hends

theorem returns_base {b : Bool} (h : Returns conv reg t v b) {bt : AssocTree}
    (hbt : base reg t.name = some bt) : ∃ c, Returns conv reg (bt.instantiate t.nodes) v c := by
  obtain ⟨fuel, h⟩ := returns_iff.1 h
  cases fuel with
  | zero => cases h
  | succ fuel =>
    rw [typeCheck] at h
    simp only [hbt] at h
    rcases hbase : typeCheck conv reg fuel (bt.instantiate t.nodes) v with _ | c
    · rw [hbase] at h
      cases h
    · exact ⟨c, returns_iff.2 ⟨fuel, hbase⟩⟩

/-- If the base type accepts the value, the items are gone through. -/
theorem items_of_returns {b : Bool} (h : Returns conv reg t v b)
    (hb : ∀ bt, base reg t.name = some bt → Returns conv reg (bt.instantiate t.nodes) v true) :
    ∃ fuel, checkAll (Item.run (typeCheck conv reg fuel)) (items conv t v) = some b := by
  obtain ⟨fuel, h⟩ := returns_iff.1 h
  cases fuel with
  | zero => cases h
  | succ fuel =>
    refine ⟨fuel, ?_⟩
    rw [← checkHardwired_eq_items]
    rw [typeCheck] at h
    cases hbt : base reg t.name with
    | none =>
      rw [hbt] at h
      exact h
    | some bt =>
      simp only [hbt] at h
      rcases hbase : typeCheck conv reg fuel (bt.instantiate t.nodes) v with _ | c
      · rw [hbase] at h
        cases h
      · obtain rfl := (hb bt hbt).unique (returns_iff.2 ⟨fuel, hbase⟩)
        rw [hbase] at h
        exact h

/-- Going through a list, one comes to each member that no failure precedes. -/
theorem checkAll_append_cons {α : Type} {f : α → Option Bool} {l r : List α} {a : α} {b : Bool}
    (h : checkAll f (l ++ a :: r) = some b) (hl : ∀ i ∈ l, ∀ c, f i = some c → c = true) :
    ∃ c, f a = some c := by
  induction l with
  | nil =>
    rw [List.nil_append, checkAll] at h
    rcases hf : f a with _ | c
    · rw [hf] at h
      cases h
    · exact ⟨c, rfl⟩
  | cons i l ih =>
    rw [List.forall_mem_cons] at hl
    rw [List.cons_append, checkAll] at h
    rcases hf : f i with _ | c
    · rw [hf] at h
      cases h
    · obtain rfl := hl.1 c hf
      rw [hf] at h
      exact ih h hl.2

theorem baseEnds_of_reached (hreached : Reached conv reg t v t' v')
    (h : ∃ b, Returns conv reg t v b) : BaseEnds reg t'.name := by
  induction hreached with
  | refl t v =>
    obtain ⟨b, h⟩ := h
    exact baseEnds_of_returns h
  | base hbt _ ih =>
    obtain ⟨b, h⟩ := h
    exact ih (returns_base h hbt)
  | @item t t₁ t' v v₁ v' l r hb hitems hl _ ih =>
    obtain ⟨b, h⟩ := h
    obtain ⟨fuel, hall⟩ := items_of_returns h hb
    rw [hitems] at hall
    refine ih ?_
    have hpass : ∀ i ∈ l, ∀ c, i.run (typeCheck conv reg fuel) = some c → c = true := by
      intro i hi c hc
      have hp := hl i hi
      cases i with
      | result d => exact (Option.some.inj hc).symm.trans hp
      | check t₂ v₂ => exact (returns_iff.2 ⟨fuel, hc⟩).unique hp
    obtain ⟨c, hc⟩ := checkAll_append_cons hall hpass
    exact ⟨c, returns_iff.2 ⟨fuel, hc⟩⟩

/-- The values that are checked on the way down are smaller. -/
theorem sizeOf_of_mem_items {t₁ : AssocTree} {v₁ : Value} (h : .check t₁ v₁ ∈ items conv t v) :
    sizeOf v₁ < sizeOf v := by
  unfold items at h
  split_ifs at h
  · cases v with
    | list vl =>
      unfold listItems at h
      dsimp only at h
      split_ifs at h
      · simp at h
      · simp at h
      · cases htype : t.valueOf "type" with
        | none => simp [htype] at h
        | some eltype =>
          simp only [htype, List.mem_map, Item.check.injEq] at h
          obtain ⟨v₂, hv₂, -, rfl⟩ := h
          have hlt := List.sizeOf_lt_of_mem hv₂
          rw [Value.list.sizeOf_spec]
          omega
    | null | bool | int | uint | longLong | uLongLong | double | string | map =>
      simp [listItems] at h
  · cases v with
    | map m =>
      unfold mapItems at h
      dsimp only at h
      split_ifs at h
      · simp at h
      · obtain ⟨entry, hentry, he⟩ := List.mem_map.1 h
        have hv₁ : v₁ = entry.2 := by
          rcases hlook : (allowedKeys t).lookup entry.1 with _ | _ | type <;>
            simp [hlook] at he
          exact he.2.symm
        have hlt := List.sizeOf_lt_of_mem hentry
        have hpair : sizeOf entry.2 < sizeOf entry := by
          obtain ⟨k, w⟩ := entry
          show sizeOf w < sizeOf (k, w)
          rw [Prod.mk.sizeOf_spec]
          omega
        rw [hv₁, Value.map.sizeOf_spec]
        omega
    | null | bool | int | uint | longLong | uLongLong | double | string | list =>
      simp [mapItems] at h
  · simp at h

/-- If each item ends that no failure precedes, going through them ends. -/
theorem checkAll_items_ends {l : List Item}
    (h : ∀ l₁ t₁ v₁ l₂, l = l₁ ++ .check t₁ v₁ :: l₂ → (∀ i ∈ l₁, i.Passes conv reg) →
      ∃ b, Returns conv reg t₁ v₁ b) :
    ∃ b n, ∀ fuel ≥ n, checkAll (Item.run (typeCheck conv reg fuel)) l = some b := by
  induction l with
  | nil => exact ⟨true, 0, fun _ _ => rfl⟩
  | cons i l ih =>
    have hi : ∃ c n, ∀ fuel ≥ n, i.run (typeCheck conv reg fuel) = some c := by
      cases i with
      | result c => exact ⟨c, 0, fun _ _ => rfl⟩
      | check t₁ v₁ => exact h [] t₁ v₁ l rfl (by simp)
    obtain ⟨c, n, hn⟩ := hi
    cases c with
    | false =>
      refine ⟨false, n, fun fuel hfuel => ?_⟩
      rw [checkAll, hn fuel hfuel]
    | true =>
      have hpass : i.Passes conv reg := by
        cases i with
        | result c => exact Option.some.inj (hn n le_rfl)
        | check t₁ v₁ => exact ⟨n, hn⟩
      obtain ⟨b, m, hm⟩ := ih fun l₁ t₁ v₁ l₂ hl hl₁ =>
        h (i :: l₁) t₁ v₁ l₂ (by rw [hl, List.cons_append])
          (List.forall_mem_cons.2 ⟨hpass, hl₁⟩)
      refine ⟨b, max n m, fun fuel hfuel => ?_⟩
      rw [checkAll, hn fuel (le_trans (le_max_left n m) hfuel)]
      exact hm fuel (le_trans (le_max_right n m) hfuel)

/-- One level of a check: the base type first, then the items. -/
theorem returns_of_base_of_items
    (hbase : ∀ bt, base reg t.name = some bt → ∃ c, Returns conv reg (bt.instantiate t.nodes) v c)
    (hitems : (∀ bt, base reg t.name = some bt →
        Returns conv reg (bt.instantiate t.nodes) v true) →
      ∃ b n, ∀ fuel ≥ n, checkAll (Item.run (typeCheck conv reg fuel)) (items conv t v) = some b) :
    ∃ b, Returns conv reg t v b := by
  cases hbt : base reg t.name with
  | none =>
    obtain ⟨b, n, hn⟩ := hitems fun bt h => by rw [hbt] at h; cases h
    refine ⟨b, returns_iff.2 ⟨n + 1, ?_⟩⟩
    rw [typeCheck]
    simp only [hbt]
    rw [checkHardwired_eq_items, hn n le_rfl]
  | some bt =>
    obtain ⟨c, m, hm⟩ := hbase bt hbt
    cases c with
    | false =>
      refine ⟨false, returns_iff.2 ⟨m + 1, ?_⟩⟩
      rw [typeCheck]
      simp only [hbt, hm m le_rfl]
    | true =>
      obtain ⟨b, n, hn⟩ := hitems fun bt' h => by
        obtain rfl := Option.some.inj (hbt.symm.trans h)
        exact ⟨m, hm⟩
      refine ⟨b, returns_iff.2 ⟨max m n + 1, ?_⟩⟩
      rw [typeCheck]
      simp only [hbt, hm (max m n) (le_max_left m n)]
      rw [checkHardwired_eq_items, hn (max m n) (le_max_right m n)]

theorem returns_of_reached (h : ∀ t' v', Reached conv reg t v t' v' → BaseEnds reg t'.name) :
    ∃ b, Returns conv reg t v b := by
  -- The values on the way down get smaller; between them, the base types come to an end.
  induction hsize : sizeOf v using Nat.strong_induction_on generalizing t v with
  | _ n ihv =>
    have hends := h t v (.refl t v)
    generalize hname : t.name = name at hends
    induction hends generalizing t with
    | @intro name _ ihbase =>
      subst hname
      refine returns_of_base_of_items (fun bt hbt => ?_) fun hb => ?_
      · refine ihbase bt hbt (fun t' v' hr => h t' v' (.base hbt hr)) ?_
        rw [instantiate_eq]
        rfl
      · refine checkAll_items_ends fun l₁ t₁ v₁ l₂ hl hl₁ => ?_
        have hmem : .check t₁ v₁ ∈ items conv t v := by
          rw [hl]
          simp
        have hlt := sizeOf_of_mem_items hmem
        exact ihv (sizeOf v₁) (hsize ▸ hlt)
          (fun t' v' hr => h t' v' (.item hb hl hl₁ hr)) rfl

end

/-- **When a type check ends.**  The check of a value against a reference comes to a result exactly
if the base types come to an end for every reference it comes to; and so all checks do with a
registry exactly if the base types of every name come to an end. -/
theorem typeCheck_ends_iff (conv : Conversions) (reg : TypeRegistry) :
    (∀ t v, (∃ b, Returns conv reg t v b) ↔
      ∀ t' v', Reached conv reg t v t' v' → BaseEnds reg t'.name) ∧
    ((∀ t v, ∃ b, Returns conv reg t v b) ↔ ∀ name, BaseEnds reg name) := by
  refine ⟨fun t v => ⟨fun h t' v' hr => baseEnds_of_reached hr h, returns_of_reached⟩, ?_, ?_⟩
  · intro h name
    exact baseEnds_of_reached (.refl (str name) .null) (h (str name) .null)
  · exact fun h t v => returns_of_reached fun t' _ _ => h t'.name

/-! ### Registries whose base types come to an end -/

/-- A base type comes from a definition of the name it belongs to. -/
theorem exists_definition {reg : TypeRegistry} {name : String} {b : AssocTree}
    (h : base reg name = some b) :
    ∃ t ∈ reg, t.valueOf "name" = some (.str (newTypeName name)) ∧ t.valueOf "base" = some b := by
  obtain ⟨t, ht, hb⟩ := Option.bind_eq_some_iff.1 h
  refine ⟨t, List.mem_of_find?_eq_some ht, ?_, hb⟩
  have hname := List.find?_some ht
  rw [Bool.and_eq_true] at hname
  rcases hv : t.valueOf "name" with _ | s | ⟨n, ns⟩
  · simp [hv] at hname
  · simpa [hv] using hname.2
  · simp [hv] at hname

/-- A definition ranks above the base type it names. -/
def ranksAboveBase (rank : String → ℕ) (t : AssocTree) : Bool :=
  match t.valueOf "name", t.valueOf "base" with
  | some (.str s), some b => decide (rank (newTypeName b.name) < rank s)
  | _, _ => true

/-- Where every definition ranks above its base type, the base types come to an end. -/
theorem baseEnds_of_rank {reg : TypeRegistry} (rank : String → ℕ)
    (h : reg.all (ranksAboveBase rank) = true) (name : String) : BaseEnds reg name := by
  induction hr : rank (newTypeName name) using Nat.strong_induction_on generalizing name with
  | _ r ih =>
    refine .intro fun b hb => ?_
    obtain ⟨t, ht, hname, hbase⟩ := exists_definition hb
    have hrank := List.all_eq_true.1 h t ht
    rw [ranksAboveBase, hname, hbase] at hrank
    exact ih _ (hr ▸ of_decide_eq_true hrank) b.name rfl

/-- Every check with the core types alone ends: each is defined after its base type. -/
theorem baseEnds_core (name : String) : BaseEnds coreTypes name :=
  baseEnds_of_rank (["value", "bool", "number", "integer", "string", "list", "map",
    "association-tree", "association-list", "string-enum", "int-enum"].idxOf ·) (by decide) name

/-- A type that is based on itself. -/
def selfBased : TypeRegistry := coreTypes ++ [coreType "loop" (some (str "loop"))]

theorem exists_check_endless :
    ¬ ∀ (conv : Conversions) (reg : TypeRegistry) (t : AssocTree) (v : Value),
      ∃ b, Returns conv reg t v b := by
  intro h
  obtain ⟨b, n, hn⟩ := h ⟨fun _ => none, fun _ => 0, fun _ => 0, fun _ => ""⟩ selfBased
    (str "loop") .null
  have hnone : ∀ fuel ps, typeCheck ⟨fun _ => none, fun _ => 0, fun _ => 0, fun _ => ""⟩ selfBased
      fuel (node "loop" ps) .null = none := by
    intro fuel
    induction fuel with
    | zero => exact fun _ => rfl
    | succ fuel ih =>
      intro ps
      have hbase : base selfBased (node "loop" ps).name = some (str "loop") := rfl
      rw [typeCheck]
      simp only [hbase]
      rw [instantiate_eq]
      simp only [show (str "loop").name = "loop" from rfl, ih]
  have hb := hn n le_rfl
  rw [← typeCheck_node] at hb
  exact absurd ((hnone n _).symm.trans hb) (by simp)

end ContextKit
