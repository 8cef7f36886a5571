import ContextKit.Types.Value

/-!
# `ContextTypeInfo`: checking a value against a type

A type reference is an association tree: its name and its parameters.  The type registry is the list
of the definitions; a definition may name a base type, itself a reference.  `typeCheck` first checks
the value against the base type, with the parameters of the reference put over those of the base,
and then does what is hard-wired for the name.

The recursion over base types is bounded by nothing in the code, so `typeCheck` has fuel here, and
`Returns` says that it comes to a result.  `BaseChain` follows the base types from a name to another
one, and `typeCheck_chain` says what a check amounts to along such a chain.
-/

namespace ContextKit
open AssocTree

/-- The nodes of the tree read from the file of type definitions. -/
abbrev TypeRegistry := List AssocTree

/-- The names of before are taken for the types they stand for. -/
def newTypeName (name : String) : String :=
  if name = "TRUTH" then "bool"
  else if name = "STRING" then "string"
  else if name = "INT" then "integer"
  else if name = "INTEGER" then "integer"
  else if name = "DOUBLE" then "double"
  else name

/-- `ContextTypeRegistryInfo::typeDefinitionForName` -/
def typeDefinitionForName (reg : TypeRegistry) (name : String) : Option AssocTree :=
  reg.find? fun t => t.name = "type" &&
    match t.valueOf "name" with
    | some (.str s) => s = newTypeName name
    | _ => false

/-- `ContextTypeInfo::base`, for a reference with this name. -/
def base (reg : TypeRegistry) (name : String) : Option AssocTree :=
  (typeDefinitionForName reg name).bind fun t => t.valueOf "base"

/-- A parameter as a number: its text is converted, and anything else is zero. -/
def parameterToDouble (conv : Conversions) : AssocTree → Double
  | str s => conv.toDouble s
  | node _ _ => Double.ofInt 0

def parameterToInt (conv : Conversions) : AssocTree → BitVec 32
  | str s => conv.toInt s
  | node _ _ => 0

section

variable (conv : Conversions)

/-- Neither below the minimum nor above the maximum, where there is one. -/
def inBounds (d : Double) (min max : Option AssocTree) : Bool :=
  !(min.any fun m => Double.lt d (parameterToDouble conv m)) &&
    !(max.any fun m => Double.lt (parameterToDouble conv m) d)

def checkNumber (t : AssocTree) (v : Value) : Bool :=
  v.canConvertToDouble && inBounds conv (v.toDouble conv) (t.valueOf "min") (t.valueOf "max")

def checkInteger (v : Value) : Bool := v.integer.isSome

/-- Checks all of a list with `check`, up to the first that fails. -/
def checkAll {α : Type} (check : α → Option Bool) : List α → Option Bool
  | [] => some true
  | a :: l =>
    match check a with
    | some true => checkAll check l
    | r => r

def checkList (check : AssocTree → Value → Option Bool) (t : AssocTree) : Value → Option Bool
  | .list vl =>
    let length : ℤ := vl.length
    if (t.valueOf "min").any fun m => decide (length < (parameterToInt conv m).toInt) then
      some false
    else if (t.valueOf "max").any fun m => decide ((parameterToInt conv m).toInt < length) then
      some false
    else
      match t.valueOf "type" with
      | none => some true
      | some eltype => checkAll (check eltype) vl
  | _ => some false

/-- The keys that are allowed in a map, the last one first, with their types. -/
def allowedKeys (t : AssocTree) : List (String × Option AssocTree) :=
  ((t.nodes.filter fun p => p.name ≠ "allow-other-keys").map fun p =>
    (p.name, p.valueOf "type")).reverse

def checkMap (check : AssocTree → Value → Option Bool) (t : AssocTree) : Value → Option Bool
  | .map m =>
    let othersAllowed := t.nodes.any fun p => p.name = "allow-other-keys"
    if allowedKeys t = [] then some true
    else
      checkAll (fun entry =>
        match (allowedKeys t).lookup entry.1 with
        | some none => some true
        | some (some type) => check type entry.2
        | none => some othersAllowed) m
  | _ => some false

def checkStringEnum (t : AssocTree) (v : Value) : Bool :=
  decide (v.toString conv ∈ t.nodes.map name)

def checkIntEnum (t : AssocTree) (v : Value) : Bool :=
  decide (v.toInt conv ∈ t.nodes.map fun p =>
    ((p.valueOf "value").map (parameterToInt conv)).getD 0)

/-- What is hard-wired for a name. -/
def checkHardwired (check : AssocTree → Value → Option Bool) (t : AssocTree) (v : Value) :
    Option Bool :=
  if t.name = "value" then some true
  else if t.name = "bool" then some (match v with | .bool _ => true | _ => false)
  else if t.name = "number" then some (checkNumber conv t v)
  else if t.name = "integer" then some (checkInteger v)
  else if t.name = "string" then some (match v with | .string _ => true | _ => false)
  else if t.name = "list" then checkList conv check t v
  else if t.name = "map" then checkMap check t v
  else if t.name = "string-enum" then some (checkStringEnum conv t v)
  else if t.name = "int-enum" then some (checkIntEnum conv t v)
  else some true

/-- `ContextTypeInfo::typeCheck`, with the number of calls that may be nested. -/
def typeCheck (reg : TypeRegistry) : ℕ → AssocTree → Value → Option Bool
  | 0, _, _ => none
  | fuel + 1, t, v =>
    match base reg t.name with
    | none => checkHardwired conv (typeCheck reg fuel) t v
    | some b =>
      match typeCheck reg fuel (b.instantiate t.nodes) v with
      | none => none
      | some false => some false
      | some true => checkHardwired conv (typeCheck reg fuel) t v

/-- The check of `v` against `t` comes to the result `b`. -/
def Returns (reg : TypeRegistry) (t : AssocTree) (v : Value) (b : Bool) : Prop :=
  ∃ n, ∀ fuel ≥ n, typeCheck conv reg fuel t v = some b

end

theorem Returns.unique {conv : Conversions} {reg : TypeRegistry} {t : AssocTree} {v : Value}
    {b c : Bool} (hb : Returns conv reg t v b) (hc : Returns conv reg t v c) : b = c := by
  obtain ⟨n, hn⟩ := hb
  obtain ⟨m, hm⟩ := hc
  exact Option.some.inj ((hn _ (le_max_left n m)).symm.trans (hm _ (le_max_right n m)))

/-! ### Following the base types -/

/-- The names that something is hard-wired for. -/
def hardwiredNames : List String :=
  ["value", "bool", "number", "integer", "string", "list", "map", "string-enum", "int-enum"]

/-- From the type `name` the base types lead to `target`, with the parameters `qss` of the base
references on the way, the nearest first; `names` are the types passed before the target. -/
inductive BaseChain (reg : TypeRegistry) (target : String) :
    String → List (List AssocTree) → List String → Prop
  | refl : BaseChain reg target target [] []
  | step {name : String} {b : AssocTree} {qss : List (List AssocTree)} {names : List String}
      (hname : name ≠ target) (hbase : base reg name = some b)
      (h : BaseChain reg target b.name qss names) :
      BaseChain reg target name (b.nodes :: qss) (name :: names)

/-- The parameters that reach the end of a chain. -/
def mergeAll : List AssocTree → List (List AssocTree) → List AssocTree
  | ps, [] => ps
  | ps, qs :: qss => mergeAll (merge qs ps) qss

section

variable {conv : Conversions} {reg : TypeRegistry}

theorem checkHardwired_other {check : AssocTree → Value → Option Bool} {t : AssocTree} {v : Value}
    (h : t.name ∉ hardwiredNames) : checkHardwired conv check t v = some true := by
  simp only [hardwiredNames, List.mem_cons, List.not_mem_nil, or_false, not_or] at h
  simp [checkHardwired, h]

/-- A check only looks at the name and the parameters. -/
theorem checkHardwired_node (check : AssocTree → Value → Option Bool) (t : AssocTree) (v : Value) :
    checkHardwired conv check (node t.name t.nodes) v = checkHardwired conv check t v := by
  unfold checkHardwired checkNumber checkStringEnum checkIntEnum checkMap checkList allowedKeys
    valueOf
  rfl

theorem typeCheck_node (fuel : ℕ) (t : AssocTree) (v : Value) :
    typeCheck conv reg fuel (node t.name t.nodes) v = typeCheck conv reg fuel t v := by
  cases fuel with
  | zero => rfl
  | succ fuel =>
    unfold typeCheck
    rw [checkHardwired_node]
    rfl

/-- One step to the base type. -/
theorem typeCheck_step {name : String} {b : AssocTree} (hb : base reg name = some b) {fuel : ℕ}
    {ps : List AssocTree} {v : Value} {c : Bool}
    (h : typeCheck conv reg fuel (node b.name (merge b.nodes ps)) v = some c) :
    typeCheck conv reg (fuel + 1) (node name ps) v =
      if c then checkHardwired conv (typeCheck conv reg fuel) (node name ps) v else some false := by
  have hb' : base reg (node name ps).name = some b := hb
  rw [typeCheck]
  simp only [hb']
  rw [instantiate_eq, show (node name ps).nodes = ps from rfl, h]
  cases c <;> rfl

/-- **A check along a chain**: the value has to pass at the target, with all parameters put over one
another, and to be an integer if the chain passes `integer`; no other type on the way is asked. -/
theorem typeCheck_chain {target name : String} {qss : List (List AssocTree)} {names : List String}
    (hchain : BaseChain reg target name qss names)
    (hnames : ∀ n ∈ names, n ∈ hardwiredNames → n = "integer") {v : Value} {ps : List AssocTree}
    {fuel : ℕ} {c : Bool}
    (h : typeCheck conv reg fuel (node target (mergeAll ps qss)) v = some c) :
    typeCheck conv reg (fuel + names.length) (node name ps) v =
      some (c && (decide ("integer" ∉ names) || checkInteger v)) := by
  induction hchain generalizing ps with
  | refl => simpa [mergeAll] using h
  | @step name b qss names hname hb hchain ih =>
    rw [List.forall_mem_cons] at hnames
    have hbase := ih hnames.2 h
    have hstep := typeCheck_step hb hbase
    rw [List.length_cons, ← Nat.add_assoc, hstep]
    -- Of the names on the way only `integer` has something hard-wired.
    by_cases hint : name = "integer"
    · subst hint
      have hwired : ∀ check, checkHardwired conv check (node "integer" ps) v =
          some (checkInteger v) := fun _ => rfl
      rw [hwired]
      cases c <;> cases checkInteger v <;> simp
    · have hwired : ∀ check, checkHardwired conv check (node name ps) v = some true :=
        fun _ => checkHardwired_other fun hmem => hint (hnames.1 hmem)
      rw [hwired]
      have hmem : ("integer" ∈ name :: names) ↔ "integer" ∈ names := by
        simp [Ne.symm hint]
      simp only [hmem]
      cases c <;> cases decide ("integer" ∉ names) <;> cases checkInteger v <;> rfl

/-- The check of a reference whose target comes to a result with any fuel from `n` on. -/
theorem Returns.chain {target : String} {t : AssocTree} {qss : List (List AssocTree)}
    {names : List String} (hchain : BaseChain reg target t.name qss names)
    (hnames : ∀ n ∈ names, n ∈ hardwiredNames → n = "integer") {v : Value} {c : Bool}
    (h : Returns conv reg (node target (mergeAll t.nodes qss)) v c) :
    Returns conv reg t v (c && (decide ("integer" ∉ names) || checkInteger v)) := by
  obtain ⟨n, hn⟩ := h
  refine ⟨n + names.length, fun fuel hfuel => ?_⟩
  obtain ⟨m, rfl⟩ := Nat.exists_eq_add_of_le hfuel
  rw [← typeCheck_node, show n + names.length + m = n + m + names.length by omega]
  exact typeCheck_chain hchain hnames (hn (n + m) (Nat.le_add_right n m))

end

/-! ### The parameter found at the end of a chain -/

/-- The value of the parameter `n`: that of the nearest reference that names it, and the last one
there; where no reference on the way names it, the first node of that name at the target itself. -/
def effectiveValue (n : String) : List AssocTree → List (List AssocTree) → Option AssocTree
  | own, [] => (firstNode n own).bind value
  | ps, qs :: qss =>
    match lastNamed n ps with
    | some p => p.value
    | none => effectiveValue n qs qss

theorem value_of_not_isNode {n : String} {p : AssocTree} (hp : p.name = n)
    (h : p.isNode n = false) : p.value = none := by
  cases p with
  | str s => rfl
  | node m ns =>
    obtain rfl : m = n := hp
    simp [isNode] at h

theorem name_of_lastNamed {n : String} {l : List AssocTree} {p : AssocTree}
    (h : lastNamed n l = some p) : p.name = n := by
  have := List.find?_some h
  exact of_decide_eq_true this

theorem valueOf_mergeAll (n target : String) (ps : List AssocTree) (qss : List (List AssocTree)) :
    (node target (mergeAll ps qss)).valueOf n = effectiveValue n ps qss := by
  induction qss generalizing ps with
  | nil => rfl
  | cons qs qss ih =>
    rw [mergeAll, ih, effectiveValue]
    cases qss with
    | nil =>
      -- at the target the first node counts, and there is only one with a name that was merged
      rw [effectiveValue, firstNode_merge]
      cases hp : lastNamed n ps with
      | none => rfl
      | some p =>
        by_cases hnode : p.isNode n = true
        · simp [hnode]
        · rw [Bool.not_eq_true] at hnode
          simp [hnode, value_of_not_isNode (name_of_lastNamed hp) hnode]
    | cons rs qss =>
      rw [effectiveValue, lastNamed_merge]
      cases lastNamed n ps with
      | some p => rfl
      | none => rfl

/-- The names of the parameters that reach the end of a chain. -/
theorem mem_names_mergeAll {n : String} (ps : List AssocTree) (qss : List (List AssocTree)) :
    n ∈ (mergeAll ps qss).map name ↔ ∃ l ∈ ps :: qss, n ∈ l.map name := by
  induction qss generalizing ps with
  | nil => simp [mergeAll]
  | cons qs qss ih =>
    rw [mergeAll, ih]
    simp only [List.mem_cons, exists_eq_or_imp, mem_names_merge, or_assoc]

/-! ### The core types -/

/-- The definition of a type with its base. -/
def coreType (name : String) (base : Option AssocTree) : AssocTree :=
  node "type" (node "name" [str name] :: (base.map fun b => node "base" [b]).toList)

/-- `core.types`, without the documentation. -/
def coreTypes : TypeRegistry :=
  [coreType "value" none,
    coreType "bool" (some (str "value")),
    coreType "number" (some (str "value")),
    coreType "integer" (some (str "number")),
    coreType "string" (some (str "value")),
    coreType "list" (some (str "value")),
    coreType "map" (some (str "value")),
    coreType "association-tree" (some (str "value")),
    coreType "association-list" (some (node "list" [node "type" [str "association-tree"]])),
    coreType "string-enum" (some (str "string")),
    coreType "int-enum" (some (str "integer")),
    coreType "type" (some (str "association-tree")),
    coreType "temperature" (some (node "number" [node "min" [str "0"]])),
    coreType "energy" (some (str "number")),
    coreType "power" (some (str "number")),
    coreType "time" (some (str "integer")),
    coreType "distance" (some (str "integer")),
    coreType "duration" (some (str "integer")),
    coreType "percentage" (some (node "integer" [node "min" [str "0"], node "max" [str "100"]])),
    coreType "location-source" (some (node "string-enum" [node "satellite" [], node "wlan" [],
      node "cellular" [], node "timezone" []])),
    coreType "tracker-uri" (some (str "string"))]

/-- The registry has the core types, with the bases they have in `core.types`. -/
def ExtendsCore (reg : TypeRegistry) : Prop :=
  ∀ name, (typeDefinitionForName coreTypes name).isSome → base reg name = base coreTypes name

theorem extendsCore_core : ExtendsCore coreTypes := fun _ _ => rfl

/-- Definitions that come after the core types add to them. -/
theorem extendsCore_append (defs : TypeRegistry) : ExtendsCore (coreTypes ++ defs) := by
  intro name hname
  obtain ⟨t, ht⟩ := Option.isSome_iff_exists.1 hname
  unfold base typeDefinitionForName at *
  rw [List.find?_append, ht]
  rfl

section

variable {reg : TypeRegistry} {target name : String} {qss : List (List AssocTree)}
  {names : List String}

theorem BaseChain.of_none (h : BaseChain reg target name qss names) (hb : base reg name = none) :
    target = name := by
  cases h with
  | refl => rfl
  | step _ hb' _ =>
    rw [hb] at hb'
    cases hb'

theorem BaseChain.of_base (h : BaseChain reg target name qss names) {b : AssocTree}
    (hb : base reg name = some b) :
    target = name ∨ ∃ qss' names', BaseChain reg target b.name qss' names' := by
  cases h with
  | refl => exact Or.inl rfl
  | step _ hb' h' =>
    obtain rfl : b = _ := Option.some.inj (hb.symm.trans hb')
    exact Or.inr ⟨_, _, h'⟩

/-- The hard-wired types above each hard-wired type. -/
def coreAncestors : String → List String
  | "integer" => ["number", "value"]
  | "int-enum" => ["integer", "number", "value"]
  | "string-enum" => ["string", "value"]
  | "value" => []
  | _ => ["value"]

/-- From a hard-wired type only those above it are reached. -/
theorem BaseChain.of_hardwired (hreg : ExtendsCore reg) (h : BaseChain reg target name qss names)
    (hname : name ∈ hardwiredNames) : target = name ∨ target ∈ coreAncestors name := by
  have hvalue : ∀ {qss names}, BaseChain reg target "value" qss names → target = "value" :=
    fun h => h.of_none ((hreg "value" rfl).trans rfl)
  have hbelow : ∀ {n qss names}, base reg n = some (str "value") →
      BaseChain reg target n qss names → target = n ∨ target = "value" := by
    intro n qss names hb h
    rcases h.of_base hb with rfl | ⟨qss', names', h'⟩
    · exact Or.inl rfl
    · exact Or.inr (hvalue h')
  have hnumber : ∀ {qss names}, BaseChain reg target "number" qss names →
      target = "number" ∨ target = "value" := hbelow ((hreg "number" rfl).trans rfl)
  have hinteger : ∀ {qss names}, BaseChain reg target "integer" qss names →
      target = "integer" ∨ target = "number" ∨ target = "value" := by
    intro qss names h
    rcases h.of_base ((hreg "integer" rfl).trans rfl) with rfl | ⟨qss', names', h'⟩
    · exact Or.inl rfl
    · exact Or.inr (hnumber h')
  -- The base of a hard-wired type is hard-wired itself, so no chain leaves these cases.
  simp only [hardwiredNames, List.mem_cons, List.not_mem_nil, or_false] at hname
  rcases hname with rfl | rfl | rfl | rfl | rfl | rfl | rfl | rfl | rfl
  · exact Or.inl (hvalue h)
  · simpa [coreAncestors] using hbelow ((hreg "bool" rfl).trans rfl) h
  · simpa [coreAncestors] using hnumber h
  · simpa [coreAncestors] using hinteger h
  · simpa [coreAncestors] using hbelow ((hreg "string" rfl).trans rfl) h
  · simpa [coreAncestors] using hbelow ((hreg "list" rfl).trans rfl) h
  · simpa [coreAncestors] using hbelow ((hreg "map" rfl).trans rfl) h
  · rcases h.of_base ((hreg "string-enum" rfl).trans rfl) with rfl | ⟨qss', names', h'⟩
    · exact Or.inl rfl
    · simpa [coreAncestors] using Or.inr (hbelow ((hreg "string" rfl).trans rfl) h')
  · rcases h.of_base ((hreg "int-enum" rfl).trans rfl) with rfl | ⟨qss', names', h'⟩
    · exact Or.inl rfl
    · simpa [coreAncestors] using Or.inr (hinteger h')

/-- What is hard-wired on the way to a type is below it. -/
theorem BaseChain.hardwired_below (hreg : ExtendsCore reg)
    (h : BaseChain reg target name qss names) {n : String} (hn : n ∈ names)
    (hwired : n ∈ hardwiredNames) : n ≠ target ∧ target ∈ coreAncestors n := by
  induction h with
  | refl => simp at hn
  | step hname hb h ih =>
    rcases List.mem_cons.1 hn with rfl | hn
    · have hreach := (BaseChain.step hname hb h).of_hardwired hreg hwired
      exact ⟨hname, hreach.resolve_left (Ne.symm hname)⟩
    · exact ih hn

end

end ContextKit
