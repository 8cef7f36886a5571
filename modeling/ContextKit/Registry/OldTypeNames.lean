import ContextKit.Registry.InfoXmlBackend
import ContextKit.Types.NumberTypes
import ContextKit.Types.Termination

/-!
# The type names of before

When the registry is read, `ensureNewTypes` replaces a type with an old name by the new name alone:
the parameters are dropped.  The registry of types has an alias table of its own, in which the old
names stand for definitions and keep their parameters as references do.  `ensureNewTypes_iff`
compares the two for every type, registry and value.  Where the declaration had bounds, an `integer`
without them accepts more; and `DOUBLE` becomes `number`, while its alias is a type `double` that is
no core type.
-/

namespace ContextRegistry
open ContextKit AssocTree

variable {conv : Conversions} {reg : TypeRegistry}

/-- Two names for one definition. -/
theorem base_congr {n m : String} (h : newTypeName n = newTypeName m) :
    base reg n = base reg m := by
  unfold base typeDefinitionForName
  rw [h]

/-- Nothing is hard-wired for an old name: what its base type says goes. -/
theorem returns_true_iff {t : AssocTree} {v : Value} {b : Bool} (ht : t.name ∉ hardwiredNames)
    (h : Returns conv reg t v b) :
    b = true ↔ ∀ bt, base reg t.name = some bt →
      Returns conv reg (bt.instantiate t.nodes) v true := by
  obtain ⟨n, hn⟩ := h
  have hrun := hn (n + 1) (Nat.le_succ n)
  rw [typeCheck, checkHardwired_other ht] at hrun
  cases hbt : base reg t.name with
  | none =>
    rw [hbt] at hrun
    exact iff_of_true (Option.some.inj hrun).symm fun bt h => by cases h
  | some bt =>
    simp only [hbt] at hrun
    simp only [Option.some.injEq, forall_eq']
    rcases hbase : typeCheck conv reg n (bt.instantiate t.nodes) v with _ | _ | _
    · rw [hbase] at hrun
      cases hrun
    · rw [hbase] at hrun
      have hfalse : Returns conv reg (bt.instantiate t.nodes) v false := returns_iff.2 ⟨n, hbase⟩
      rw [← Option.some.inj hrun]
      exact iff_of_false (by decide) fun htrue => absurd (hfalse.unique htrue) (by decide)
    · rw [hbase] at hrun
      exact iff_of_true (Option.some.inj hrun).symm (returns_iff.2 ⟨n, hbase⟩)

/-- Everything is a `value`. -/
theorem returns_value (hreg : ExtendsCore reg) (ps : List AssocTree) (v : Value) :
    Returns conv reg (node "value" ps) v true := by
  have hbase : base reg (node "value" ps).name = none := (hreg "value" rfl).trans rfl
  refine returns_iff.2 ⟨1, ?_⟩
  rw [typeCheck]
  simp only [hbase]
  rfl

/-- An old name for a type based on `value` accepts everything. -/
theorem returns_true_of_alias (hreg : ExtendsCore reg) {t : AssocTree} {v : Value} {b : Bool}
    {new : String} (ht : t.name ∉ hardwiredNames) (hnew : newTypeName t.name = newTypeName new)
    (hbase : base reg new = some (str "value")) (h : Returns conv reg t v b) : b = true := by
  rw [returns_true_iff ht h, base_congr hnew, hbase]
  intro bt hbt
  obtain rfl := Option.some.inj hbt
  rw [instantiate_eq]
  exact returns_value hreg _ v

/-- An `integer` without parameters accepts all integers. -/
theorem returns_integer (hreg : ExtendsCore reg) {v : Value} {b : Bool}
    (h : Returns conv reg (str "integer") v b) : b = true ↔ v.integer.isSome = true := by
  have hchain : BaseChain reg "number" "integer" [[]] ["integer"] :=
    .step (b := str "number") (by decide) ((hreg "integer" rfl).trans rfl) .refl
  obtain ⟨c, hc, hiff⟩ := returns_of_number_chain conv hreg (t := str "integer") hchain
    (by decide) v
  rw [h.unique hc, hiff]
  constructor
  · exact fun hv => hv.2.2 (List.mem_singleton_self _)
  · intro hv
    obtain ⟨n, hn⟩ := Option.isSome_iff_exists.1 hv
    exact ⟨Value.canConvert_of_number (Value.number_of_integer hn),
      ⟨fun _ hm => (by cases hm), fun _ hm => (by cases hm)⟩, fun _ => hv⟩

/-- An old name for `integer` accepts what can be converted into the bounds it is given. -/
theorem returns_oldInteger (hreg : ExtendsCore reg) {t : AssocTree} {v : Value} {b : Bool}
    (ht : t.name = "INT" ∨ t.name = "INTEGER") (h : Returns conv reg t v b) :
    b = true ↔ v.canConvertToDouble = true ∧ NotExcluded conv t [[]] (v.toDouble conv) := by
  have hbase : base reg t.name = some (str "number") := by
    have hinteger : base reg "integer" = some (str "number") := (hreg "integer" rfl).trans rfl
    rw [← hinteger]
    rcases ht with ht | ht <;> rw [ht] <;> exact base_congr (by decide)
  have hne : t.name ≠ "number" := by
    rcases ht with ht | ht <;> rw [ht] <;> decide
  have hint : "integer" ∉ [t.name] := by
    rcases ht with ht | ht <;> rw [ht] <;> decide
  have henum : "int-enum" ∉ [t.name] := by
    rcases ht with ht | ht <;> rw [ht] <;> decide
  have hchain : BaseChain reg "number" t.name [[]] [t.name] :=
    .step (b := str "number") hne hbase .refl
  obtain ⟨c, hc, hiff⟩ := returns_of_number_chain conv hreg hchain henum v
  rw [h.unique hc, hiff]
  exact ⟨fun hv => ⟨hv.1, hv.2.1⟩, fun hv => ⟨hv.1, hv.2, fun hmem => absurd hmem hint⟩⟩

/-- A `number` without parameters accepts what can be converted. -/
theorem returns_plainNumber (hreg : ExtendsCore reg) {v : Value} {b : Bool}
    (h : Returns conv reg (str "number") v b) : b = true ↔ v.canConvertToDouble = true := by
  have hchain : BaseChain reg "number" "number" [] [] := .refl
  obtain ⟨c, hc, hiff⟩ := returns_of_number_chain conv hreg (t := str "number") hchain
    (by decide) v
  rw [h.unique hc, hiff]
  exact ⟨fun hv => hv.1, fun hv => ⟨hv, ⟨fun _ hm => (by cases hm), fun _ hm => (by cases hm)⟩,
    fun hmem => absurd hmem List.not_mem_nil⟩⟩

/-- What the old name keeps out, the new one keeps out as well: an integer is in the bounds that an
old name for `integer` is given, and what can be converted passes the base type of `double`, with
the parameters of `DOUBLE`, if the registry has one. -/
structure KeepsOut (conv : Conversions) (reg : TypeRegistry) (t : AssocTree) (v : Value) :
    Prop where
  integer : t.name = "INT" ∨ t.name = "INTEGER" → v.integer.isSome = true →
    NotExcluded conv t [[]] (v.toDouble conv)
  double : t.name = "DOUBLE" → v.canConvertToDouble = true →
    ∀ bt, base reg "double" = some bt → Returns conv reg (bt.instantiate t.nodes) v true

theorem KeepsOut.of_ne {t : AssocTree} {v : Value} (h₁ : t.name ≠ "INT") (h₂ : t.name ≠ "INTEGER")
    (h₃ : t.name ≠ "DOUBLE") : KeepsOut conv reg t v :=
  ⟨fun h => absurd h (not_or.2 ⟨h₁, h₂⟩), fun h => absurd h h₃⟩

/-- **When renaming keeps a declaration as strict as it was.**  In every registry that extends the
core types and whose base types come to an end, and for every type and value: both checks come to a
result, and a value that passes after `ensureNewTypes` passes before exactly under `KeepsOut`. -/
theorem ensureNewTypes_iff (conv : Conversions) {reg : TypeRegistry} (hreg : ExtendsCore reg)
    (hends : ∀ name, BaseEnds reg name) (t : AssocTree) (v : Value) :
    ∃ t' b b', ensureNewTypes (some t) = some t' ∧ Returns conv reg t v b ∧
      Returns conv reg t' v b' ∧ ((b' = true → b = true) ↔ KeepsOut conv reg t v) := by
  have hresult : ∀ t, ∃ b, Returns conv reg t v b :=
    fun t => returns_of_reached fun t' _ _ => hends t'.name
  obtain ⟨b, hb⟩ := hresult t
  -- An old name with a base type that accepts everything lets any renaming pass.
  have halias : ∀ new, t.name ∉ hardwiredNames → newTypeName t.name = newTypeName new →
      base reg new = some (str "value") → t.name ≠ "INT" → t.name ≠ "INTEGER" →
      t.name ≠ "DOUBLE" → ∀ b', (b' = true → b = true) ↔ KeepsOut conv reg t v :=
    fun new ht hnew hbase h₁ h₂ h₃ b' =>
      iff_of_true (fun _ => returns_true_of_alias hreg ht hnew hbase hb) (.of_ne h₁ h₂ h₃)
  unfold ensureNewTypes
  by_cases htruth : t.name = "TRUTH"
  · obtain ⟨b', hb'⟩ := hresult (str "bool")
    refine ⟨str "bool", b, b', if_pos htruth, hb, hb', ?_⟩
    refine halias "bool" ?_ ?_ ((hreg "bool" rfl).trans rfl) ?_ ?_ ?_ b' <;> rw [htruth] <;> decide
  dsimp only
  rw [if_neg htruth]
  by_cases hint : t.name = "INT" ∨ t.name = "INTEGER"
  · obtain ⟨b', hb'⟩ := hresult (str "integer")
    refine ⟨str "integer", b, b', if_pos hint, hb, hb', ?_⟩
    rw [returns_integer hreg hb', returns_oldInteger hreg hint hb]
    have hdouble : t.name ≠ "DOUBLE" := by
      rcases hint with h | h <;> rw [h] <;> decide
    constructor
    · exact fun h => ⟨fun _ hv => (h hv).2, fun h => absurd h hdouble⟩
    · intro h hv
      obtain ⟨n, hn⟩ := Option.isSome_iff_exists.1 hv
      exact ⟨Value.canConvert_of_number (Value.number_of_integer hn), h.integer hint hv⟩
  rw [if_neg hint]
  rw [not_or] at hint
  by_cases hstring : t.name = "STRING"
  · obtain ⟨b', hb'⟩ := hresult (str "string")
    refine ⟨str "string", b, b', if_pos hstring, hb, hb', ?_⟩
    refine halias "string" ?_ ?_ ((hreg "string" rfl).trans rfl) ?_ ?_ ?_ b' <;> rw [hstring] <;>
      decide
  rw [if_neg hstring]
  by_cases hdouble : t.name = "DOUBLE"
  · obtain ⟨b', hb'⟩ := hresult (str "number")
    refine ⟨str "number", b, b', if_pos hdouble, hb, hb', ?_⟩
    have hwired : t.name ∉ hardwiredNames := by
      rw [hdouble]
      decide
    have hbase : base reg t.name = base reg "double" := by
      rw [hdouble]
      exact base_congr (by decide)
    rw [returns_plainNumber hreg hb', returns_true_iff hwired hb, hbase]
    constructor
    · exact fun h => ⟨fun hi => absurd hi (not_or.2 hint), fun _ hv => h hv⟩
    · exact fun h hv => h.double hdouble hv
  · rw [if_neg hdouble]
    exact ⟨t, b, b, rfl, hb, hb, iff_of_true id (.of_ne hint.1 hint.2 hdouble)⟩

/-- A declaration from before, with bounds. -/
def oldPercentage : AssocTree := node "INTEGER" [node "min" [str "0"], node "max" [str "100"]]

/-- The texts of its bounds as numbers. -/
def boundsOnly : Conversions where
  toDouble s := Double.ofInt (if s = "100" then 100 else 0)
  toInt s := if s = "100" then 100 else 0
  round _ := 0
  toString _ := ""

theorem ensureNewTypes_iff_percentage :
    ∃ t' b b', ensureNewTypes (some oldPercentage) = some t' ∧
      Returns boundsOnly coreTypes oldPercentage (.int 50) b ∧
      Returns boundsOnly coreTypes t' (.int 50) b' ∧
      ((b' = true → b = true) ↔ KeepsOut boundsOnly coreTypes oldPercentage (.int 50)) :=
  ensureNewTypes_iff boundsOnly extendsCore_core baseEnds_core oldPercentage (.int 50)

/-- The declaration excludes 200, and accepts it once it is renamed. -/
theorem exists_renaming_weakens :
    ∃ t', ensureNewTypes (some oldPercentage) = some t' ∧
      Returns boundsOnly coreTypes t' (.int 200) true ∧
      Returns boundsOnly coreTypes oldPercentage (.int 200) false := by
  refine ⟨str "integer", rfl, returns_iff.2 ⟨3, rfl⟩, ?_⟩
  obtain ⟨b, hb⟩ : ∃ b, Returns boundsOnly coreTypes oldPercentage (.int 200) b :=
    returns_of_reached fun t' _ _ => baseEnds_core t'.name
  have hmax : Double.lt (Double.ofInt 100) (Value.toDouble boundsOnly (.int 200)) = true := by
    show Double.lt (Double.ofInt 100) (Double.ofInt 200) = true
    rw [Double.lt_ofInt]
    decide
  have hno : ¬ b = true := by
    rw [returns_oldInteger extendsCore_core (Or.inr rfl) hb]
    rintro ⟨-, -, h⟩
    exact absurd ((h (str "100") rfl).symm.trans hmax) (by decide)
  obtain rfl : b = false := by simpa using hno
  exact hb

end ContextRegistry
