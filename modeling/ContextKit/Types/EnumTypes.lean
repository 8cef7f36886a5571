import ContextKit.Types.NumberTypes

/-!
# The enumerations

The choices of an enumeration are its parameters.  Parameters are handed on to the base type, so
the choices of an `int-enum` reach `number`, where a choice that is called `min` or `max` is taken
for a bound; its value there is the attribute it starts with, no text, and so the bound is zero.
And what is looked up among the choices is `value.toInt()`, the low 32 bits of a wider integer.
-/

namespace ContextKit
open AssocTree

/-- A choice of an `int-enum`, with its attributes (or elements with a text).  Its value is written
in decimal. -/
structure IntChoice where
  name : String
  attributes : List (String × String)
  value : BitVec 32
  value_eq : attributes.lookup "value" = some value.toInt.repr

/-- The choice as it is read. -/
def IntChoice.tree (c : IntChoice) : AssocTree :=
  node c.name (c.attributes.map fun a => node a.1 [str a.2])

/-- An attribute as it is found in the tree. -/
theorem valueOf_attributes (name key : String) (attributes : List (String × String)) :
    (node name (attributes.map fun a => node a.1 [str a.2])).valueOf key =
      (attributes.lookup key).map str := by
  unfold valueOf firstNode
  show ((attributes.map fun a => node a.1 [str a.2]).find? (isNode key)).bind AssocTree.value = _
  induction attributes with
  | nil => rfl
  | cons a l ih =>
    rw [List.map_cons, List.find?_cons, List.lookup_cons]
    by_cases ha : a.1 = key
    · have hnode : isNode key (node a.1 [str a.2]) = true := beq_iff_eq.2 ha
      have hkey : (key == a.1) = true := beq_iff_eq.2 ha.symm
      rw [hnode, hkey]
      rfl
    · have hnode : isNode key (node a.1 [str a.2]) = false := beq_false_of_ne ha
      have hkey : (key == a.1) = false := beq_false_of_ne (Ne.symm ha)
      rw [hnode, hkey]
      exact ih

variable {conv : Conversions} {reg : TypeRegistry} {qss : List (List AssocTree)}
  {names : List String}

/-! ### `string-enum` -/

/-- Nothing hard-wired is based on `string-enum`. -/
theorem stringEnum_notMem_coreAncestors :
    ∀ n ∈ hardwiredNames, "string-enum" ∉ coreAncestors n := by decide

theorem hardwired_below_stringEnum (hreg : ExtendsCore reg) {name : String}
    (hchain : BaseChain reg "string-enum" name qss names) :
    ∀ n ∈ names, n ∈ hardwiredNames → n = "integer" := by
  intro n hn hwired
  obtain ⟨-, hanc⟩ := hchain.hardwired_below hreg hn hwired
  exact absurd hanc (stringEnum_notMem_coreAncestors n hwired)

theorem integer_notMem_stringEnum (hreg : ExtendsCore reg) {name : String}
    (hchain : BaseChain reg "string-enum" name qss names) : "integer" ∉ names := by
  intro hmem
  have hwired : "integer" ∈ hardwiredNames := by decide
  exact stringEnum_notMem_coreAncestors _ hwired (hchain.hardwired_below hreg hmem hwired).2

/-- What the check at `string-enum` comes to. -/
theorem returns_stringEnum (hreg : ExtendsCore reg) (ps : List AssocTree) (v : Value) :
    Returns conv reg (node "string-enum" ps) v
      ((match v with | .string _ => true | _ => false) &&
        checkStringEnum conv (node "string-enum" ps) v) := by
  have hvalue : base reg "value" = none := (hreg "value" rfl).trans rfl
  have hstring : base reg "string" = some (str "value") := (hreg "string" rfl).trans rfl
  have henum : base reg "string-enum" = some (str "string") := (hreg "string-enum" rfl).trans rfl
  have htop : ∀ qs n, typeCheck conv reg (n + 1) (node "value" qs) v = some true := by
    intro qs n
    rw [typeCheck]
    simp only [show (node "value" qs).name = "value" from rfl, hvalue]
    rfl
  have hmiddle := fun qs n => @typeCheck_step _ _ _ _ hstring _ qs _ _ (htop (merge [] qs) n)
  refine ⟨3, fun fuel hfuel => ?_⟩
  obtain ⟨n, rfl⟩ := Nat.exists_eq_add_of_le' hfuel
  have hstep := @typeCheck_step _ _ _ _ henum _ ps _ _ (hmiddle (merge [] ps) n)
  rw [hstep]
  cases v <;> rfl

/-- A type based on `string-enum` accepts the strings among the choices of all levels. -/
theorem returns_of_stringEnum_chain (hreg : ExtendsCore reg) {t : AssocTree}
    (hchain : BaseChain reg "string-enum" t.name qss names) (v : Value) :
    ∃ b, Returns conv reg t v b ∧
      (b = true ↔ ∃ s, v = .string s ∧ ∃ l ∈ t.nodes :: qss, s ∈ l.map AssocTree.name) := by
  refine ⟨_, Returns.chain hchain (hardwired_below_stringEnum hreg hchain)
    (returns_stringEnum hreg _ v), ?_⟩
  rw [decide_eq_true (integer_notMem_stringEnum hreg hchain), Bool.true_or, Bool.and_true]
  cases v with
  | string s =>
    rw [Bool.true_and, checkStringEnum, decide_eq_true_iff]
    refine (mem_names_mergeAll _ _).trans ⟨fun h => ⟨s, rfl, h⟩, ?_⟩
    rintro ⟨s', hs, h⟩
    obtain rfl := Value.string.inj hs
    exact h
  | null | bool | int | uint | longLong | uLongLong | double | list | map => simp

/-! ### `int-enum` -/

/-- No choice called `min` or `max` keeps the integer out. -/
def AdmittedByChoices (cs : List IntChoice) (n : ℤ) : Prop :=
  ((∃ c ∈ cs, c.name = "min") → 0 ≤ n) ∧ ((∃ c ∈ cs, c.name = "max") → n ≤ 0)

variable (conv) in
/-- A bound that is the attribute of a choice is zero. -/
theorem parameterToDouble_choice (cs : List IntChoice) (key : String) :
    (∃ c ∈ cs, c.name = key) ∧ (∃ m, (node "number" (cs.map IntChoice.tree)).valueOf key = some m ∧
        parameterToDouble conv m = Double.ofInt 0) ∨
      (¬ ∃ c ∈ cs, c.name = key) ∧ (node "number" (cs.map IntChoice.tree)).valueOf key = none := by
  have hfind : firstNode key (cs.map IntChoice.tree) =
      (cs.find? fun c => c.name == key).map IntChoice.tree := by
    unfold firstNode
    rw [List.find?_map]
    rfl
  unfold valueOf
  show _ ∧ (∃ m, (firstNode key (cs.map IntChoice.tree)).bind AssocTree.value = some m ∧ _) ∨
    _ ∧ (firstNode key (cs.map IntChoice.tree)).bind AssocTree.value = none
  rw [hfind]
  cases hc : cs.find? fun c => c.name == key with
  | none =>
    rw [List.find?_eq_none] at hc
    refine Or.inr ⟨?_, rfl⟩
    rintro ⟨c, hmem, hname⟩
    exact hc c hmem (beq_iff_eq.2 hname)
  | some c =>
    have hmem := List.mem_of_find?_eq_some hc
    have hname : c.name = key := by simpa using List.find?_some hc
    refine Or.inl ⟨⟨c, hmem, hname⟩, ?_⟩
    -- A choice has a value, so it starts with an attribute.
    cases ha : c.attributes with
    | nil =>
      have hvalue := c.value_eq
      rw [ha] at hvalue
      cases hvalue
    | cons a l => exact ⟨node a.1 [str a.2], by simp [IntChoice.tree, ha, AssocTree.value], rfl⟩

variable (conv) in
/-- What the check of the choices at `number` says about an integer. -/
theorem checkNumber_choices (cs : List IntChoice) {v : Value} {n : ℤ} (hn : v.integer = some n) :
    checkNumber conv (node "number" (cs.map IntChoice.tree)) v = true ↔ AdmittedByChoices cs n := by
  have hdouble : v.toDouble conv = intToDouble n := by
    cases v <;> first | (cases hn; rfl) | cases hn
  have hconv : v.canConvertToDouble = true := Value.canConvert_of_number (Value.number_of_integer hn)
  unfold checkNumber AdmittedByChoices inBounds
  rw [hconv, hdouble, Bool.true_and, Bool.and_eq_true]
  refine and_congr ?_ ?_
  · rcases parameterToDouble_choice conv cs "min" with
      ⟨hmin, m, hm, hzero⟩ | ⟨hmin, hm⟩
    · rw [hm, Option.any_some, hzero, intToDouble_neg]
      simp [hmin]
    · rw [hm]
      simp [hmin]
  · rcases parameterToDouble_choice conv cs "max" with
      ⟨hmax, m, hm, hzero⟩ | ⟨hmax, hm⟩
    · rw [hm, Option.any_some, hzero, intToDouble_pos]
      simp [hmax]
    · rw [hm]
      simp [hmax]

/-- What the check at `int-enum` comes to. -/
theorem returns_intEnum (hreg : ExtendsCore reg) {ps : List AssocTree}
    (hps : (ps.map AssocTree.name).Nodup) (v : Value) :
    Returns conv reg (node "int-enum" ps) v
      (checkNumber conv (node "number" ps) v && checkInteger v &&
        checkIntEnum conv (node "int-enum" ps) v) := by
  have hmerge : merge [] ps = ps := merge_of_distinct hps
  have hinteger : base reg "integer" = some (str "number") := (hreg "integer" rfl).trans rfl
  have henum : base reg "int-enum" = some (str "integer") := (hreg "int-enum" rfl).trans rfl
  have hchain : BaseChain reg "number" "integer" [[]] ["integer"] :=
    .step (b := str "number") (by decide) hinteger .refl
  -- The choices reach `number` unchanged: `integer` and `number` have no parameters of their own.
  have hnumber := returns_number conv hreg (mergeAll ps [[]]) v
  obtain ⟨n, hn⟩ := Returns.chain (t := node "integer" ps) hchain (by decide) hnumber
  refine ⟨n + 1, fun fuel hfuel => ?_⟩
  obtain ⟨m, rfl⟩ := Nat.exists_eq_add_of_le hfuel
  have hbase := hn (n + m) (Nat.le_add_right n m)
  have hstep := @typeCheck_step _ _ _ (str "integer") henum (n + m) ps v _
    (show typeCheck conv reg (n + m) (node "integer" (merge [] ps)) v = _ by rw [hmerge, hbase])
  rw [Nat.add_right_comm, hstep]
  rw [show mergeAll ps [[]] = ps from hmerge]
  have hmem : decide ("integer" ∉ ["integer"]) = false := rfl
  rw [hmem, Bool.false_or]
  cases checkNumber conv (node "number" ps) v && checkInteger v <;> rfl

/-- The value of a choice is looked up by its number. -/
theorem checkIntEnum_choices (hdec : ∀ n : BitVec 32, conv.toInt n.toInt.repr = n)
    (cs : List IntChoice) (v : Value) :
    checkIntEnum conv (node "int-enum" (cs.map IntChoice.tree)) v = true ↔
      ∃ c ∈ cs, c.value = v.toInt conv := by
  have hvalue : ∀ c : IntChoice,
      ((c.tree.valueOf "value").map (parameterToInt conv)).getD 0 = c.value := by
    intro c
    rw [IntChoice.tree, valueOf_attributes, c.value_eq]
    exact hdec c.value
  unfold checkIntEnum
  rw [decide_eq_true_iff]
  simp only [nodes, List.map_map, List.mem_map, Function.comp_apply, hvalue]

/-- The low 32 bits of an integer stand for the integer itself where it fits. -/
theorem ofInt_toInt_eq_iff (n : ℤ) :
    (BitVec.ofInt 32 n).toInt = n ↔ -2147483648 ≤ n ∧ n ≤ 2147483647 := by
  rw [BitVec.toInt_ofInt, Int.bmod_def]
  constructor
  · intro h
    split_ifs at h <;> omega
  · intro h
    split_ifs <;> omega

/-- **The enumerations.**  A type based on `string-enum` accepts exactly the strings that are names
of choices.  An `int-enum` accepts exactly the integers that are values of choices, as documented, if
and only if the value, where its low 32 bits are the value of a choice, is kept out by choices
called `min` or `max` just when it does not fit 32 bits. -/
theorem enumerations_iff (hreg : ExtendsCore reg)
    (hdec : ∀ n : BitVec 32, conv.toInt n.toInt.repr = n) (v : Value) :
    (∀ t qss names, BaseChain reg "string-enum" t.name qss names →
      ∃ b, Returns conv reg t v b ∧
        (b = true ↔ ∃ s, v = .string s ∧ ∃ l ∈ t.nodes :: qss, s ∈ l.map AssocTree.name)) ∧
      ∀ cs : List IntChoice, (cs.map IntChoice.name).Nodup →
        ∃ b, Returns conv reg (node "int-enum" (cs.map IntChoice.tree)) v b ∧
          ((b = true ↔ ∃ n, v.integer = some n ∧ ∃ c ∈ cs, c.value.toInt = n) ↔
            ∀ n, v.integer = some n → (∃ c ∈ cs, c.value = BitVec.ofInt 32 n) →
              (((∃ c ∈ cs, c.name = "min") → 0 ≤ n) ∧ ((∃ c ∈ cs, c.name = "max") → n ≤ 0) ↔
                -2147483648 ≤ n ∧ n ≤ 2147483647)) := by
  refine ⟨fun t qss names hchain => returns_of_stringEnum_chain hreg hchain v, fun cs hcs => ?_⟩
  have hps : ((cs.map IntChoice.tree).map AssocTree.name).Nodup := by
    rw [List.map_map]
    exact hcs
  refine ⟨_, returns_intEnum hreg hps v, ?_⟩
  rw [Bool.and_eq_true, Bool.and_eq_true, checkIntEnum_choices hdec, checkInteger]
  cases hv : v.integer with
  | none => simp
  | some n =>
    have hint : v.toInt conv = BitVec.ofInt 32 n := by
      cases v <;> first | (cases hv; rfl) | cases hv
    rw [checkNumber_choices conv cs hv, hint]
    have hspec : (∃ m, some n = some m ∧ ∃ c ∈ cs, c.value.toInt = m) ↔
        (∃ c ∈ cs, c.value = BitVec.ofInt 32 n) ∧ -2147483648 ≤ n ∧ n ≤ 2147483647 := by
      rw [← ofInt_toInt_eq_iff]
      constructor
      · rintro ⟨m, hm, c, hc, rfl⟩
        cases hm
        rw [BitVec.ofInt_toInt]
        exact ⟨⟨c, hc, rfl⟩, rfl⟩
      · rintro ⟨⟨c, hc, hvalue⟩, hfits⟩
        exact ⟨n, rfl, c, hc, by rw [hvalue, hfits]⟩
    -- Both sides are conjunctions with the membership, so only the other conjuncts are compared.
    rw [hspec]
    constructor
    · rintro h m hm hmem
      cases hm
      exact ⟨fun hadm => (h.1 ⟨⟨hadm, rfl⟩, hmem⟩).2, fun hfits => (h.2 ⟨hmem, hfits⟩).1.1⟩
    · intro h
      constructor
      · rintro ⟨⟨hadm, -⟩, hmem⟩
        exact ⟨hmem, (h n rfl hmem).1 hadm⟩
      · rintro ⟨hmem, hfits⟩
        exact ⟨⟨(h n rfl hmem).2 hfits, rfl⟩, hmem⟩

theorem ofDecimal_repr (n : ℤ) : ofDecimal n.repr = n := by
  have hdigits (m : ℕ) : (Nat.toDigits 10 m).all Char.isDigit = true :=
    List.all_eq_true.2 fun c hc => Nat.isDigit_of_mem_toDigits (by decide) (by decide) hc
  have hlist : n.repr.toList =
      if 0 ≤ n then Nat.toDigits 10 n.toNat else '-' :: Nat.toDigits 10 (-n).toNat := by
    rw [Int.repr_eq_if]
    split_ifs <;> simp
  rw [ofDecimal, hlist]
  split_ifs with hn
  · split
    · -- A digit is no sign.
      next cs hcs =>
      have hminus := Nat.isDigit_of_mem_toDigits (b := 10) (n := n.toNat) (c := '-') (by decide)
        (by decide) (by rw [hcs]; exact List.mem_cons_self)
      exact absurd hminus (by decide)
    · rw [if_pos (hdigits _), Nat.ofDigitChars_ten_toDigits]
      omega
  · refine (if_pos (hdigits _)).trans ?_
    rw [Nat.ofDigitChars_ten_toDigits]
    omega

theorem digitsOnly_decimal (n : BitVec 32) : digitsOnly.toInt n.toInt.repr = n := by
  show BitVec.ofInt 32 (ofDecimal n.toInt.repr) = n
  rw [ofDecimal_repr, BitVec.ofInt_toInt]

/-- A choice with nothing but a value. -/
def choice (name : String) (value : BitVec 32) : IntChoice :=
  ⟨name, [("value", value.toInt.repr)], value, rfl⟩

/-- An `int-enum` with the choices `min` and `on`. -/
def minChoices : List IntChoice := [choice "min" (-1), choice "on" 1]

/-- The value of the choice `min` is not accepted, and an integer of 64 bits is taken for `on`. -/
theorem exists_wrong_intEnum :
    (∃ b, Returns digitsOnly coreTypes (node "int-enum" (minChoices.map IntChoice.tree))
        (.int (-1)) b ∧
      ¬ (b = true ↔ ∃ n, (Value.int (-1)).integer = some n ∧
        ∃ c ∈ minChoices, c.value.toInt = n)) ∧
      ∃ b, Returns digitsOnly coreTypes (node "int-enum" (minChoices.map IntChoice.tree))
          (.longLong 4294967297) b ∧
        ¬ (b = true ↔ ∃ n, (Value.longLong 4294967297).integer = some n ∧
          ∃ c ∈ minChoices, c.value.toInt = n) := by
  have hps : ((minChoices.map IntChoice.tree).map AssocTree.name).Nodup := by decide
  refine ⟨⟨_, returns_intEnum extendsCore_core hps _, fun h => ?_⟩,
    ⟨_, returns_intEnum extendsCore_core hps _, fun h => ?_⟩⟩
  · have hspec : ∃ n, (Value.int (-1)).integer = some n ∧ ∃ c ∈ minChoices, c.value.toInt = n :=
      ⟨-1, rfl, choice "min" (-1), List.mem_cons_self, rfl⟩
    have hb := h.2 hspec
    rw [Bool.and_eq_true, Bool.and_eq_true] at hb
    have hadm := (checkNumber_choices _ minChoices (n := -1) rfl).1 hb.1.1
    exact absurd (hadm.1 ⟨choice "min" (-1), List.mem_cons_self, rfl⟩) (by decide)
  · have hnumber := (checkNumber_choices digitsOnly minChoices
      (v := .longLong 4294967297) (n := 4294967297) rfl).2
      ⟨fun _ => by decide, fun ⟨c, hc, hname⟩ => ?_⟩
    · have henum := (checkIntEnum_choices digitsOnly_decimal minChoices
        (.longLong 4294967297)).2 ⟨choice "on" 1, by simp [minChoices], rfl⟩
      obtain ⟨n, hn, c, hc, hvalue⟩ := h.1 (by rw [hnumber, henum]; rfl)
      obtain rfl : (4294967297 : ℤ) = n := Option.some.inj hn
      simp only [minChoices, List.mem_cons, List.not_mem_nil, or_false] at hc
      rcases hc with rfl | rfl
      · exact absurd hvalue (by decide)
      · exact absurd hvalue (by decide)
    · simp only [minChoices, List.mem_cons, List.not_mem_nil, or_false] at hc
      rcases hc with rfl | rfl
      · exact absurd hname (by decide)
      · exact absurd hname (by decide)

/-- The value of the choice `on` as an `int`, and one of the names of `location-source`. -/
theorem enumerations_iff_on :
    (∃ b, Returns digitsOnly coreTypes (str "location-source") (.int 1) b ∧
        (b = true ↔ ∃ s, Value.int 1 = .string s ∧
          ∃ l ∈ [[], [node "satellite" [], node "wlan" [], node "cellular" [], node "timezone" []]],
            s ∈ l.map AssocTree.name)) ∧
      ∃ b, Returns digitsOnly coreTypes (node "int-enum" (minChoices.map IntChoice.tree))
          (.int 1) b ∧
        ((b = true ↔ ∃ n, (Value.int 1).integer = some n ∧
            ∃ c ∈ minChoices, c.value.toInt = n) ↔
          ∀ n, (Value.int 1).integer = some n → (∃ c ∈ minChoices, c.value = BitVec.ofInt 32 n) →
            (((∃ c ∈ minChoices, c.name = "min") → 0 ≤ n) ∧
                ((∃ c ∈ minChoices, c.name = "max") → n ≤ 0) ↔
              -2147483648 ≤ n ∧ n ≤ 2147483647)) := by
  have h := enumerations_iff extendsCore_core digitsOnly_decimal (.int 1)
  have hchain : BaseChain coreTypes "string-enum" "location-source"
      [[node "satellite" [], node "wlan" [], node "cellular" [], node "timezone" []]]
      ["location-source"] :=
    .step (b := node "string-enum" [node "satellite" [], node "wlan" [], node "cellular" [],
      node "timezone" []]) (by decide) rfl .refl
  exact ⟨h.1 (str "location-source") _ _ hchain, h.2 minChoices (by decide)⟩

end ContextKit
