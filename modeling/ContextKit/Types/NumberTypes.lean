import ContextKit.Types.ContextTypeInfo

/-!
# The types based on `number`

`number` is the type of all values that are represented as an integer or a double, within bounds
that may be given at any level above it; the nearest one counts.  `integer` leaves the doubles out.
What `typeCheck` asks of a value is `canConvert(QVariant::Double)` though, which booleans and strings
pass as well: they are converted, a string that is no number to zero, and accepted where the result
is within the bounds.  Only a chain through `integer` looks at the type of the value.  The bounds are
checked by what would exclude the value, so that `NaN`, which compares with nothing, passes all
bounds, and a bound that is `NaN` excludes nothing.
-/

namespace ContextKit
open AssocTree

variable {conv : Conversions} {reg : TypeRegistry} {qss : List (List AssocTree)}
  {names : List String}

/-- The value is a boolean or a string. -/
def Value.IsConverted : Value → Prop
  | .bool _ | .string _ => True
  | _ => False

section

variable (conv : Conversions) (t : AssocTree) (qss : List (List AssocTree)) (d : Double)

/-- A number in the bounds that are in effect for the reference `t` to a type from which the base
types lead to `number` with the parameters `qss`. -/
def InEffectiveBounds : Prop :=
  (∀ m, effectiveValue "min" t.nodes qss = some m → Double.le (parameterToDouble conv m) d = true) ∧
    ∀ m, effectiveValue "max" t.nodes qss = some m → Double.le d (parameterToDouble conv m) = true

/-- Neither below the minimum in effect nor above the maximum in effect. -/
def NotExcluded : Prop :=
  (∀ m, effectiveValue "min" t.nodes qss = some m → Double.lt d (parameterToDouble conv m) = false) ∧
    ∀ m, effectiveValue "max" t.nodes qss = some m → Double.lt (parameterToDouble conv m) d = false

/-- A bound is in effect that cannot be compared with the double, as one of the two is `NaN`. -/
def Unordered : Prop :=
  ∃ bound ∈ ["min", "max"], ∃ m, effectiveValue bound t.nodes qss = some m ∧
    (d = none ∨ parameterToDouble conv m = none)

end

theorem inBounds_iff (t : AssocTree) (d : Double) :
    inBounds conv d (effectiveValue "min" t.nodes qss) (effectiveValue "max" t.nodes qss) = true ↔
      NotExcluded conv t qss d := by
  unfold inBounds NotExcluded
  cases effectiveValue "min" t.nodes qss <;> cases effectiveValue "max" t.nodes qss <;> simp

/-- What no bound excludes is within the bounds, if it can be compared with them. -/
theorem inEffectiveBounds_iff (t : AssocTree) (d : Double) :
    InEffectiveBounds conv t qss d ↔ NotExcluded conv t qss d ∧ ¬ Unordered conv t qss d := by
  unfold InEffectiveBounds NotExcluded Unordered
  simp only [Double.le_iff, List.mem_cons, List.not_mem_nil, or_false, exists_eq_or_imp,
    exists_eq_left]
  cases effectiveValue "min" t.nodes qss <;> cases effectiveValue "max" t.nodes qss <;> simp <;>
    grind

variable (conv) in
/-- What the check at `number` comes to. -/
theorem returns_number (hreg : ExtendsCore reg) (ps : List AssocTree) (v : Value) :
    Returns conv reg (node "number" ps) v (checkNumber conv (node "number" ps) v) := by
  have hvalue : base reg "value" = none := (hreg "value" rfl).trans rfl
  have hnumber : base reg "number" = some (str "value") := (hreg "number" rfl).trans rfl
  have htop : ∀ n, typeCheck conv reg (n + 1) (node "value" (merge [] ps)) v = some true := by
    intro n
    rw [typeCheck]
    simp only [show (node "value" (merge [] ps)).name = "value" from rfl, hvalue]
    rfl
  refine ⟨2, fun fuel hfuel => ?_⟩
  obtain ⟨n, rfl⟩ := Nat.exists_eq_add_of_le' hfuel
  exact typeCheck_step hnumber (htop n)

/-- What is hard-wired above `number`. -/
theorem eq_of_number_mem_coreAncestors : ∀ n ∈ hardwiredNames, "number" ∈ coreAncestors n →
    n = "integer" ∨ n = "int-enum" := by decide

theorem hardwired_below_number (hreg : ExtendsCore reg) {name : String}
    (hchain : BaseChain reg "number" name qss names) (henum : "int-enum" ∉ names) :
    ∀ n ∈ names, n ∈ hardwiredNames → n = "integer" := by
  intro n hn hwired
  obtain ⟨-, hanc⟩ := hchain.hardwired_below hreg hn hwired
  rcases eq_of_number_mem_coreAncestors n hwired hanc with hinteger | rfl
  · exact hinteger
  · exact absurd hn henum

variable (conv) in
/-- What `typeCheck` returns for a type based on `number`. -/
theorem returns_of_number_chain (hreg : ExtendsCore reg) {t : AssocTree}
    (hchain : BaseChain reg "number" t.name qss names) (henum : "int-enum" ∉ names) (v : Value) :
    ∃ b, Returns conv reg t v b ∧
      (b = true ↔ v.canConvertToDouble = true ∧ NotExcluded conv t qss (v.toDouble conv) ∧
        ("integer" ∈ names → v.integer.isSome = true)) := by
  refine ⟨_, Returns.chain hchain (hardwired_below_number hreg hchain henum)
    (returns_number conv hreg _ v), ?_⟩
  rw [checkNumber, valueOf_mergeAll, valueOf_mergeAll, Bool.and_eq_true, Bool.and_eq_true,
    inBounds_iff, and_assoc, Bool.or_eq_true, decide_eq_true_eq, checkInteger]
  exact and_congr_right fun _ => and_congr_right fun _ => imp_iff_not_or.symm

/-- A value that can be converted is a number, or a boolean or a string. -/
theorem Value.canConvert_cases (v : Value) :
    v.canConvertToDouble = true ↔ (∃ d, v.number = some d) ∨ v.IsConverted := by
  cases v <;> simp [canConvertToDouble, number, integer, IsConverted]

theorem Value.not_isConverted_of_number {v : Value} {d : Double} (h : v.number = some d) :
    ¬ v.IsConverted := by
  cases v <;> simp [number, integer, IsConverted] at h ⊢

theorem Value.not_integer_of_isConverted {v : Value} (h : v.IsConverted) :
    v.integer.isSome = false := by
  cases v <;> simp [integer, IsConverted] at h ⊢

/-- **When the number family accepts exactly the numbers in range.**  For every type whose base types
lead to `number`, and no enumeration, `typeCheck` comes to a result.  That is as documented, true
exactly for the numbers within the effective bounds, and for integers only if the chain passes
through `integer`, unless no bound excludes the value and it is a boolean or a string, where the
chain does not pass through `integer`, or a number of the right kind that cannot be compared with a
bound. -/
theorem number_family_iff (hreg : ExtendsCore reg) {t : AssocTree}
    (hchain : BaseChain reg "number" t.name qss names) (henum : "int-enum" ∉ names) {v : Value}
    (hv : v.Exact) :
    ∃ b, Returns conv reg t v b ∧
      ((b = true ↔ ∃ d, v.number = some d ∧ ("integer" ∈ names → v.integer.isSome = true) ∧
          InEffectiveBounds conv t qss d) ↔
        ¬ (NotExcluded conv t qss (v.toDouble conv) ∧
          ("integer" ∉ names ∧ v.IsConverted ∨
            v.number.isSome = true ∧ ("integer" ∈ names → v.integer.isSome = true) ∧
              Unordered conv t qss (v.toDouble conv)))) := by
  obtain ⟨b, hb, hiff⟩ := returns_of_number_chain conv hreg hchain henum v
  refine ⟨b, hb, ?_⟩
  rw [hiff, Value.canConvert_cases]
  cases hd : v.number with
  | none =>
    -- No number: the documented answer is no.
    simp only [reduceCtorEq, false_and, exists_const, false_or, Option.isSome_none,
      Bool.false_eq_true, or_false, iff_false]
    by_cases hconv : v.IsConverted
    · rw [Value.not_integer_of_isConverted hconv]
      grind
    · simp [hconv]
  | some d =>
    have hconv : ¬ v.IsConverted := Value.not_isConverted_of_number hd
    have hbounds : InEffectiveBounds conv t qss d ↔
        NotExcluded conv t qss d ∧ ¬ Unordered conv t qss d := inEffectiveBounds_iff t d
    rw [Value.toDouble_of_number hv hd]
    simp only [Option.some.injEq, exists_eq', exists_eq_left', true_or, true_and, hconv, and_false,
      false_or, Option.isSome_some, hbounds]
    grind

/-- The integer written in decimal, zero if the text is none. -/
def ofDecimal (s : String) : ℤ :=
  match s.toList with
  | '-' :: cs => if cs.all Char.isDigit then -(Nat.ofDigitChars 10 cs 0 : ℤ) else 0
  | cs => if cs.all Char.isDigit then Nat.ofDigitChars 10 cs 0 else 0

/-- Texts read as numbers where they are written with digits. -/
def digitsOnly : Conversions where
  toDouble s := Double.ofInt (ofDecimal s)
  toInt s := BitVec.ofInt 32 (ofDecimal s)
  round _ := 0
  toString _ := ""

/-- A boolean is accepted as a `number`. -/
theorem exists_bool_number :
    ∃ b, Returns digitsOnly coreTypes (str "number") (.bool true) b ∧
      ¬ (b = true ↔ ∃ d, (Value.bool true).number = some d ∧
        InEffectiveBounds digitsOnly (str "number") [] d) := by
  refine ⟨true, ⟨2, fun fuel hfuel => ?_⟩, fun h => ?_⟩
  · obtain ⟨n, rfl⟩ := Nat.exists_eq_add_of_le' hfuel
    rfl
  · obtain ⟨d, hd, -⟩ := h.1 rfl
    cases hd

/-- So is `NaN`, within any bounds. -/
example : typeCheck digitsOnly coreTypes 2 (node "number" [node "min" [str "0"]]) (.double none) =
    some true := rfl

/-- A percentage out of bounds. -/
theorem number_family_iff_percentage :
    ∃ b, Returns digitsOnly coreTypes (str "percentage") (.int 200) b ∧
      ((b = true ↔ ∃ d, (Value.int 200).number = some d ∧
          ("integer" ∈ ["percentage", "integer"] → (Value.int 200).integer.isSome = true) ∧
          InEffectiveBounds digitsOnly (str "percentage")
            [[node "min" [str "0"], node "max" [str "100"]], []] d) ↔
        ¬ (NotExcluded digitsOnly (str "percentage")
            [[node "min" [str "0"], node "max" [str "100"]], []]
            ((Value.int 200).toDouble digitsOnly) ∧
          ("integer" ∉ ["percentage", "integer"] ∧ (Value.int 200).IsConverted ∨
            (Value.int 200).number.isSome = true ∧
              ("integer" ∈ ["percentage", "integer"] → (Value.int 200).integer.isSome = true) ∧
              Unordered digitsOnly (str "percentage")
                [[node "min" [str "0"], node "max" [str "100"]], []]
                ((Value.int 200).toDouble digitsOnly)))) := by
  have hchain : BaseChain coreTypes "number" "percentage"
      [[node "min" [str "0"], node "max" [str "100"]], []] ["percentage", "integer"] :=
    .step (b := node "integer" [node "min" [str "0"], node "max" [str "100"]]) (by decide) rfl
      (.step (b := str "number") (by decide) rfl .refl)
  refine number_family_iff (t := str "percentage") extendsCore_core hchain (by decide) ?_
  intro n hn
  obtain rfl : (200 : ℤ) = n := Option.some.inj hn
  rfl

end ContextKit
