import ContextKit.Types.EnumTypes
import ContextKit.Types.StructuredTypes

/-!
# Asking a type what it is based on

Besides checking values, the library tells a program what to expect of them: `hasBase` and `getBase`
look for a type among the base types, `choices` lists what an enumeration offers and `elementType`
what the elements of a list are.  They go up to a depth, and they hand out the base reference as it
is written, without the parameters that are put over it.  A depth is not negative here: a negative
`int` never comes to zero, and bounds nothing.
-/

namespace ContextKit
open AssocTree

/-- `ContextTypeInfo::hasBase` with a depth that is not negative, 10 unless another one is given. -/
def hasBase (reg : TypeRegistry) (wanted : String) (depth : ℕ) (t : AssocTree) : Bool :=
  if t.name = wanted then true
  else
    match base reg t.name with
    | none => false
    | some b =>
      match depth with
      | 0 => false
      | depth + 1 => hasBase reg wanted depth b

/-- `ContextTypeInfo::getBase`, likewise. -/
def getBase (reg : TypeRegistry) (wanted : String) (depth : ℕ) (t : AssocTree) : Option AssocTree :=
  if t.name = wanted then some t
  else
    match base reg t.name with
    | none => none
    | some b =>
      match depth with
      | 0 => none
      | depth + 1 => getBase reg wanted depth b

/-- `ContextStringEnumInfo::choices` -/
def choices (t : AssocTree) : List String := t.nodes.map name

/-- `ContextListInfo::type` -/
def elementType (t : AssocTree) : Option AssocTree := t.valueOf "type"

section

variable {reg : TypeRegistry} {wanted : String} {depth : ℕ} {t e : AssocTree}

theorem isSome_getBase : (getBase reg wanted depth t).isSome = hasBase reg wanted depth t := by
  induction depth generalizing t with
  | zero =>
    unfold getBase hasBase
    split_ifs
    · rfl
    · cases base reg t.name <;> rfl
  | succ depth ih =>
    unfold getBase hasBase
    split_ifs
    · rfl
    · cases base reg t.name with
      | none => rfl
      | some b => exact ih

/-- What is found is the last reference of the way there. -/
theorem chain_of_getBase (h : getBase reg wanted depth t = some e) :
    ∃ qss names, BaseChain reg wanted t.name qss names ∧ names.length ≤ depth ∧
      qss.getLastD t.nodes = e.nodes := by
  induction depth generalizing t with
  | zero =>
    unfold getBase at h
    split_ifs at h with hname
    · obtain rfl := Option.some.inj h
      exact ⟨[], [], hname ▸ .refl, le_rfl, rfl⟩
    · cases hb : base reg t.name <;> simp [hb] at h
  | succ depth ih =>
    unfold getBase at h
    split_ifs at h with hname
    · obtain rfl := Option.some.inj h
      exact ⟨[], [], hname ▸ .refl, Nat.zero_le _, rfl⟩
    · cases hb : base reg t.name with
      | none => simp [hb] at h
      | some b =>
        simp only [hb] at h
        obtain ⟨qss, names, hchain, hlength, hlast⟩ := ih h
        refine ⟨b.nodes :: qss, t.name :: names, .step hname hb hchain, ?_, ?_⟩
        · exact Nat.succ_le_succ hlength
        · rwa [List.getLastD_cons]

theorem hasBase_of_chain {name : String} {qss : List (List AssocTree)} {names : List String}
    (h : BaseChain reg wanted name qss names) (hname : t.name = name)
    (hlength : names.length ≤ depth) : hasBase reg wanted depth t = true := by
  induction h generalizing t depth with
  | refl =>
    unfold hasBase
    rw [if_pos hname]
  | @step name b qss names hne hb _ ih =>
    subst hname
    obtain ⟨depth, rfl⟩ := Nat.exists_eq_add_of_le' (le_trans (Nat.le_add_left 1 _) hlength)
    unfold hasBase
    rw [if_neg hne, hb]
    exact ih rfl (Nat.le_of_succ_le_succ hlength)

/-- A type is found exactly if at most `depth` types, the reference included, come before it. -/
theorem hasBase_iff :
    hasBase reg wanted depth t = true ↔
      ∃ qss names, BaseChain reg wanted t.name qss names ∧ names.length ≤ depth := by
  constructor
  · intro h
    rw [← isSome_getBase] at h
    obtain ⟨e, he⟩ := Option.isSome_iff_exists.1 h
    obtain ⟨qss, names, hchain, hlength, -⟩ := chain_of_getBase he
    exact ⟨qss, names, hchain, hlength⟩
  · rintro ⟨qss, names, hchain, hlength⟩
    exact hasBase_of_chain hchain rfl hlength

/-- Where only the last reference names a parameter, its value is in effect. -/
theorem effectiveValue_last {n : String} {ps : List AssocTree} {qss : List (List AssocTree)}
    (h : ∀ l ∈ (ps :: qss).dropLast, n ∉ l.map name) :
    effectiveValue n ps qss = (firstNode n (qss.getLastD ps)).bind value := by
  induction qss generalizing ps with
  | nil => rfl
  | cons qs qss ih =>
    rw [List.dropLast_cons_cons, List.forall_mem_cons] at h
    have hnone : lastNamed n ps = none := by
      rw [lastNamed_eq_none]
      intro p hp hname
      exact h.1 (hname ▸ List.mem_map_of_mem hp)
    rw [effectiveValue, hnone, List.getLastD_cons]
    exact ih h.2

end

/-- **What a type says about itself holds of the check.**  A type is found exactly if the base types
lead to it and at most `depth` types, the reference included, come before it.  Every choice of the
enumeration found is accepted; and the elements of each list that is accepted belong to the element
type of the list type found, if no reference on the way there names another one. -/
theorem typeQueries_sound (conv : Conversions) {reg : TypeRegistry} (hreg : ExtendsCore reg)
    (t : AssocTree) (depth : ℕ) :
    (∀ wanted, (getBase reg wanted depth t).isSome = hasBase reg wanted depth t ∧
      (hasBase reg wanted depth t = true ↔
        ∃ qss names, BaseChain reg wanted t.name qss names ∧ names.length ≤ depth)) ∧
    (∀ e, getBase reg "string-enum" depth t = some e →
      ∀ s ∈ choices e, Returns conv reg t (.string s) true) ∧
    ∀ e, getBase reg "list" depth t = some e →
      ∃ qss names, BaseChain reg "list" t.name qss names ∧
        ((∀ l ∈ (t.nodes :: qss).dropLast, "type" ∉ l.map name) →
          ∀ vl, Returns conv reg t (.list vl) true →
            ∀ type, elementType e = some type → ∀ w ∈ vl, Returns conv reg type w true) := by
  refine ⟨fun wanted => ⟨isSome_getBase, hasBase_iff⟩, fun e he s hs => ?_, fun e he => ?_⟩
  · obtain ⟨qss, names, hchain, -, hlast⟩ := chain_of_getBase he
    obtain ⟨b, hb, hiff⟩ := returns_of_stringEnum_chain hreg hchain (.string s)
    have hmem : e.nodes ∈ t.nodes :: qss := hlast ▸ List.getLastD_mem_cons
    have htrue := hiff.2 ⟨s, rfl, e.nodes, hmem, hs⟩
    rwa [htrue] at hb
  · obtain ⟨qss, names, hchain, -, hlast⟩ := chain_of_getBase he
    refine ⟨qss, names, hchain, fun hnone vl h type htype w hw => ?_⟩
    have hall := (returns_true_iff_chain (baseEnds_of_returns h)).1 h "list" qss names hchain
    obtain ⟨vl', hvl, -, helements⟩ := passes_list.1 hall
    obtain rfl := Value.list.inj hvl
    refine helements type ?_ w hw
    rw [effectiveValue_last hnone, hlast]
    exact htype

/-- The sources of a location. -/
theorem typeQueries_sound_location :
    (∀ e, getBase coreTypes "string-enum" 10 (str "location-source") = some e →
        ∀ s ∈ choices e, Returns digitsOnly coreTypes (str "location-source") (.string s) true) ∧
      ∃ e, getBase coreTypes "string-enum" 10 (str "location-source") = some e ∧
        choices e = ["satellite", "wlan", "cellular", "timezone"] :=
  ⟨(typeQueries_sound digitsOnly extendsCore_core (str "location-source") 10).2.1, _, rfl, rfl⟩

end ContextKit
