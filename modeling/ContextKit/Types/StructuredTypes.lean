import ContextKit.Types.NumberTypes
import ContextKit.Types.Shorthand

/-!
# What the types mean

A type reference stands for a set of values: those of the hard-wired type that its base types lead
to, within the parameters that are in effect, and for a list or a map those whose elements belong to
the types given for them.  `Conforms` says which they are, with one rule for each kind of type, and
`typeCheck_conforms` that the check of the library accepts exactly these.
-/

namespace ContextKit
open AssocTree

/-! ### Along the base types -/

section

variable {reg : TypeRegistry}

theorem Leads.trans {a b c : String} (hab : Leads reg b a) (hbc : Leads reg c b) :
    Leads reg c a := by
  induction hab with
  | refl => exact hbc
  | step hb _ ih => exact .step hb ih

theorem BaseChain.leads {target name : String} {qss : List (List AssocTree)} {names : List String}
    (h : BaseChain reg target name qss names) : Leads reg target name := by
  induction h with
  | refl => exact .refl
  | step _ hb _ ih => exact .step hb ih

theorem Leads.exists_chain {target name : String} (h : Leads reg target name) :
    ∃ qss names, BaseChain reg target name qss names := by
  induction h with
  | refl => exact ⟨[], [], .refl⟩
  | @step name b hb _ ih =>
    obtain ⟨qss, names, hchain⟩ := ih
    by_cases hname : name = target
    · subst hname
      exact ⟨[], [], .refl⟩
    · exact ⟨_, _, .step hname hb hchain⟩

/-- Base types that come to an end do not come back. -/
theorem BaseEnds.not_leads {name : String} (h : BaseEnds reg name) {b : AssocTree}
    (hb : base reg name = some b) : ¬ Leads reg name b.name := by
  induction h generalizing b with
  | @intro name _ ih =>
    intro hleads
    have hback : Leads reg b.name name := .step hb .refl
    generalize hn : b.name = n at hleads hback
    cases hleads with
    | refl =>
      refine ih b hb (hn ▸ hb) ?_
      rw [hn]
      exact .refl
    | @step _ c hc hleads =>
      refine ih b hb (hn ▸ hc) ?_
      rw [hn]
      exact hleads.trans hback

theorem BaseChain.unique {target name : String} {qss qss' : List (List AssocTree)}
    {names names' : List String} (h : BaseChain reg target name qss names)
    (h' : BaseChain reg target name qss' names') : qss = qss' ∧ names = names' := by
  induction h generalizing qss' names' with
  | refl =>
    cases h' with
    | refl => exact ⟨rfl, rfl⟩
    | step hname _ _ => exact absurd rfl hname
  | step hname hb _ ih =>
    cases h' with
    | refl => exact absurd rfl hname
    | step _ hb' h' =>
      obtain rfl := Option.some.inj (hb.symm.trans hb')
      obtain ⟨rfl, rfl⟩ := ih h'
      exact ⟨rfl, rfl⟩

/-- Of two types that the base types of a name lead to, one leads to the other. -/
theorem Leads.comparable {a b name : String} (ha : Leads reg a name) (hb : Leads reg b name) :
    Leads reg b a ∨ Leads reg a b := by
  induction ha with
  | refl => exact Or.inl hb
  | @step name c hc ha ih =>
    cases hb with
    | refl => exact Or.inr (.step hc ha)
    | @step _ d hd hb =>
      obtain rfl := Option.some.inj (hc.symm.trans hd)
      exact ih hb

/-- Two hard-wired types on the way are the same, or one is above the other in `core.types`. -/
theorem Leads.hardwired (hreg : ExtendsCore reg) {a b name : String} (ha : Leads reg a name)
    (hb : Leads reg b name) (hwa : a ∈ hardwiredNames) (hwb : b ∈ hardwiredNames) :
    b = a ∨ b ∈ coreAncestors a ∨ a ∈ coreAncestors b := by
  rcases ha.comparable hb with h | h
  · obtain ⟨qss, names, hchain⟩ := h.exists_chain
    exact (hchain.of_hardwired hreg hwa).imp_right Or.inl
  · obtain ⟨qss, names, hchain⟩ := h.exists_chain
    rcases hchain.of_hardwired hreg hwb with h | h
    · exact Or.inl h.symm
    · exact Or.inr (Or.inr h)

end

/-! ### What a check that accepts has seen -/

section

variable {conv : Conversions} {reg : TypeRegistry} {t : AssocTree} {v : Value}

theorem checkAll_eq_true {α : Type} {f : α → Option Bool} {l : List α} :
    checkAll f l = some true ↔ ∀ a ∈ l, f a = some true := by
  induction l with
  | nil => simp [checkAll]
  | cons a l ih =>
    rw [checkAll, List.forall_mem_cons, ← ih]
    rcases f a with _ | _ | _ <;> simp

/-- With enough nested calls, the items that pass do so together. -/
theorem exists_fuel_of_passes {l : List Item} (h : ∀ i ∈ l, i.Passes conv reg) :
    ∃ n, ∀ fuel ≥ n, checkAll (Item.run (typeCheck conv reg fuel)) l = some true := by
  induction l with
  | nil => exact ⟨0, fun _ _ => rfl⟩
  | cons i l ih =>
    rw [List.forall_mem_cons] at h
    obtain ⟨n, hn⟩ := ih h.2
    have hi : ∃ m, ∀ fuel ≥ m, i.run (typeCheck conv reg fuel) = some true := by
      cases i with
      | result b => exact ⟨0, fun _ _ => congrArg some h.1⟩
      | check t v => exact h.1
    obtain ⟨m, hm⟩ := hi
    refine ⟨max m n, fun fuel hfuel => ?_⟩
    rw [checkAll, hm fuel (le_trans (le_max_left m n) hfuel)]
    exact hn fuel (le_trans (le_max_right m n) hfuel)

/-- One level: the base type accepts the value, and all items pass. -/
theorem returns_true_iff_items :
    Returns conv reg t v true ↔
      (∀ b, base reg t.name = some b → Returns conv reg (b.instantiate t.nodes) v true) ∧
        ∀ i ∈ items conv t v, i.Passes conv reg := by
  constructor
  · intro h
    have hbase : ∀ b, base reg t.name = some b →
        Returns conv reg (b.instantiate t.nodes) v true := by
      intro b hb
      obtain ⟨fuel, hrun⟩ := returns_iff.1 h
      cases fuel with
      | zero => cases hrun
      | succ fuel =>
        rw [typeCheck] at hrun
        simp only [hb] at hrun
        rcases hbase : typeCheck conv reg fuel (b.instantiate t.nodes) v with _ | _ | _
        · rw [hbase] at hrun
          cases hrun
        · rw [hbase] at hrun
          cases hrun
        · exact returns_iff.2 ⟨fuel, hbase⟩
    refine ⟨hbase, fun i hi => ?_⟩
    obtain ⟨fuel, hall⟩ := items_of_returns h hbase
    have hrun := checkAll_eq_true.1 hall i hi
    cases i with
    | result b => exact Option.some.inj hrun
    | check t₁ v₁ => exact returns_iff.2 ⟨fuel, hrun⟩
  · rintro ⟨hbase, hitems⟩
    obtain ⟨n, hn⟩ := exists_fuel_of_passes hitems
    cases hb : base reg t.name with
    | none =>
      refine returns_iff.2 ⟨n + 1, ?_⟩
      rw [typeCheck]
      simp only [hb]
      rw [checkHardwired_eq_items, hn n le_rfl]
    | some b =>
      obtain ⟨m, hm⟩ := hbase b hb
      refine returns_iff.2 ⟨max m n + 1, ?_⟩
      rw [typeCheck]
      simp only [hb, hm (max m n) (le_max_left m n)]
      rw [checkHardwired_eq_items, hn (max m n) (le_max_right m n)]

/-- **All levels at once**: the items pass at every type that the base types lead to, with the
parameters in effect there. -/
theorem returns_true_iff_chain (hends : BaseEnds reg t.name) :
    Returns conv reg t v true ↔ ∀ n qss names, BaseChain reg n t.name qss names →
      ∀ i ∈ items conv (node n (mergeAll t.nodes qss)) v, i.Passes conv reg := by
  generalize hname : t.name = name at hends
  induction hends generalizing t with
  | @intro name h ih =>
    subst hname
    have hself : items conv (node t.name t.nodes) v = items conv t v := by
      unfold items
      rw [checkHardwired_node]
      unfold listItems mapItems allowedKeys valueOf
      rfl
    have ihb := fun b hb => @ih b hb (node b.name (merge b.nodes t.nodes)) rfl
    rw [returns_true_iff_items]
    constructor
    · rintro ⟨hbase, hitems⟩ n qss names hchain
      cases hchain with
      | refl => rwa [mergeAll, hself]
      | @step _ b qss names hne hb hchain =>
        have hret := hbase b hb
        rw [instantiate_eq] at hret
        exact (ihb b hb).1 hret n qss names hchain
    · intro hall
      refine ⟨fun b hb => ?_, ?_⟩
      · rw [instantiate_eq]
        refine (ihb b hb).2 fun n qss names hchain => ?_
        have hne : t.name ≠ n := by
          rintro rfl
          exact (BaseEnds.intro h).not_leads hb hchain.leads
        exact hall n (b.nodes :: qss) (t.name :: names) (.step hne hb hchain)
      · rw [← hself]
        exact hall t.name [] [] .refl

end

/-! ### The meaning of a reference -/

/-- The number of elements is in the bounds that are in effect for the reference `t` to a type from
which the base types lead to `list` with the parameters `qss`. -/
def LengthInBounds (conv : Conversions) (t : AssocTree) (qss : List (List AssocTree)) (n : ℕ) :
    Prop :=
  (∀ m, effectiveValue "min" t.nodes qss = some m → (parameterToInt conv m).toInt ≤ n) ∧
    ∀ m, effectiveValue "max" t.nodes qss = some m → (n : ℤ) ≤ (parameterToInt conv m).toInt

/-- The number a choice of an `int-enum` stands for. -/
def choiceValue (conv : Conversions) (p : AssocTree) : BitVec 32 :=
  ((p.valueOf "value").map (parameterToInt conv)).getD 0

/-- The value belongs to the type that the reference stands for.  Booleans and strings are numbers
here as far as they are converted to one. -/
inductive Conforms (conv : Conversions) (reg : TypeRegistry) : AssocTree → Value → Prop
  | any {t : AssocTree} (v : Value)
      (h : ∀ n ∈ hardwiredNames, Leads reg n t.name → n = "value") : Conforms conv reg t v
  | bool {t : AssocTree} (b : Bool) (h : Leads reg "bool" t.name) : Conforms conv reg t (.bool b)
  | string {t : AssocTree} (s : String) (h : Leads reg "string" t.name)
      (henum : ∀ qss names, BaseChain reg "string-enum" t.name qss names →
        ∃ l ∈ t.nodes :: qss, s ∈ l.map AssocTree.name) :
      Conforms conv reg t (.string s)
  | number {t : AssocTree} {v : Value} {qss : List (List AssocTree)} {names : List String}
      (h : BaseChain reg "number" t.name qss names) (hconvert : v.canConvertToDouble = true)
      (hbounds : NotExcluded conv t qss (v.toDouble conv))
      (hinteger : Leads reg "integer" t.name → v.integer.isSome = true)
      (henum : ∀ qss' names', BaseChain reg "int-enum" t.name qss' names' →
        ∃ p ∈ mergeAll t.nodes qss', v.toInt conv = choiceValue conv p) :
      Conforms conv reg t v
  | list {t : AssocTree} {vl : List Value} {qss : List (List AssocTree)} {names : List String}
      (h : BaseChain reg "list" t.name qss names) (hlength : LengthInBounds conv t qss vl.length)
      (helements : ∀ e, effectiveValue "type" t.nodes qss = some e →
        ∀ w ∈ vl, Conforms conv reg e w) :
      Conforms conv reg t (.list vl)
  | map {t : AssocTree} {m : List (String × Value)} {qss : List (List AssocTree)}
      {names : List String} (h : BaseChain reg "map" t.name qss names)
      (hkeys : mergeAll t.nodes qss = [] ∨
        (∃ p ∈ mergeAll t.nodes qss, p.name = "allow-other-keys") ∨
        ∀ entry ∈ m, ∃ p ∈ mergeAll t.nodes qss, p.name = entry.1)
      (htypes : ∀ entry ∈ m, entry.1 ≠ "allow-other-keys" →
        ∀ p, lastNamed entry.1 (mergeAll t.nodes qss) = some p →
          ∀ e, p.valueOf "type" = some e → Conforms conv reg e entry.2) :
      Conforms conv reg t (.map m)

/-! ### What passes at each hard-wired type -/

section

variable {conv : Conversions} {reg : TypeRegistry} {ps : List AssocTree} {v : Value}

theorem passes_plain {n : String} (hlist : n ≠ "list") (hmap : n ≠ "map") :
    (∀ i ∈ items conv (node n ps) v, i.Passes conv reg) ↔
      (checkHardwired conv (fun _ _ => none) (node n ps) v).getD true = true := by
  have hitems : items conv (node n ps) v =
      [.result ((checkHardwired conv (fun _ _ => none) (node n ps) v).getD true)] := by
    simp [items, AssocTree.name, hlist, hmap]
  simp [hitems, Item.Passes]

theorem passes_other {n : String} (h : n ∉ hardwiredNames) :
    ∀ i ∈ items conv (node n ps) v, i.Passes conv reg := by
  have hlist : n ≠ "list" := by
    rintro rfl
    exact h (by decide)
  have hmap : n ≠ "map" := by
    rintro rfl
    exact h (by decide)
  have hwired : checkHardwired conv (fun _ _ => none) (node n ps) v = some true :=
    checkHardwired_other h
  rw [passes_plain hlist hmap, hwired]
  rfl

theorem passes_value : ∀ i ∈ items conv (node "value" ps) v, i.Passes conv reg := by
  rw [passes_plain (by decide) (by decide)]
  rfl

theorem passes_bool :
    (∀ i ∈ items conv (node "bool" ps) v, i.Passes conv reg) ↔ ∃ b, v = .bool b := by
  rw [passes_plain (by decide) (by decide)]
  cases v <;> simp [checkHardwired, AssocTree.name]

theorem passes_string :
    (∀ i ∈ items conv (node "string" ps) v, i.Passes conv reg) ↔ ∃ s, v = .string s := by
  rw [passes_plain (by decide) (by decide)]
  cases v <;> simp [checkHardwired, AssocTree.name]

theorem passes_integer :
    (∀ i ∈ items conv (node "integer" ps) v, i.Passes conv reg) ↔ v.integer.isSome = true := by
  rw [passes_plain (by decide) (by decide)]
  rfl

theorem passes_number {t : AssocTree} {qss : List (List AssocTree)} :
    (∀ i ∈ items conv (node "number" (mergeAll t.nodes qss)) v, i.Passes conv reg) ↔
      v.canConvertToDouble = true ∧ NotExcluded conv t qss (v.toDouble conv) := by
  rw [passes_plain (by decide) (by decide)]
  show checkNumber conv (node "number" (mergeAll t.nodes qss)) v = true ↔ _
  rw [checkNumber, valueOf_mergeAll, valueOf_mergeAll, Bool.and_eq_true, inBounds_iff]

theorem passes_stringEnum {t : AssocTree} {qss : List (List AssocTree)} {s : String} :
    (∀ i ∈ items conv (node "string-enum" (mergeAll t.nodes qss)) (.string s),
        i.Passes conv reg) ↔
      ∃ l ∈ t.nodes :: qss, s ∈ l.map AssocTree.name := by
  rw [passes_plain (by decide) (by decide)]
  show checkStringEnum conv (node "string-enum" (mergeAll t.nodes qss)) (.string s) = true ↔ _
  rw [checkStringEnum, decide_eq_true_iff]
  exact mem_names_mergeAll _ _

theorem passes_intEnum :
    (∀ i ∈ items conv (node "int-enum" ps) v, i.Passes conv reg) ↔
      ∃ p ∈ ps, v.toInt conv = choiceValue conv p := by
  rw [passes_plain (by decide) (by decide)]
  show checkIntEnum conv (node "int-enum" ps) v = true ↔ _
  rw [checkIntEnum, decide_eq_true_iff, List.mem_map]
  exact exists_congr fun p => and_congr_right fun _ => eq_comm

theorem passes_list {t : AssocTree} {qss : List (List AssocTree)} :
    (∀ i ∈ items conv (node "list" (mergeAll t.nodes qss)) v, i.Passes conv reg) ↔
      ∃ vl, v = .list vl ∧ LengthInBounds conv t qss vl.length ∧
        ∀ e, effectiveValue "type" t.nodes qss = some e → ∀ w ∈ vl, Returns conv reg e w true := by
  show (∀ i ∈ listItems conv (node "list" (mergeAll t.nodes qss)) v, i.Passes conv reg) ↔ _
  cases v with
  | list vl =>
    unfold listItems
    rw [valueOf_mergeAll, valueOf_mergeAll, valueOf_mergeAll]
    have hbounds : LengthInBounds conv t qss vl.length ↔
        ¬ ((effectiveValue "min" t.nodes qss).any fun m =>
          decide ((vl.length : ℤ) < (parameterToInt conv m).toInt)) = true ∧
        ¬ ((effectiveValue "max" t.nodes qss).any fun m =>
          decide ((parameterToInt conv m).toInt < (vl.length : ℤ))) = true := by
      unfold LengthInBounds
      cases effectiveValue "min" t.nodes qss <;> cases effectiveValue "max" t.nodes qss <;> simp
    dsimp only
    split_ifs with hmin hmax
    · refine iff_of_false (by simp [Item.Passes]) ?_
      rintro ⟨vl', hvl, hlength, -⟩
      obtain rfl := Value.list.inj hvl
      exact (hbounds.1 hlength).1 hmin
    · refine iff_of_false (by simp [Item.Passes]) ?_
      rintro ⟨vl', hvl, hlength, -⟩
      obtain rfl := Value.list.inj hvl
      exact (hbounds.1 hlength).2 hmax
    · have hlength := hbounds.2 ⟨hmin, hmax⟩
      cases effectiveValue "type" t.nodes qss with
      | none => simp [hlength]
      | some e =>
        constructor
        · intro h
          refine ⟨vl, rfl, hlength, fun e' he' w hw => ?_⟩
          obtain rfl := Option.some.inj he'
          exact h _ (List.mem_map_of_mem hw)
        · rintro ⟨vl', hvl, -, helements⟩ i hi
          obtain rfl := Value.list.inj hvl
          obtain ⟨w, hw, rfl⟩ := List.mem_map.1 hi
          exact helements e rfl w hw
  | null | bool | int | uint | longLong | uLongLong | double | string | map =>
    simp [listItems, Item.Passes]

/-- The type of a key is that of the last parameter of its name. -/
theorem lookup_allowedKeys (t : AssocTree) (k : String) :
    (allowedKeys t).lookup k = if k = "allow-other-keys" then none
      else (lastNamed k t.nodes).map fun p => p.valueOf "type" := by
  unfold allowedKeys lastNamed
  rw [← List.map_reverse, ← List.filter_reverse]
  induction t.nodes.reverse with
  | nil => simp
  | cons p l ih =>
    by_cases hother : p.name = "allow-other-keys"
    · rw [List.filter_cons_of_neg (by simp [hother]), ih]
      by_cases hk : k = "allow-other-keys"
      · rw [if_pos hk, if_pos hk]
      · have hpk : p.name ≠ k := fun h => hk (h.symm.trans hother)
        rw [if_neg hk, if_neg hk, List.find?_cons_of_neg (by simp [hpk])]
    · rw [List.filter_cons_of_pos (by simp [hother]), List.map_cons, List.lookup_cons]
      by_cases hpk : k = p.name
      · subst hpk
        simp [hother]
      · have hkey : (k == p.name) = false := beq_false_of_ne hpk
        rw [hkey, List.find?_cons_of_neg (by simp [Ne.symm hpk])]
        exact ih

theorem lastNamed_eq_none {n : String} {l : List AssocTree} :
    lastNamed n l = none ↔ ∀ p ∈ l, p.name ≠ n := by
  simp [lastNamed]

theorem allowedKeys_eq_nil {t : AssocTree} :
    allowedKeys t = [] ↔ ∀ p ∈ t.nodes, p.name = "allow-other-keys" := by
  simp [allowedKeys]

theorem passes_map {t : AssocTree} {qss : List (List AssocTree)} :
    (∀ i ∈ items conv (node "map" (mergeAll t.nodes qss)) v, i.Passes conv reg) ↔
      ∃ m, v = .map m ∧
        (mergeAll t.nodes qss = [] ∨
          (∃ p ∈ mergeAll t.nodes qss, p.name = "allow-other-keys") ∨
          ∀ entry ∈ m, ∃ p ∈ mergeAll t.nodes qss, p.name = entry.1) ∧
        ∀ entry ∈ m, entry.1 ≠ "allow-other-keys" →
          ∀ p, lastNamed entry.1 (mergeAll t.nodes qss) = some p →
            ∀ e, p.valueOf "type" = some e → Returns conv reg e entry.2 true := by
  generalize mergeAll t.nodes qss = ps
  show (∀ i ∈ mapItems (node "map" ps) v, i.Passes conv reg) ↔ _
  cases v with
  | map m =>
    unfold mapItems
    dsimp only
    have hlookup : ∀ k, (allowedKeys (node "map" ps)).lookup k =
        if k = "allow-other-keys" then none
        else (lastNamed k ps).map fun p => p.valueOf "type" := lookup_allowedKeys _
    split_ifs with hnil
    · -- no key is named: everything is allowed
      have hall : ∀ p ∈ ps, p.name = "allow-other-keys" := allowedKeys_eq_nil.1 hnil
      refine iff_of_true (by simp) ⟨m, rfl, ?_, fun entry _ hne p hp => ?_⟩
      · cases ps with
        | nil => exact Or.inl rfl
        | cons p ps => exact Or.inr (Or.inl ⟨p, by simp, hall p (by simp)⟩)
      · have hnone : lastNamed entry.1 ps = none :=
          lastNamed_eq_none.2 fun q hq hname => hne (hname.symm.trans (hall q hq))
        rw [hnone] at hp
        cases hp
    · constructor
      · intro h
        refine ⟨m, rfl, ?_, fun entry hentry hne p hp e he => ?_⟩
        · by_cases hothers : ∃ p ∈ ps, p.name = "allow-other-keys"
          · exact Or.inr (Or.inl hothers)
          · refine Or.inr (Or.inr fun entry hentry => ?_)
            by_contra hno
            have hnone : lastNamed entry.1 ps = none :=
              lastNamed_eq_none.2 fun p hp hname => hno ⟨p, hp, hname⟩
            have hpass := h _ (List.mem_map_of_mem hentry)
            rw [hlookup, hnone, Option.map_none, ite_self] at hpass
            obtain ⟨p, hp, hname⟩ := List.any_eq_true.1 hpass
            exact hothers ⟨p, hp, of_decide_eq_true hname⟩
        · have hpass := h _ (List.mem_map_of_mem hentry)
          rw [hlookup, if_neg hne, hp, Option.map_some, he] at hpass
          exact hpass
      · rintro ⟨m', hm, hkeys, htypes⟩ i hi
        obtain rfl := Value.map.inj hm
        obtain ⟨entry, hentry, rfl⟩ := List.mem_map.1 hi
        have hothers : ∀ {p : AssocTree}, p ∈ ps → p.name = "allow-other-keys" →
            (node "map" ps).nodes.any (fun p => p.name = "allow-other-keys") = true :=
          fun hp hname => List.any_eq_true.2 ⟨_, hp, decide_eq_true hname⟩
        rw [hlookup]
        by_cases hne : entry.1 = "allow-other-keys"
        · rw [if_pos hne]
          rcases hkeys with rfl | ⟨p, hp, hname⟩ | hnamed
          · exact absurd (allowedKeys_eq_nil.2 (by simp [AssocTree.nodes])) hnil
          · exact hothers hp hname
          · obtain ⟨p, hp, hname⟩ := hnamed entry hentry
            exact hothers hp (hname.trans hne)
        · rw [if_neg hne]
          cases hlast : lastNamed entry.1 ps with
          | none =>
            rcases hkeys with rfl | ⟨p, hp, hname⟩ | hnamed
            · exact absurd (allowedKeys_eq_nil.2 (by simp [AssocTree.nodes])) hnil
            · exact hothers hp hname
            · obtain ⟨p, hp, hname⟩ := hnamed entry hentry
              exact absurd hname (lastNamed_eq_none.1 hlast p hp)
          | some p =>
            cases he : p.valueOf "type" with
            | none =>
              rw [Option.map_some, he]
              rfl
            | some e =>
              rw [Option.map_some, he]
              exact htypes entry hentry hne p hlast e he
  | null | bool | int | uint | longLong | uLongLong | double | string | list =>
    simp [mapItems, Item.Passes]

end

/-! ### The check accepts what the reference means -/

section

variable {conv : Conversions} {reg : TypeRegistry} {t : AssocTree} {v : Value}

/-- The items pass at every type on the way, if they do at the hard-wired ones. -/
theorem returns_of_passes (hends : BaseEnds reg t.name)
    (h : ∀ n ∈ hardwiredNames, n ≠ "value" → ∀ qss names, BaseChain reg n t.name qss names →
      ∀ i ∈ items conv (node n (mergeAll t.nodes qss)) v, i.Passes conv reg) :
    Returns conv reg t v true := by
  rw [returns_true_iff_chain hends]
  intro n qss names hchain
  by_cases hwired : n ∈ hardwiredNames
  · by_cases hvalue : n = "value"
    · subst hvalue
      exact passes_value
    · exact h n hwired hvalue qss names hchain
  · exact passes_other hwired

/-- Of the hard-wired types only `value` is beside these on the way. -/
theorem eq_of_beside : ∀ a ∈ ["bool", "list", "map"], ∀ n ∈ hardwiredNames, n ≠ "value" →
    (n = a ∨ n ∈ coreAncestors a ∨ a ∈ coreAncestors n) → n = a := by decide

theorem Conforms.returns (hreg : ExtendsCore reg) (hends : ∀ name, BaseEnds reg name)
    (h : Conforms conv reg t v) : Returns conv reg t v true := by
  induction h with
  | any v h =>
    exact returns_of_passes (hends _) fun n hwired hvalue qss names hchain =>
      absurd (h n hwired hchain.leads) hvalue
  | @bool t b h =>
    refine returns_of_passes (hends _) fun n hwired hvalue qss names hchain => ?_
    have hbeside := h.hardwired hreg hchain.leads (by decide) hwired
    obtain rfl := eq_of_beside "bool" (by decide) n hwired hvalue hbeside
    exact passes_bool.2 ⟨b, rfl⟩
  | @string t s h henum =>
    refine returns_of_passes (hends _) fun n hwired hvalue qss names hchain => ?_
    have hbeside : ∀ n ∈ hardwiredNames, n ≠ "value" →
        (n = "string" ∨ n ∈ coreAncestors "string" ∨ "string" ∈ coreAncestors n) →
          n = "string" ∨ n = "string-enum" := by decide
    rcases hbeside n hwired hvalue (h.hardwired hreg hchain.leads (by decide) hwired) with
      rfl | rfl
    · exact passes_string.2 ⟨s, rfl⟩
    · exact passes_stringEnum.2 (henum qss names hchain)
  | @number t v qss names h hconvert hbounds hinteger henum =>
    refine returns_of_passes (hends _) fun n hwired hvalue qss' names' hchain => ?_
    have hbeside : ∀ n ∈ hardwiredNames, n ≠ "value" →
        (n = "number" ∨ n ∈ coreAncestors "number" ∨ "number" ∈ coreAncestors n) →
          n = "number" ∨ n = "integer" ∨ n = "int-enum" := by decide
    rcases hbeside n hwired hvalue (h.leads.hardwired hreg hchain.leads (by decide) hwired) with
      rfl | rfl | rfl
    · obtain ⟨rfl, -⟩ := h.unique hchain
      exact passes_number.2 ⟨hconvert, hbounds⟩
    · exact passes_integer.2 (hinteger hchain.leads)
    · exact passes_intEnum.2 (henum qss' names' hchain)
  | @list t vl qss names h hlength _ ih =>
    refine returns_of_passes (hends _) fun n hwired hvalue qss' names' hchain => ?_
    have hbeside := h.leads.hardwired hreg hchain.leads (by decide) hwired
    obtain rfl := eq_of_beside "list" (by decide) n hwired hvalue hbeside
    obtain ⟨rfl, -⟩ := h.unique hchain
    exact passes_list.2 ⟨vl, rfl, hlength, ih⟩
  | @map t m qss names h hkeys _ ih =>
    refine returns_of_passes (hends _) fun n hwired hvalue qss' names' hchain => ?_
    have hbeside := h.leads.hardwired hreg hchain.leads (by decide) hwired
    obtain rfl := eq_of_beside "map" (by decide) n hwired hvalue hbeside
    obtain ⟨rfl, -⟩ := h.unique hchain
    exact passes_map.2 ⟨m, rfl, hkeys, ih⟩

/-- Above the hard-wired types with parameters of their own are the plain ones. -/
theorem leads_core (hreg : ExtendsCore reg) :
    Leads reg "number" "integer" ∧ Leads reg "number" "int-enum" ∧
      Leads reg "string" "string-enum" := by
  have hinteger : Leads reg "number" "integer" :=
    .step (b := str "number") ((hreg "integer" rfl).trans rfl) .refl
  exact ⟨hinteger, .step (b := str "integer") ((hreg "int-enum" rfl).trans rfl) hinteger,
    .step (b := str "string") ((hreg "string-enum" rfl).trans rfl) .refl⟩

theorem conforms_of_returns (hreg : ExtendsCore reg) (hends : ∀ name, BaseEnds reg name)
    (h : Returns conv reg t v true) : Conforms conv reg t v := by
  induction hsize : sizeOf v using Nat.strong_induction_on generalizing t v with
  | _ n ih =>
    subst hsize
    have hall := (returns_true_iff_chain (hends _)).1 h
    by_cases hlist : Leads reg "list" t.name
    · obtain ⟨qss, names, hchain⟩ := hlist.exists_chain
      obtain ⟨vl, rfl, hlength, helements⟩ := passes_list.1 (hall "list" qss names hchain)
      refine .list hchain hlength fun e he w hw => ih (sizeOf w) ?_ (helements e he w hw) rfl
      have hlt := List.sizeOf_lt_of_mem hw
      rw [Value.list.sizeOf_spec]
      omega
    by_cases hmap : Leads reg "map" t.name
    · obtain ⟨qss, names, hchain⟩ := hmap.exists_chain
      obtain ⟨m, rfl, hkeys, htypes⟩ := passes_map.1 (hall "map" qss names hchain)
      refine .map hchain hkeys fun entry hentry hne p hp e he =>
        ih (sizeOf entry.2) ?_ (htypes entry hentry hne p hp e he) rfl
      have hlt := List.sizeOf_lt_of_mem hentry
      obtain ⟨k, w⟩ := entry
      rw [Value.map.sizeOf_spec]
      rw [Prod.mk.sizeOf_spec] at hlt
      show sizeOf w < _
      omega
    by_cases hbool : Leads reg "bool" t.name
    · obtain ⟨qss, names, hchain⟩ := hbool.exists_chain
      obtain ⟨b, rfl⟩ := passes_bool.1 (hall "bool" qss names hchain)
      exact .bool b hbool
    by_cases hstring : Leads reg "string" t.name
    · obtain ⟨qss, names, hchain⟩ := hstring.exists_chain
      obtain ⟨s, rfl⟩ := passes_string.1 (hall "string" qss names hchain)
      exact .string s hstring fun qss names hchain =>
        passes_stringEnum.1 (hall "string-enum" qss names hchain)
    by_cases hnumber : Leads reg "number" t.name
    · obtain ⟨qss, names, hchain⟩ := hnumber.exists_chain
      obtain ⟨hconvert, hbounds⟩ := passes_number.1 (hall "number" qss names hchain)
      refine .number hchain hconvert hbounds (fun hinteger => ?_) fun qss names hchain =>
        passes_intEnum.1 (hall "int-enum" qss names hchain)
      obtain ⟨qss, names, hchain⟩ := hinteger.exists_chain
      exact passes_integer.1 (hall "integer" qss names hchain)
    · -- No hard-wired type but `value` is on the way.
      obtain ⟨hinteger, hintEnum, hstringEnum⟩ := leads_core hreg
      refine .any v fun n hwired hleads => ?_
      simp only [hardwiredNames, List.mem_cons, List.not_mem_nil, or_false] at hwired
      rcases hwired with rfl | rfl | rfl | rfl | rfl | rfl | rfl | rfl | rfl
      · rfl
      · exact absurd hleads hbool
      · exact absurd hleads hnumber
      · exact absurd (hleads.trans hinteger) hnumber
      · exact absurd hleads hstring
      · exact absurd hleads hlist
      · exact absurd hleads hmap
      · exact absurd (hleads.trans hstringEnum) hstring
      · exact absurd (hleads.trans hintEnum) hnumber

/-- A value of a type is one of its base type, with the parameters put over those of the base. -/
theorem Conforms.of_base (hreg : ExtendsCore reg) (hends : ∀ name, BaseEnds reg name)
    (h : Conforms conv reg t v) {b : AssocTree} (hb : base reg t.name = some b) :
    Conforms conv reg (b.instantiate t.nodes) v := by
  obtain ⟨hbase, -⟩ := returns_true_iff_items.1 (h.returns hreg hends)
  exact conforms_of_returns hreg hends (hbase b hb)

end

/-- **The check computes the meaning.**  With a registry that extends `core.types` and whose base
types come to an end, every check of a value against a reference comes to a result, and accepts the
value exactly if it belongs to the type, however deep lists, maps and user types are nested. -/
theorem typeCheck_conforms (conv : Conversions) {reg : TypeRegistry} (hreg : ExtendsCore reg)
    (hends : ∀ name, BaseEnds reg name) (t : AssocTree) (v : Value) :
    ∃ b, Returns conv reg t v b ∧ (b = true ↔ Conforms conv reg t v) := by
  obtain ⟨b, hb⟩ := (typeCheck_ends_iff conv reg).2.2 hends t v
  refine ⟨b, hb, fun h => ?_, fun h => hb.unique (h.returns hreg hends)⟩
  subst h
  exact conforms_of_returns hreg hends hb

/-- A list of maps, with a percentage out of bounds in the second. -/
theorem typeCheck_conforms_batteries :
    ∃ b, Returns digitsOnly coreTypes
        (node "list" [node "type" [node "map" [node "charge" [node "type" [str "percentage"]]]]])
        (.list [.map [("charge", .int 50)], .map [("charge", .int 200)]]) b ∧
      (b = true ↔ Conforms digitsOnly coreTypes
        (node "list" [node "type" [node "map" [node "charge" [node "type" [str "percentage"]]]]])
        (.list [.map [("charge", .int 50)], .map [("charge", .int 200)]])) :=
  typeCheck_conforms digitsOnly extendsCore_core baseEnds_core _ _

end ContextKit
