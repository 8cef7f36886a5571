import Mathlib.Data.List.Forall2
import ContextKit.Types.Termination

/-!
# The shorthand for a type without parameters

A bare string stands for the list that holds nothing else.  `SameRef` relates two references that
differ in this shorthand alone, and only where a type or a parameter stands: at the reference
itself, at its parameters, and at the value of a node `type`, which is a parameter of the reference
or a node of a parameter.  What the parameters of a reference mean depends on the types that its
base types lead to, so `Positions` says which nodes `type` are taken for types.

A `list` looks for the type of its elements in its parameter `type`, a `map` for the type of a key
in the node `type` of the parameter, and an `int-enum` for a number in the node `value` of the
parameter.  Where base types lead to both `list` and `int-enum`, the two read the same node.
-/

namespace ContextKit
open AssocTree

/-- The base types lead from a name to the type `target`. -/
inductive Leads (reg : TypeRegistry) (target : String) : String → Prop
  | refl : Leads reg target target
  | step {name : String} {b : AssocTree} (hb : base reg name = some b)
      (h : Leads reg target b.name) : Leads reg target name

/-- No two nodes beside each other have the same name. -/
inductive DistinctNames : AssocTree → Prop
  | intro {t : AssocTree} (hnodup : (t.nodes.map name).Nodup)
      (hnodes : ∀ p ∈ t.nodes, DistinctNames p) : DistinctNames t

/-- Where a type stands among the parameters of a reference. -/
structure Positions where
  /-- The value of the parameter `type` of a reference with this name is a type. -/
  typed : String → AssocTree → Prop
  /-- The node `type` of this parameter of a reference with this name holds a type. -/
  keyed : String → String → Prop

mutual

/-- Two references to a type that differ in the shorthand. -/
inductive SameRef (P : Positions) : AssocTree → AssocTree → Prop
  | intro {t t' : AssocTree} (hname : t'.name = t.name)
      (hparams : SameParams P t.name t.nodes t'.nodes) : SameRef P t t'

/-- The parameters of two such references with the name `n`. -/
inductive SameParams (P : Positions) : String → List AssocTree → List AssocTree → Prop
  | nil (n : String) : SameParams P n [] []
  | cons {n : String} {p p' : AssocTree} {ps ps' : List AssocTree} (hp : SameParam P n p p')
      (h : SameParams P n ps ps') : SameParams P n (p :: ps) (p' :: ps')

inductive SameParam (P : Positions) : String → AssocTree → AssocTree → Prop
  | same (n : String) (p : AssocTree) : SameParam P n p p
  | toList (n s : String) : SameParam P n (str s) (node s [])
  | toString (n s : String) : SameParam P n (node s []) (str s)
  | typeNode {n : String} {v v' : AssocTree} {rest : List AssocTree} (hn : P.typed n v)
      (h : SameRef P v v') : SameParam P n (node "type" (v :: rest)) (node "type" (v' :: rest))
  | keyNode {n k : String} {v v' : AssocTree} {l r rest : List AssocTree} (hn : P.keyed n k)
      (h : SameRef P v v') :
      SameParam P n (node k (l ++ node "type" (v :: rest) :: r))
        (node k (l ++ node "type" (v' :: rest) :: r))

end

/-- Two definitions that differ in the shorthand, in the value of a node `base`. -/
inductive SameDefinition (P : Positions) : AssocTree → AssocTree → Prop
  | same (d : AssocTree) : SameDefinition P d d
  | base {n : String} {b b' : AssocTree} {l r rest : List AssocTree} (h : SameRef P b b') :
      SameDefinition P (node n (l ++ node "base" (b :: rest) :: r))
        (node n (l ++ node "base" (b' :: rest) :: r))

/-- A list takes its parameter `type` for a type, and a map the node `type` of each parameter. -/
def typePositions (reg : TypeRegistry) : Positions where
  typed n _ := Leads reg "list" n
  keyed n _ := Leads reg "map" n

/-- All nodes `type`, but for those that something else is read from as well: the parameter `type`
of an `int-enum` that holds a number in a node `value`; the one of a map that holds the type of its
key in a node `type`, and the node `type` of the one of a list. -/
def clearPositions (reg : TypeRegistry) : Positions where
  typed n v := (Leads reg "int-enum" n → v.name ≠ "value") ∧
    (Leads reg "map" n → ¬ Leads reg "list" n → v.name ≠ "type")
  keyed n k := Leads reg "list" n → ¬ Leads reg "map" n → k ≠ "type"

/-! ### Names and lookups -/

section

variable {P : Positions} {n : String}

theorem SameRef.name_eq {t t' : AssocTree} (h : SameRef P t t') : t'.name = t.name := by
  cases h with
  | intro hname _ => exact hname

theorem SameParam.name_eq {p p' : AssocTree} (h : SameParam P n p p') : p'.name = p.name := by
  cases h <;> rfl

theorem sameParams_iff {ps ps' : List AssocTree} :
    SameParams P n ps ps' ↔ List.Forall₂ (SameParam P n) ps ps' := by
  constructor
  · intro h
    induction ps generalizing ps' with
    | nil =>
      cases h
      exact .nil
    | cons p ps ih =>
      cases h with
      | cons hp h => exact .cons hp (ih h)
  · intro h
    induction h with
    | nil => exact .nil n
    | cons hp _ ih => exact .cons hp ih

theorem SameRef.params {t t' : AssocTree} (h : SameRef P t t') :
    List.Forall₂ (SameParam P t.name) t.nodes t'.nodes := by
  cases h with
  | intro _ hparams => exact sameParams_iff.1 hparams

theorem SameRef.refl (t : AssocTree) : SameRef P t t :=
  .intro rfl (sameParams_iff.2 (List.forall₂_same.2 fun p _ => .same _ p))

/-- One occurrence of the shorthand at the reference itself. -/
theorem SameRef.shorthand (s : String) : SameRef P (str s) (node s []) := .intro rfl (.nil s)

theorem names_eq {ps ps' : List AssocTree} (h : List.Forall₂ (SameParam P n) ps ps') :
    ps'.map name = ps.map name := by
  induction h with
  | nil => rfl
  | cons hp _ ih => rw [List.map_cons, List.map_cons, hp.name_eq, ih]

/-- A node is skipped by a lookup of another name. -/
theorem firstNode_cons_of_ne {m : String} {q : AssocTree} (hq : q.name ≠ m) (qs : List AssocTree) :
    firstNode m (q :: qs) = firstNode m qs := by
  have hnode : q.isNode m = false := by
    by_contra hnode
    exact hq (name_of_isNode (by simpa using hnode))
  simp [firstNode, hnode]

/-- Parameters of one name, where there is only one: what they have in common is their relation. -/
theorem firstNode_of_distinct {ps ps' : List AssocTree} (h : List.Forall₂ (SameParam P n) ps ps')
    (hnodup : (ps.map name).Nodup) (m : String) :
    ((firstNode m ps).bind value = none ∧ (firstNode m ps').bind value = none) ∨
      ∃ p p', p ∈ ps ∧ SameParam P n p p' ∧ p.name = m ∧
        (firstNode m ps).bind value = p.value ∧ (firstNode m ps').bind value = p'.value := by
  induction h with
  | nil => exact .inl ⟨rfl, rfl⟩
  | @cons p p' ps ps' hp hps ih =>
    rw [List.map_cons, List.nodup_cons] at hnodup
    by_cases hm : p.name = m
    · -- The others have other names, so only the first can be found.
      have hfound : ∀ {q : AssocTree} {qs : List AssocTree}, q.name = m → m ∉ qs.map name →
          (firstNode m (q :: qs)).bind value = q.value := by
        intro q qs hq hqs
        by_cases hnode : q.isNode m = true
        · simp [firstNode, hnode]
        · rw [Bool.not_eq_true] at hnode
          have hnone : qs.find? (isNode m) = none := by
            rw [List.find?_eq_none]
            exact fun t ht hn => hqs (List.mem_map.2 ⟨t, ht, name_of_isNode hn⟩)
          simp [firstNode, hnode, hnone, value_of_not_isNode hq hnode]
      have hps' : m ∉ ps'.map name := by
        rw [names_eq hps, ← hm]
        exact hnodup.1
      exact .inr ⟨p, p', List.mem_cons_self, hp, hm, hfound hm (hm ▸ hnodup.1),
        hfound (hp.name_eq.trans hm) hps'⟩
    · rw [firstNode_cons_of_ne hm, firstNode_cons_of_ne (hp.name_eq.trans_ne hm)]
      refine (ih hnodup.2).imp id ?_
      rintro ⟨q, q', hq, hrest⟩
      exact ⟨q, q', List.mem_cons_of_mem _ hq, hrest⟩

theorem firstNode_append_cons {m k : String} (hk : k ≠ m) (l r us : List AssocTree) :
    firstNode m (l ++ node k us :: r) = (firstNode m l).or (firstNode m r) := by
  simp [firstNode, List.find?_append, isNode, hk]

end

/-! ### Base types and merged parameters -/

section

variable {P : Positions} {reg reg' : TypeRegistry}

theorem name_of_sameDefinition {d d' : AssocTree} (h : SameDefinition P d d') :
    d'.name = d.name ∧ d'.valueOf "name" = d.valueOf "name" := by
  cases h with
  | same d => exact ⟨rfl, rfl⟩
  | base h =>
    refine ⟨rfl, ?_⟩
    rw [valueOf, valueOf]
    simp only [AssocTree.nodes]
    rw [firstNode_append_cons (by decide), firstNode_append_cons (by decide)]

theorem base_of_sameDefinition {d d' : AssocTree} (h : SameDefinition P d d') :
    Option.Rel (SameRef P) (d.valueOf "base") (d'.valueOf "base") := by
  have hrefl : ∀ o : Option AssocTree, Option.Rel (SameRef P) o o := by
    intro o
    cases o with
    | none => exact .none
    | some b => exact .some (.refl b)
  cases h with
  | same d => exact hrefl _
  | @base n b b' l r rest h =>
    simp only [valueOf, AssocTree.nodes, firstNode, List.find?_append]
    cases l.find? (isNode "base") with
    | some d => exact hrefl _
    | none =>
      rw [Option.none_or, Option.none_or, List.find?_cons_of_pos rfl, List.find?_cons_of_pos rfl]
      exact .some h

/-- The base types differ in the shorthand alone. -/
theorem base_of_sameRegistry (h : List.Forall₂ (SameDefinition P) reg reg') (n : String) :
    Option.Rel (SameRef P) (base reg n) (base reg' n) := by
  unfold base typeDefinitionForName
  induction h with
  | nil => exact .none
  | @cons d d' ds ds' hd hds ih =>
    obtain ⟨hname, hvalue⟩ := name_of_sameDefinition hd
    rw [List.find?_cons, List.find?_cons, hname, hvalue]
    split
    · exact base_of_sameDefinition hd
    · exact ih

theorem leads_of_sameRegistry (h : List.Forall₂ (SameDefinition P) reg reg') {target n : String}
    (hn : Leads reg target n) : Leads reg' target n := by
  induction hn with
  | refl => exact .refl
  | @step n b hb _ ih =>
    have hrel := base_of_sameRegistry h n
    rw [hb] at hrel
    generalize hb' : base reg' n = o at hrel
    cases hrel with
    | some hbb => exact .step hb' (hbb.name_eq ▸ ih)

theorem baseEnds_of_sameRegistry (h : List.Forall₂ (SameDefinition P) reg reg') {n : String}
    (hn : BaseEnds reg n) : BaseEnds reg' n := by
  induction hn with
  | @intro n _ ih =>
    refine .intro fun b' hb' => ?_
    have hrel := base_of_sameRegistry h n
    rw [hb'] at hrel
    generalize hb : base reg n = o at hrel
    cases hrel with
    | some hbb =>
      rw [hbb.name_eq]
      exact ih _ hb

theorem forall₂_merge {n : String} {qs qs' ps ps' : List AssocTree}
    (hqs : List.Forall₂ (SameParam P n) qs qs') (hps : List.Forall₂ (SameParam P n) ps ps') :
    List.Forall₂ (SameParam P n) (merge qs ps) (merge qs' ps') := by
  induction hps generalizing qs qs' with
  | nil => exact hqs
  | @cons p p' ps ps' hp _ ih =>
    refine ih (List.rel_append (List.rel_filter ?_ hqs) (.cons hp .nil))
    intro q q' hq
    show decide (q.name ≠ p.name) = true ↔ decide (q'.name ≠ p'.name) = true
    rw [hq.name_eq, hp.name_eq]

theorem nodup_merge {qs ps : List AssocTree} (hqs : (qs.map name).Nodup) :
    ((merge qs ps).map name).Nodup := by
  induction ps using List.reverseRecOn with
  | nil => exact hqs
  | append_singleton ps p ih =>
    rw [merge_append_singleton, List.map_append, List.nodup_append]
    refine ⟨ih.sublist (List.filter_sublist.map name), by simp, ?_⟩
    intro a ha b hb
    obtain ⟨q, hq, rfl⟩ := List.mem_map.1 ha
    obtain rfl := List.mem_singleton.1 hb
    exact of_decide_eq_true (List.mem_filter.1 hq).2

theorem mem_of_mem_merge {qs ps : List AssocTree} {q : AssocTree} (h : q ∈ merge qs ps) :
    q ∈ qs ∨ q ∈ ps := by
  induction ps using List.reverseRecOn with
  | nil => exact .inl h
  | append_singleton ps p ih =>
    rw [merge_append_singleton, List.mem_append] at h
    rcases h with h | h
    · exact (ih (List.mem_filter.1 h).1).imp id fun h => List.mem_append_left _ h
    · exact .inr (List.mem_append_right _ h)

theorem DistinctNames.nodes_distinct {t : AssocTree} (h : DistinctNames t) :
    ∀ p ∈ t.nodes, DistinctNames p := by
  cases h with
  | intro _ hnodes => exact hnodes

theorem DistinctNames.nodup {t : AssocTree} (h : DistinctNames t) : (t.nodes.map name).Nodup := by
  cases h with
  | intro hnodup _ => exact hnodup

theorem DistinctNames.value {p v : AssocTree} (h : DistinctNames p) (hv : p.value = some v) :
    DistinctNames v := by
  rcases p with s | ⟨m, _ | ⟨w, rest⟩⟩
  · cases hv
  · cases hv
  · obtain rfl := Option.some.inj hv
    exact h.nodes_distinct w List.mem_cons_self

theorem DistinctNames.instantiate {b t : AssocTree} (hb : DistinctNames b) (ht : DistinctNames t) :
    DistinctNames (b.instantiate t.nodes) := by
  rw [instantiate_eq]
  refine .intro (nodup_merge hb.nodup) fun p hp => ?_
  exact (mem_of_mem_merge hp).elim (hb.nodes_distinct p) (ht.nodes_distinct p)

end

/-! ### What is read from the parameters -/

section

variable {P : Positions} {reg : TypeRegistry} {n : String} {p p' : AssocTree}

/-- Up the base types, all clear positions stay clear, if the way does not pass `list` and `map`. -/
theorem SameParam.base (h : SameParam (clearPositions reg) n p p') {b : AssocTree}
    (hb : base reg n = some b) (hmix : ¬ (Leads reg "list" n ∧ Leads reg "map" n)) :
    SameParam (clearPositions reg) b.name p p' := by
  cases h with
  | same => exact .same _ _
  | toList => exact .toList _ _
  | toString => exact .toString _ _
  | typeNode hn h =>
    refine .typeNode ⟨fun hi => hn.1 (.step hb hi), fun hm _ => hn.2 (.step hb hm) fun hl => ?_⟩ h
    exact hmix ⟨hl, .step hb hm⟩
  | keyNode hn h =>
    exact .keyNode (fun hl _ => hn (.step hb hl) fun hm => hmix ⟨.step hb hl, hm⟩) h

theorem rel_refl (o : Option AssocTree) : Option.Rel (SameRef P) o o := by
  cases o with
  | none => exact .none
  | some t => exact .some (.refl t)

/-- The type of the elements of a list. -/
theorem SameParam.elementType (h : SameParam (clearPositions reg) n p p')
    (hlist : Leads reg "list" n) (hmap : ¬ Leads reg "map" n) (hp : p.name = "type") :
    Option.Rel (SameRef (clearPositions reg)) p.value p'.value := by
  cases h with
  | same => exact rel_refl _
  | toList => exact .none
  | toString => exact .none
  | typeNode _ h => exact .some h
  | keyNode hn => exact absurd hp (hn hlist hmap)

/-- The type of a key of a map. -/
theorem SameParam.keyType (h : SameParam (clearPositions reg) n p p')
    (hmap : Leads reg "map" n) (hlist : ¬ Leads reg "list" n) :
    Option.Rel (SameRef (clearPositions reg)) (p.valueOf "type") (p'.valueOf "type") := by
  cases h with
  | same => exact rel_refl _
  | toList => exact .none
  | toString => exact .none
  | @typeNode _ v v' rest hn h =>
    have hv := hn.2 hmap hlist
    simp only [valueOf, AssocTree.nodes]
    rw [firstNode_cons_of_ne hv, firstNode_cons_of_ne (h.name_eq.trans_ne hv)]
    exact rel_refl _
  | @keyNode _ k v v' l r rest _ h =>
    simp only [valueOf, AssocTree.nodes, firstNode, List.find?_append]
    cases l.find? (isNode "type") with
    | some c => exact rel_refl _
    | none =>
      rw [Option.none_or, Option.none_or, List.find?_cons_of_pos rfl, List.find?_cons_of_pos rfl]
      exact .some h

/-- The number of an enumerator. -/
theorem SameParam.enumerator (h : SameParam (clearPositions reg) n p p')
    (henum : Leads reg "int-enum" n) : p'.valueOf "value" = p.valueOf "value" := by
  cases h with
  | same | toList | toString => rfl
  | @typeNode _ v v' rest hn h =>
    have hv := hn.1 henum
    simp only [valueOf, AssocTree.nodes]
    rw [firstNode_cons_of_ne hv, firstNode_cons_of_ne (h.name_eq.trans_ne hv)]
  | keyNode =>
    rw [valueOf, valueOf]
    simp only [AssocTree.nodes]
    rw [firstNode_append_cons (by decide), firstNode_append_cons (by decide)]

/-- What is no type is read as it was, or is a list before and after. -/
theorem SameParam.value_eq (h : SameParam P n p p') (hp : p.name ≠ "type") :
    p'.value = p.value ∨ ∃ m us m' us', p.value = some (node m us) ∧
      p'.value = some (node m' us') := by
  cases h with
  | same | toList | toString => exact .inl rfl
  | typeNode => exact absurd rfl hp
  | @keyNode _ k v v' l r rest =>
    cases l with
    | nil => exact .inr ⟨_, _, _, _, rfl, rfl⟩
    | cons c l => exact .inl rfl

variable {t t' : AssocTree}

/-- A bound: of a list it is the same whichever list it is. -/
theorem any_valueOf (h : List.Forall₂ (SameParam P n) t.nodes t'.nodes)
    (hnodup : (t.nodes.map name).Nodup) {m : String} (hm : m ≠ "type") {f : AssocTree → Bool}
    (hf : ∀ m us m' us', f (node m us) = f (node m' us')) :
    (t'.valueOf m).any f = (t.valueOf m).any f := by
  rw [valueOf, valueOf]
  rcases firstNode_of_distinct h hnodup m with ⟨hnone, hnone'⟩ | ⟨p, p', -, hp, hname, hv, hv'⟩
  · rw [hnone, hnone']
  · rw [hv, hv']
    rcases hp.value_eq (hname.trans_ne hm) with heq | ⟨m, us, m', us', heq, heq'⟩
    · rw [heq]
    · rw [heq, heq']
      exact hf _ _ _ _

theorem DistinctNames.valueOf {m : String} {v : AssocTree} (h : DistinctNames t)
    (hv : t.valueOf m = some v) : DistinctNames v := by
  obtain ⟨p, hp, hpv⟩ := Option.bind_eq_some_iff.1 hv
  exact (h.nodes_distinct p (List.mem_of_find?_eq_some hp)).value hpv

end

/-! ### One level of a check -/

section

variable {conv : Conversions} {reg : TypeRegistry} {check check' : AssocTree → Value → Option Bool}
  {t t' : AssocTree} {v : Value} {b b' : Bool}

/-- Two checks that do not come to different results for references that differ in the shorthand. -/
def Agree (reg : TypeRegistry) (check check' : AssocTree → Value → Option Bool) : Prop :=
  ∀ t t' v b b', SameRef (clearPositions reg) t t' → DistinctNames t →
    check t v = some b → check' t' v = some b' → b = b'

theorem checkAll_agree {α β : Type} {f : α → Option Bool} {g : β → Option Bool} {l : List α}
    {l' : List β}
    (h : List.Forall₂ (fun a a' => ∀ b b', f a = some b → g a' = some b' → b = b') l l')
    (hb : checkAll f l = some b) (hb' : checkAll g l' = some b') : b = b' := by
  induction h with
  | nil => exact Option.some.inj (hb.symm.trans hb')
  | @cons a a' l l' ha _ ih =>
    rw [checkAll] at hb hb'
    rcases hf : f a with _ | c
    · rw [hf] at hb
      cases hb
    · rcases hg : g a' with _ | c'
      · rw [hg] at hb'
        cases hb'
      · obtain rfl := ha c c' hf hg
        rw [hf] at hb
        rw [hg] at hb'
        cases c with
        | false => exact Option.some.inj (hb.symm.trans hb')
        | true => exact ih hb hb'

theorem checkList_agree (hcheck : Agree reg check check') (h : SameRef (clearPositions reg) t t')
    (hd : DistinctNames t) (hlist : Leads reg "list" t.name) (hmap : ¬ Leads reg "map" t.name)
    (hb : checkList conv check t v = some b) (hb' : checkList conv check' t' v = some b') :
    b = b' := by
  have htype : Option.Rel (SameRef (clearPositions reg)) (t.valueOf "type")
      (t'.valueOf "type") := by
    rw [valueOf, valueOf]
    rcases firstNode_of_distinct h.params hd.nodup "type" with
      ⟨hnone, hnone'⟩ | ⟨p, p', -, hp, hname, hv, hv'⟩
    · rw [hnone, hnone']
      exact .none
    · rw [hv, hv']
      exact hp.elementType hlist hmap hname
  cases v with
  | list vl =>
    unfold checkList at hb hb'
    dsimp only at hb hb'
    rw [any_valueOf h.params hd.nodup (m := "min") (by decide) (by intros; rfl),
      any_valueOf h.params hd.nodup (m := "max") (by decide) (by intros; rfl)] at hb'
    split_ifs at hb hb' with h₁ h₂
    · exact Option.some.inj (hb.symm.trans hb')
    · exact Option.some.inj (hb.symm.trans hb')
    · cases hv : t.valueOf "type" with
      | none =>
        rw [hv] at hb htype
        generalize hv' : t'.valueOf "type" = o at htype
        cases htype
        rw [hv'] at hb'
        exact Option.some.inj (hb.symm.trans hb')
      | some eltype =>
        rw [hv] at hb htype
        generalize hv' : t'.valueOf "type" = o at htype
        cases htype with
        | some hel =>
          rw [hv'] at hb'
          refine checkAll_agree (List.forall₂_same.2 fun el _ b b' => ?_) hb hb'
          exact hcheck _ _ _ b b' hel (hd.valueOf hv)
  | null | bool | int | uint | longLong | uLongLong | double | string | map =>
    exact Option.some.inj (hb.symm.trans hb')

/-- The keys of a map with their types. -/
theorem allowedKeys_rel (h : SameRef (clearPositions reg) t t') (hd : DistinctNames t)
    (hmap : Leads reg "map" t.name) (hlist : ¬ Leads reg "list" t.name) :
    List.Forall₂ (fun a a' => a'.1 = a.1 ∧ Option.Rel (SameRef (clearPositions reg)) a.2 a'.2 ∧
      ∀ type, a.2 = some type → DistinctNames type) (allowedKeys t) (allowedKeys t') := by
  have hnodes : List.Forall₂ (fun p p' => SameParam (clearPositions reg) t.name p p' ∧
      DistinctNames p) t.nodes t'.nodes := by
    have hall := hd.nodes_distinct
    have hparams := h.params
    generalize t.name = n, t.nodes = ps, t'.nodes = ps' at hparams hall ⊢
    induction hparams with
    | nil => exact .nil
    | cons hp _ ih =>
      rw [List.forall_mem_cons] at hall
      exact .cons ⟨hp, hall.1⟩ (ih hall.2)
  refine List.rel_reverse (List.rel_map ?_ (List.rel_filter ?_ hnodes))
  · rintro p p' ⟨hp, hpd⟩
    exact ⟨hp.name_eq, hp.keyType hmap hlist, fun type htype => hpd.valueOf htype⟩
  · rintro p p' ⟨hp, -⟩
    show decide (p.name ≠ "allow-other-keys") = true ↔ decide (p'.name ≠ "allow-other-keys") = true
    rw [hp.name_eq]

theorem lookup_rel {R : Option AssocTree → Option AssocTree → Prop}
    {l l' : List (String × Option AssocTree)}
    (h : List.Forall₂ (fun a a' => a'.1 = a.1 ∧ R a.2 a'.2) l l') (k : String) :
    Option.Rel R (l.lookup k) (l'.lookup k) := by
  induction h with
  | nil => exact .none
  | @cons a a' l l' ha _ ih =>
    obtain ⟨m, o⟩ := a
    obtain ⟨m', o'⟩ := a'
    obtain ⟨rfl, ho⟩ := ha
    rw [List.lookup_cons, List.lookup_cons]
    cases k == m' with
    | true => exact .some ho
    | false => exact ih

theorem checkMap_agree (hcheck : Agree reg check check') (h : SameRef (clearPositions reg) t t')
    (hd : DistinctNames t) (hmap : Leads reg "map" t.name) (hlist : ¬ Leads reg "list" t.name)
    (hb : checkMap check t v = some b) (hb' : checkMap check' t' v = some b') : b = b' := by
  have hkeys := allowedKeys_rel h hd hmap hlist
  have hothers : (t'.nodes.any fun p => p.name = "allow-other-keys") =
      t.nodes.any fun p => p.name = "allow-other-keys" := by
    have hnames := congrArg (List.any · fun m => decide (m = "allow-other-keys"))
      (names_eq h.params)
    simpa only [List.any_map, Function.comp_def] using hnames
  cases v with
  | map m =>
    unfold checkMap at hb hb'
    dsimp only at hb hb'
    rw [hothers] at hb'
    have hempty : allowedKeys t' = [] ↔ allowedKeys t = [] := by
      rw [← List.length_eq_zero_iff, ← List.length_eq_zero_iff, hkeys.length_eq]
    simp only [hempty] at hb'
    split_ifs at hb hb' with h₁
    · exact Option.some.inj (hb.symm.trans hb')
    · refine checkAll_agree (List.forall₂_same.2 fun entry _ b b' hf hg => ?_) hb hb'
      have hlook := lookup_rel (R := fun o o' => Option.Rel (SameRef (clearPositions reg)) o o' ∧
        ∀ type, o = some type → DistinctNames type) hkeys entry.1
      rcases hl : (allowedKeys t).lookup entry.1 with _ | _ | type <;>
        generalize hl' : (allowedKeys t').lookup entry.1 = o at hlook <;> rw [hl] at hlook hf <;>
        simp only [hl'] at hg
      · cases hlook
        exact Option.some.inj (hf.symm.trans hg)
      · cases hlook with
        | some ho =>
          cases ho.1
          exact Option.some.inj (hf.symm.trans hg)
      · cases hlook with
        | some ho =>
          obtain ⟨ho, htype⟩ := ho
          cases ho with
          | some hel => exact hcheck _ _ _ b b' hel (htype type rfl) hf hg
  | null | bool | int | uint | longLong | uLongLong | double | string | list =>
    exact Option.some.inj (hb.symm.trans hb')

theorem checkNumber_eq (h : SameRef (clearPositions reg) t t') (hd : DistinctNames t) :
    checkNumber conv t' v = checkNumber conv t v := by
  unfold checkNumber inBounds
  rw [any_valueOf h.params hd.nodup (by decide) (by intros; rfl),
    any_valueOf h.params hd.nodup (by decide) (by intros; rfl)]

theorem checkStringEnum_eq (h : SameRef (clearPositions reg) t t') :
    checkStringEnum conv t' v = checkStringEnum conv t v := by
  unfold checkStringEnum
  rw [names_eq h.params]

theorem checkIntEnum_eq (h : SameRef (clearPositions reg) t t')
    (henum : Leads reg "int-enum" t.name) : checkIntEnum conv t' v = checkIntEnum conv t v := by
  have hvalues : ∀ {ps ps' : List AssocTree},
      List.Forall₂ (SameParam (clearPositions reg) t.name) ps ps' →
      (ps'.map fun p => ((p.valueOf "value").map (parameterToInt conv)).getD 0) =
        ps.map fun p => ((p.valueOf "value").map (parameterToInt conv)).getD 0 := by
    intro ps ps' hps
    induction hps with
    | nil => rfl
    | cons hp _ ih => rw [List.map_cons, List.map_cons, ih, hp.enumerator henum]
  unfold checkIntEnum
  rw [hvalues h.params]

/-- A test that is made alike on both sides leaves one of its branches on both. -/
theorem ite_agree {c : Prop} [Decidable c] {x y x' y' : Option Bool}
    (hb : (if c then x else y) = some b) (hb' : (if c then x' else y') = some b')
    (hpos : c → x = some b → x' = some b' → b = b')
    (hneg : ¬ c → y = some b → y' = some b' → b = b') : b = b' := by
  by_cases hc : c
  · rw [if_pos hc] at hb hb'
    exact hpos hc hb hb'
  · rw [if_neg hc] at hb hb'
    exact hneg hc hb hb'

/-- What is hard-wired for a name comes to one result, whichever form the reference has. -/
theorem checkHardwired_agree (hcheck : Agree reg check check')
    (h : SameRef (clearPositions reg) t t') (hd : DistinctNames t)
    (hmix : ¬ (Leads reg "list" t.name ∧ Leads reg "map" t.name))
    (hb : checkHardwired conv check t v = some b)
    (hb' : checkHardwired conv check' t' v = some b') : b = b' := by
  have hsame : ∀ {o : Option Bool}, o = some b → o = some b' → b = b' := fun ho ho' =>
    Option.some.inj (ho.symm.trans ho')
  unfold checkHardwired at hb hb'
  rw [h.name_eq] at hb'
  refine ite_agree hb hb' (fun _ => hsame) fun _ hb hb' => ?_
  refine ite_agree hb hb' (fun _ => hsame) fun _ hb hb' => ?_
  refine ite_agree hb hb' (fun _ hb hb' => ?_) fun _ hb hb' => ?_
  · rw [checkNumber_eq h hd] at hb'
    exact hsame hb hb'
  refine ite_agree hb hb' (fun _ => hsame) fun _ hb hb' => ?_
  refine ite_agree hb hb' (fun _ => hsame) fun _ hb hb' => ?_
  refine ite_agree hb hb' (fun hlist hb hb' => ?_) fun _ hb hb' => ?_
  · have hl : Leads reg "list" t.name := hlist ▸ .refl
    exact checkList_agree hcheck h hd hl (fun hm => hmix ⟨hl, hm⟩) hb hb'
  refine ite_agree hb hb' (fun hmap hb hb' => ?_) fun _ hb hb' => ?_
  · have hm : Leads reg "map" t.name := hmap ▸ .refl
    exact checkMap_agree hcheck h hd hm (fun hl => hmix ⟨hl, hm⟩) hb hb'
  refine ite_agree hb hb' (fun _ hb hb' => ?_) fun _ hb hb' => ?_
  · rw [checkStringEnum_eq h] at hb'
    exact hsame hb hb'
  refine ite_agree hb hb' (fun henum hb hb' => ?_) fun _ => hsame
  rw [checkIntEnum_eq h (henum ▸ .refl)] at hb'
  exact hsame hb hb'

end

/-! ### The whole check -/

section

variable {conv : Conversions} {reg reg' : TypeRegistry} {t t' : AssocTree} {v : Value}

/-- A value that passes has passed at each type the base types lead to. -/
theorem passes_of_leads {target n : String} (hn : Leads reg target n) (ht : t.name = n) {fuel : ℕ}
    (h : typeCheck conv reg fuel t v = some true) :
    ∃ fuel t₁, t₁.name = target ∧
      checkHardwired conv (typeCheck conv reg fuel) t₁ v = some true := by
  induction hn generalizing t fuel with
  | refl =>
    cases fuel with
    | zero => cases h
    | succ fuel =>
      refine ⟨fuel, t, ht, ?_⟩
      rw [typeCheck] at h
      split at h
      · exact h
      · split at h
        · cases h
        · cases h
        · exact h
  | @step n b hb _ ih =>
    cases fuel with
    | zero => cases h
    | succ fuel =>
      rw [typeCheck, ht] at h
      simp only [hb] at h
      rcases hbase : typeCheck conv reg fuel (b.instantiate t.nodes) v with _ | _ | _
      · rw [hbase] at h
        cases h
      · rw [hbase] at h
        cases h
      · refine ih ?_ hbase
        rw [instantiate_eq]
        rfl

/-- No value is a list and a map. -/
theorem fails_of_list_of_map (hlist : Leads reg "list" t.name) (hmap : Leads reg "map" t.name)
    {fuel : ℕ} {b : Bool} (h : typeCheck conv reg fuel t v = some b) : b = false := by
  cases b with
  | false => rfl
  | true =>
    obtain ⟨f₁, t₁, h₁, hl⟩ := passes_of_leads hlist rfl h
    obtain ⟨f₂, t₂, h₂, hm⟩ := passes_of_leads hmap rfl h
    simp only [checkHardwired, h₁, h₂, String.reduceEq, if_true, if_false] at hl hm
    cases v <;> first | cases hl | cases hm

/-- References that differ in the shorthand do not come to different results. -/
theorem typeCheck_agree (hreg : List.Forall₂ (SameDefinition (clearPositions reg)) reg reg')
    (hbase : ∀ d ∈ reg, ∀ b, d.valueOf "base" = some b → DistinctNames b) (fuel : ℕ) :
    Agree reg (typeCheck conv reg fuel) (typeCheck conv reg' fuel) := by
  induction fuel with
  | zero =>
    intro t t' v b b' _ _ hb
    cases hb
  | succ fuel ih =>
    intro t t' v b b' h hd hb hb'
    by_cases hmix : Leads reg "list" t.name ∧ Leads reg "map" t.name
    · rw [fails_of_list_of_map hmix.1 hmix.2 hb]
      refine (fails_of_list_of_map ?_ ?_ hb').symm <;> rw [h.name_eq]
      · exact leads_of_sameRegistry hreg hmix.1
      · exact leads_of_sameRegistry hreg hmix.2
    · have hrel := base_of_sameRegistry hreg t.name
      rw [typeCheck] at hb hb'
      rw [h.name_eq] at hb'
      generalize ho : base reg t.name = o at hb hrel
      generalize base reg' t.name = o' at hb' hrel
      cases hrel with
      | none => exact checkHardwired_agree ih h hd hmix hb hb'
      | @some bt bt' hbt =>
        -- The base types differ in the shorthand alone, and so do the parameters put over them.
        have hbtd : DistinctNames bt := by
          obtain ⟨d, hd, -, hval⟩ := exists_definition ho
          exact hbase d hd bt hval
        have hinst : SameRef (clearPositions reg) (bt.instantiate t.nodes)
            (bt'.instantiate t'.nodes) := by
          rw [instantiate_eq, instantiate_eq]
          have hparams : List.Forall₂ (SameParam (clearPositions reg) bt.name) t.nodes t'.nodes :=
            h.params.imp fun p p' hp => hp.base ho hmix
          exact .intro hbt.name_eq (sameParams_iff.2 (forall₂_merge hbt.params hparams))
        dsimp only at hb hb'
        rcases hc : typeCheck conv reg fuel (bt.instantiate t.nodes) v with _ | c
        · rw [hc] at hb
          cases hb
        · rcases hc' : typeCheck conv reg' fuel (bt'.instantiate t'.nodes) v with _ | c'
          · rw [hc'] at hb'
            cases hb'
          · obtain rfl := ih _ _ _ c c' hinst (hbtd.instantiate hd) hc hc'
            rw [hc] at hb
            rw [hc'] at hb'
            cases c with
            | false => exact Option.some.inj (hb.symm.trans hb')
            | true => exact checkHardwired_agree ih h hd hmix hb hb'

end

/-- **The shorthand is invisible.**  Where base types come to an end and names beside each other are
distinct, a reference and the bases in the registry may be written with or without the shorthand,
at every clear position: the check comes to the same result. -/
theorem typeCheck_shorthand (conv : Conversions) {reg reg' : TypeRegistry}
    (hends : ∀ name, BaseEnds reg name)
    (hbase : ∀ d ∈ reg, ∀ b, d.valueOf "base" = some b → DistinctNames b)
    (hreg : List.Forall₂ (SameDefinition (clearPositions reg)) reg reg') {t t' : AssocTree}
    (ht : DistinctNames t) (h : SameRef (clearPositions reg) t t') (v : Value) :
    ∃ b, Returns conv reg t v b ∧ Returns conv reg' t' v b := by
  obtain ⟨b, n, hn⟩ := ((typeCheck_ends_iff conv reg).2.2 hends) t v
  obtain ⟨b', m, hm⟩ := ((typeCheck_ends_iff conv reg').2.2 fun name =>
    baseEnds_of_sameRegistry hreg (hends name)) t' v
  obtain rfl := typeCheck_agree hreg hbase (max n m) t t' v b b' h ht (hn _ (le_max_left n m))
    (hm _ (le_max_right n m))
  exact ⟨b, ⟨n, hn⟩, m, hm⟩

/-- A type of lists of strings, and the same one with the shorthand spelled out. -/
def listRegistry (elements : AssocTree) : TypeRegistry :=
  [coreType "value" none, coreType "list" (some (str "value")),
    coreType "names" (some (node "list" [node "type" [elements]]))]

/-- A map of names, written in two ways. -/
theorem typeCheck_shorthand_names :
    ∃ b, Returns ⟨fun _ => none, fun _ => 0, fun _ => 0, fun _ => ""⟩ (listRegistry (str "string"))
        (node "map" [node "people" [node "type" [str "names"]], node "allow-other-keys" []])
        (.map [("people", .list [.string "Ada"])]) b ∧
      Returns ⟨fun _ => none, fun _ => 0, fun _ => 0, fun _ => ""⟩
        (listRegistry (node "string" []))
        (node "map" [node "people" [node "type" [node "names" []]], str "allow-other-keys"])
        (.map [("people", .list [.string "Ada"])]) b := by
  have hstr : ∀ s, DistinctNames (str s) := fun s => .intro .nil fun _ h => by cases h
  have hone : ∀ n p, DistinctNames p → DistinctNames (node n [p]) := fun n p hp =>
    .intro (by simp [AssocTree.nodes]) fun q hq => List.mem_singleton.1 hq ▸ hp
  refine typeCheck_shorthand _ (baseEnds_of_rank (["value", "list", "names"].idxOf ·) (by decide))
    ?_ ?_ (.intro (by decide) ?_) ?_ _
  · intro d hd b hb
    simp only [listRegistry, List.mem_cons, List.not_mem_nil, or_false] at hd
    rcases hd with rfl | rfl | rfl
    · cases hb
    · obtain rfl := Option.some.inj hb
      exact hstr _
    · obtain rfl := Option.some.inj hb
      exact hone _ _ (hone _ _ (hstr _))
  · exact .cons (.same _) (.cons (.same _) (.cons (.base (l := [_]) (.intro rfl (.cons
      (.typeNode ⟨fun _ => by decide, fun _ _ => by decide⟩ (.shorthand _)) (.nil _)))) .nil))
  · intro p hp
    rcases List.mem_cons.1 hp with rfl | hp
    · exact hone _ _ (hone _ _ (hstr _))
    · obtain rfl := List.mem_singleton.1 hp
      exact .intro .nil fun _ h => by cases h
  · exact .intro rfl (.cons (.keyNode (l := []) (fun _ _ => by decide) (.shorthand _))
      (.cons (.toString _ _) (.nil _)))

/-- Lists whose elements are checked, and that an enumeration of numbers is based on. -/
def enumOfLists : TypeRegistry :=
  [coreType "value" none, coreType "list" (some (str "value")),
    coreType "int-enum" (some (str "list"))]

/-- The `3` is a parameter of the type of the elements, and the number of an enumerator. -/
theorem exists_shorthand_visible :
    ¬ ∀ (conv : Conversions) (reg reg' : TypeRegistry), (∀ name, BaseEnds reg name) →
      (∀ d ∈ reg, ∀ b, d.valueOf "base" = some b → DistinctNames b) →
      List.Forall₂ (SameDefinition (typePositions reg)) reg reg' →
      ∀ (t t' : AssocTree), DistinctNames t → SameRef (typePositions reg) t t' →
      ∀ v, ∃ b, Returns conv reg t v b ∧ Returns conv reg' t' v b := by
  intro h
  have hstr : ∀ s, DistinctNames (str s) := fun s => .intro .nil fun _ h => by cases h
  have hone : ∀ n p, DistinctNames p → DistinctNames (node n [p]) := fun n p hp =>
    .intro (by simp [AssocTree.nodes]) fun q hq => List.mem_singleton.1 hq ▸ hp
  obtain ⟨b, hb, hb'⟩ := h ⟨fun _ => none, fun s => if s = "3" then 3 else 0, fun _ => 0,
      fun _ => ""⟩ enumOfLists enumOfLists
    (baseEnds_of_rank (["value", "list", "int-enum"].idxOf ·) (by decide))
    (by
      intro d hd b hb
      simp only [enumOfLists, List.mem_cons, List.not_mem_nil, or_false] at hd
      rcases hd with rfl | rfl | rfl
      · cases hb
      · obtain rfl := Option.some.inj hb
        exact hstr _
      · obtain rfl := Option.some.inj hb
        exact hstr _)
    (List.forall₂_same.2 fun d _ => .same d)
    (node "int-enum" [node "type" [node "value" [str "3"]]])
    (node "int-enum" [node "type" [node "value" [node "3" []]]])
    (hone _ _ (hone _ _ (hone _ _ (hstr _))))
    (.intro rfl (.cons (.typeNode (.step rfl .refl)
      (.intro rfl (.cons (.toList _ _) (.nil _)))) (.nil _)))
    (.list [])
  have h₁ := hb.unique (returns_iff.2 ⟨3, (by decide : _ = some false)⟩)
  have h₂ := hb'.unique (returns_iff.2 ⟨3, (by decide : _ = some true)⟩)
  rw [h₁] at h₂
  cases h₂

end ContextKit
