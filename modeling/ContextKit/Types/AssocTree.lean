import Mathlib.Data.List.Induction
import Mathlib.Tactic.Common

/-!
# `AssocTree`: the trees read from XML

An association tree is a string, or a list that starts with its name and goes on with its nodes.
As values these trees are nested lists of strings; the null tree, which many lookups return, is kept
outside, as `none`.

What depends on the order of the nodes are the lookups: `find` takes the first list-like node of a
name, and giving a tree parameters (`instantiate`) replaces its nodes of the same names, whichever
form they have, and puts the new ones at the end.  `firstNode_merge` and `lastNamed_merge` say what
the lookups find afterwards.
-/

namespace ContextKit

inductive AssocTree
  | str (text : String)
  | node (name : String) (nodes : List AssocTree)

namespace AssocTree

def name : AssocTree → String
  | str s => s
  | node n _ => n

def nodes : AssocTree → List AssocTree
  | str _ => []
  | node _ ns => ns

/-- The tree is a list with the name `n`. -/
def isNode (n : String) : AssocTree → Bool
  | str _ => false
  | node m _ => m == n

/-- `value()`: the first node. -/
def value : AssocTree → Option AssocTree
  | str _ => none
  | node _ [] => none
  | node _ (v :: _) => some v

/-- The first list of the name `n` among the trees of a list. -/
def firstNode (n : String) (l : List AssocTree) : Option AssocTree := l.find? (isNode n)

/-- `value(n)` -/
def valueOf (t : AssocTree) (n : String) : Option AssocTree := (firstNode n t.nodes).bind value

/-- The tree without its nodes named `n`. -/
def filterOut (t : AssocTree) (n : String) : AssocTree :=
  match t with
  | str s => str s
  | node m ns => node m (ns.filter fun p => p.name ≠ n)

/-- `toList() << p` -/
def append (t p : AssocTree) : AssocTree := node t.name (t.nodes ++ [p])

/-- The tree as a list, and its parameters replaced one after the other by those of `ps`. -/
def instantiate (t : AssocTree) (ps : List AssocTree) : AssocTree :=
  ps.foldl (fun t p => (t.filterOut p.name).append p) (node t.name t.nodes)

/-! ### Replacing parameters -/

/-- What `instantiate` does to the nodes. -/
def merge (qs ps : List AssocTree) : List AssocTree :=
  ps.foldl (fun qs p => (qs.filter fun q => q.name ≠ p.name) ++ [p]) qs

theorem instantiate_eq (t : AssocTree) (ps : List AssocTree) :
    t.instantiate ps = node t.name (merge t.nodes ps) := by
  suffices h : ∀ qs, ps.foldl (fun t p => (t.filterOut p.name).append p) (node t.name qs) =
      node t.name (merge qs ps) from h t.nodes
  induction ps with
  | nil => intro qs; rfl
  | cons p ps ih => intro qs; exact ih _

theorem merge_append_singleton (qs ps : List AssocTree) (p : AssocTree) :
    merge qs (ps ++ [p]) = (merge qs ps).filter (fun q => q.name ≠ p.name) ++ [p] := by
  simp [merge, List.foldl_append]

/-- The last tree of a name, in either form. -/
def lastNamed (n : String) (l : List AssocTree) : Option AssocTree :=
  l.reverse.find? fun t => t.name = n

theorem lastNamed_append_singleton (n : String) (l : List AssocTree) (p : AssocTree) :
    lastNamed n (l ++ [p]) = if p.name = n then some p else lastNamed n l := by
  unfold lastNamed
  rw [List.reverse_append, List.reverse_singleton, List.singleton_append, List.find?_cons]
  by_cases hp : p.name = n <;> simp [hp]

theorem name_of_isNode {n : String} {t : AssocTree} (h : t.isNode n = true) : t.name = n := by
  cases t with
  | str s => cases h
  | node m ns => exact beq_iff_eq.1 h

/-- Taking out another name does not change what is found. -/
theorem find?_filterOut {P : AssocTree → Bool} {n m : String} (hnm : n ≠ m)
    (hP : ∀ t, P t = true → t.name = n) (l : List AssocTree) :
    (l.filter fun q => q.name ≠ m).find? P = l.find? P := by
  rw [List.find?_filter]
  congr 1
  funext t
  by_cases ht : P t = true
  · simp [ht, hP t ht, hnm]
  · simp [ht]

theorem find?_filterOut_self {P : AssocTree → Bool} {n : String}
    (hP : ∀ t, P t = true → t.name = n) (l : List AssocTree) :
    (l.filter fun q => q.name ≠ n).find? P = none := by
  rw [List.find?_eq_none]
  intro t ht hPt
  have hne := (List.mem_filter.1 ht).2
  simp [hP t hPt] at hne

/-- The last parameter of a name is the node found, if it has the form of one; without a parameter
of the name the node is found where it was. -/
theorem firstNode_merge (n : String) (qs ps : List AssocTree) :
    firstNode n (merge qs ps) =
      match lastNamed n ps with
      | some p => if p.isNode n then some p else none
      | none => firstNode n qs := by
  induction ps using List.reverseRecOn with
  | nil => rfl
  | append_singleton ps p ih =>
    have hname : ∀ t, isNode n t = true → t.name = n := fun t ht => name_of_isNode ht
    rw [merge_append_singleton, lastNamed_append_singleton, firstNode, List.find?_append]
    by_cases hp : p.name = n
    · rw [if_pos hp, hp, find?_filterOut_self hname]
      by_cases hnode : p.isNode n = true <;> simp [hnode]
    · have hnode : p.isNode n = false := by
        by_contra hnode
        exact hp (name_of_isNode (by simpa using hnode))
      rw [if_neg hp, find?_filterOut (Ne.symm hp) hname, ← ih]
      simp [firstNode, hnode]

theorem lastNamed_merge (n : String) (qs ps : List AssocTree) :
    lastNamed n (merge qs ps) = (lastNamed n ps).or (lastNamed n qs) := by
  induction ps using List.reverseRecOn with
  | nil => rfl
  | append_singleton ps p ih =>
    rw [merge_append_singleton, lastNamed_append_singleton, lastNamed_append_singleton]
    by_cases hp : p.name = n
    · simp [hp]
    · rw [if_neg hp, if_neg hp, ← ih, lastNamed, ← List.filter_reverse]
      exact find?_filterOut (Ne.symm hp) (fun t ht => of_decide_eq_true ht) _

/-- The names after a replacement are those of both lists. -/
theorem mem_names_merge {n : String} (qs ps : List AssocTree) :
    n ∈ (merge qs ps).map name ↔ n ∈ ps.map name ∨ n ∈ qs.map name := by
  induction ps using List.reverseRecOn with
  | nil => simp [merge]
  | append_singleton ps p ih =>
    rw [merge_append_singleton]
    simp only [List.map_append, List.mem_append, List.map_cons, List.map_nil,
      List.mem_singleton] at ih ⊢
    by_cases hp : n = p.name
    · simp [hp]
    · have hfilter : n ∈ ((merge qs ps).filter fun q => q.name ≠ p.name).map name ↔
          n ∈ (merge qs ps).map name := by
        simp only [List.mem_map, List.mem_filter, decide_eq_true_eq]
        constructor
        · rintro ⟨t, ⟨ht, -⟩, hn⟩
          exact ⟨t, ht, hn⟩
        · rintro ⟨t, ht, hn⟩
          exact ⟨t, ⟨ht, hn ▸ hp⟩, hn⟩
      rw [hfilter, ih]
      simp [hp]

/-- Parameters with distinct names that the tree does not have are added as they are. -/
theorem merge_of_distinct {qs ps : List AssocTree} (h : ((qs ++ ps).map name).Nodup) :
    merge qs ps = qs ++ ps := by
  induction ps generalizing qs with
  | nil => simp [merge]
  | cons p ps ih =>
    have hqs : qs.filter (fun q => q.name ≠ p.name) = qs := by
      rw [List.filter_eq_self]
      intro q hq
      rw [List.map_append, List.nodup_append] at h
      simpa using h.2.2 q.name (List.mem_map_of_mem hq) p.name (by simp)
    show merge (qs.filter (fun q => q.name ≠ p.name) ++ [p]) ps = _
    rw [hqs, ih (by simpa using h)]
    simp

end AssocTree

end ContextKit
