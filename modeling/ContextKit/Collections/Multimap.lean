import Mathlib.Data.List.Nodup
import Mathlib.Tactic.Common

/-!
# Maps with several values for a key

A multimap is the list of its entries in the order in which they were put.  `add` puts one more
entry, `replace` takes the entries of the key out first.  A loop that writes the entries of many
owners, each to keys of its own, leaves at a key what its owner wrote (`values_foldl_owner`).
-/

/-- The entries of a multimap, in the order in which they were put. -/
abbrev Multimap (κ α : Type*) := List (κ × α)

namespace Multimap

variable {κ α ι : Type*} [DecidableEq κ]

/-- All values of a key, the oldest first. -/
def values (m : Multimap κ α) (k : κ) : List α := (m.filter fun e => e.1 = k).map Prod.snd

/-- One more value for the key. -/
def add (m : Multimap κ α) (k : κ) (a : α) : Multimap κ α := m ++ [(k, a)]

/-- The only value for the key. -/
def replace (m : Multimap κ α) (k : κ) (a : α) : Multimap κ α :=
  add (m.filter fun e => e.1 ≠ k) k a

variable (m : Multimap κ α) {k l : κ} (a : α)

@[simp] theorem values_nil (k : κ) : values ([] : Multimap κ α) k = [] := rfl

@[simp] theorem values_add_self : (m.add k a).values k = m.values k ++ [a] := by
  simp [values, add]

@[simp] theorem values_add_of_ne (h : l ≠ k) : (m.add k a).values l = m.values l := by
  simp [values, add, h.symm]

@[simp] theorem values_replace_self : (m.replace k a).values k = [a] := by
  have hnone : values (m.filter fun e => e.1 ≠ k) k = [] := by
    simp [values, List.filter_filter]
  rw [replace, values_add_self, hnone, List.nil_append]

@[simp] theorem values_replace_of_ne (h : l ≠ k) : (m.replace k a).values l = m.values l := by
  rw [replace, values_add_of_ne _ _ h, values, values, List.filter_filter]
  congr 1
  apply List.filter_congr
  intro e _
  by_cases he : e.1 = l
  · simp [he, h]
  · simp [he]

/-- Writing elsewhere leaves the values of a key. -/
theorem values_foldl {write : Multimap κ α → ι → Multimap κ α} {is : List ι}
    (hwrite : ∀ m, ∀ i ∈ is, (write m i).values k = m.values k) :
    (is.foldl write m).values k = m.values k := by
  induction is generalizing m with
  | nil => rfl
  | cons i is ih =>
    rw [List.foldl_cons, ih _ fun n j hj => hwrite n j (List.mem_cons_of_mem i hj)]
    exact hwrite m i List.mem_cons_self

/-- **A key with one owner** has the values that its owner wrote, if the loop comes to the owner
once. -/
theorem values_foldl_owner {write : Multimap κ α → ι → Multimap κ α} {owner : ι}
    (hwrite : ∀ m i, i ≠ owner → (write m i).values k = m.values k) {is : List ι}
    (hnodup : is.Nodup) (h : owner ∈ is) :
    ∃ n : Multimap κ α, n.values k = m.values k ∧
      (is.foldl write m).values k = (write n owner).values k := by
  induction is generalizing m with
  | nil => cases h
  | cons i is ih =>
    rw [List.nodup_cons] at hnodup
    rw [List.foldl_cons]
    by_cases hi : i = owner
    · subst hi
      refine ⟨m, rfl, values_foldl _ fun n j hj => hwrite n j ?_⟩
      rintro rfl
      exact hnodup.1 hj
    · have hmem : owner ∈ is := (List.mem_cons.1 h).resolve_left (Ne.symm hi)
      obtain ⟨n, hn, hfold⟩ := ih (write m i) hnodup.2 hmem
      exact ⟨n, hn.trans (hwrite m i hi), hfold⟩

end Multimap
