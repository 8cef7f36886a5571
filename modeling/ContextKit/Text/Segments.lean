import Mathlib.Data.List.DropRight
import Mathlib.Tactic.Common

/-!
# Texts cut at a separator

A text is cut at every separator, and each piece is trimmed.  The separator is no space.

Space may be put after a text without changing its segments (`segments_append`); anything else makes
them heavier (`weight_segments_lt`).
-/

namespace Segments

variable {α : Type*} (isSpace : α → Bool)

/-- No space at either end. -/
def trim (s : List α) : List α := (s.rdropWhile isSpace).dropWhile isSpace

/-- The number of characters that are no space, and one for each piece. -/
def weight : List (List α) → ℕ
  | [] => 0
  | s :: l => s.countP (fun c => !isSpace c) + 1 + weight l

variable {isSpace}

theorem trim_append {x : List α} (hx : ∀ c ∈ x, isSpace c = true) (s : List α) :
    trim isSpace (s ++ x) = trim isSpace s := by
  have hdrop : (s ++ x).rdropWhile isSpace = s.rdropWhile isSpace := by
    induction x using List.reverseRecOn with
    | nil => rw [List.append_nil]
    | append_singleton x c ih =>
      rw [← List.append_assoc, List.rdropWhile_concat_pos _ _ _ (hx c (by simp))]
      exact ih fun d hd => hx d (List.mem_append_left _ hd)
  rw [trim, trim, hdrop]

/-- Only space is trimmed. -/
theorem countP_trim (s : List α) :
    (trim isSpace s).countP (fun c => !isSpace c) = s.countP fun c => !isSpace c := by
  have hleft (t : List α) :
      (t.dropWhile isSpace).countP (fun c => !isSpace c) = t.countP fun c => !isSpace c := by
    induction t with
    | nil => rfl
    | cons c t ih =>
      cases hc : isSpace c with
      | true => simp [hc, ih]
      | false => simp [hc]
  rw [trim, hleft, List.rdropWhile, List.countP_reverse, hleft, List.countP_reverse]

@[simp] theorem weight_nil : weight isSpace [] = 0 := rfl

@[simp] theorem weight_cons (s : List α) (l : List (List α)) :
    weight isSpace (s :: l) = s.countP (fun c => !isSpace c) + 1 + weight isSpace l := rfl

@[simp] theorem weight_append (l m : List (List α)) :
    weight isSpace (l ++ m) = weight isSpace l + weight isSpace m := by
  induction l with
  | nil => rw [List.nil_append, weight_nil, Nat.zero_add]
  | cons s l ih =>
    rw [List.cons_append, weight_cons, weight_cons, ih]
    omega

theorem weight_map_trim (l : List (List α)) :
    weight isSpace (l.map (trim isSpace)) = weight isSpace l := by
  induction l with
  | nil => rfl
  | cons s l ih => rw [List.map_cons, weight_cons, weight_cons, ih, countP_trim]

variable (isSpace) [DecidableEq α] (sep : α)

/-- The trimmed pieces. -/
def segments (s : List α) : List (List α) := (s.splitOn sep).map (trim isSpace)

variable {isSpace} {sep}

theorem segments_append_cons (s t : List α) :
    segments isSpace sep (s ++ sep :: t) = segments isSpace sep s ++ segments isSpace sep t := by
  rw [segments, List.splitOn_append_cons_self, List.map_append]
  rfl

theorem segments_of_notMem {s : List α} (h : sep ∉ s) :
    segments isSpace sep s = [trim isSpace s] := by
  rw [segments, List.splitOn_eq_singleton h]
  rfl

/-- Every character that is no space is in a piece or separates two. -/
theorem weight_segments (hsep : isSpace sep = false) (s : List α) :
    weight isSpace (segments isSpace sep s) = s.countP (fun c => !isSpace c) + 1 := by
  rw [segments, weight_map_trim]
  induction s with
  | nil => simp [List.splitOn_nil]
  | cons c s ih =>
    rw [List.splitOn_cons_eq_if_modifyHead, List.countP_cons]
    by_cases hc : c = sep
    · simp [hc, hsep, ih]
      omega
    · obtain ⟨piece, pieces, hpieces⟩ := List.exists_cons_of_ne_nil (List.splitOn_ne_nil sep s)
      rw [hpieces, weight_cons] at ih
      simp only [beq_iff_eq, hc, if_false, hpieces, List.modifyHead_cons, weight_cons,
        List.countP_cons]
      omega

/-- Space at the end is trimmed off the last piece. -/
theorem segments_append (hsep : isSpace sep = false) {x : List α}
    (hx : ∀ c ∈ x, isSpace c = true) (s : List α) :
    segments isSpace sep (s ++ x) = segments isSpace sep s := by
  by_cases hmem : sep ∈ s
  · obtain ⟨piece, t, rfl, -⟩ := List.eq_append_cons_of_mem hmem
    rw [List.append_assoc, List.cons_append, segments_append_cons, segments_append_cons,
      segments_append hsep hx t]
  · have hnot : sep ∉ s ++ x := by
      rw [List.mem_append, not_or]
      refine ⟨hmem, fun h => ?_⟩
      rw [hx sep h] at hsep
      cases hsep
    rw [segments_of_notMem hmem, segments_of_notMem hnot, trim_append hx]
termination_by s.length
decreasing_by
  rename_i heq _
  rw [heq, List.length_append, List.length_cons]
  omega

/-- Anything else at the end makes the pieces heavier. -/
theorem weight_segments_lt (hsep : isSpace sep = false) {x : List α}
    (hx : ¬ ∀ c ∈ x, isSpace c = true) (s : List α) :
    weight isSpace (segments isSpace sep s) < weight isSpace (segments isSpace sep (s ++ x)) := by
  rw [weight_segments hsep, weight_segments hsep, List.countP_append]
  push Not at hx
  obtain ⟨c, hc, hne⟩ := hx
  have hpos : 0 < x.countP fun c => !isSpace c :=
    List.countP_pos_iff.2 ⟨c, hc, by simpa using hne⟩
  omega

end Segments
