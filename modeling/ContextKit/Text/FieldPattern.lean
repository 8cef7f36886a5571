import Mathlib.Data.List.DropRight
import Mathlib.Data.List.TakeWhile
import Mathlib.Tactic.Common

/-!
# Patterns of optional fields

A pattern is a sequence of optional fields and of optional space.  A field is a number, written in
digits, with the letter of the field after it; `fold` makes no difference between the forms of a
letter.  `Matches` says which strings a pattern matches, and with which digits in its fields, and
`capture` reads them: a field is taken if it is there, and space is skipped as far as it goes.

`capture_eq_some` is the correctness of `capture` for patterns whose fields have letters of their
own, so that the fields of a string are determined.
-/

namespace FieldPattern

variable {α : Type*}

/-- What a digit, a space and a form of a letter is. -/
structure Alphabet (α : Type*) where
  isDigit : α → Bool
  isSpace : α → Bool
  fold : α → α

/-- A part of a pattern. -/
inductive Atom (α : Type*)
  | field (letter : α)
  | blanks

variable (A : Alphabet α)

/-- The string matches the pattern, with these digits in the fields, none in those left out. -/
inductive Matches : List (Atom α) → List α → List (List α) → Prop
  | nil : Matches [] [] []
  | absent (u : α) {as : List (Atom α)} {s : List α} {caps : List (List α)}
      (h : Matches as s caps) : Matches (.field u :: as) s ([] :: caps)
  | present {u c : α} {d : List α} {as : List (Atom α)} {s : List α} {caps : List (List α)}
      (hne : d ≠ []) (hdigits : ∀ x ∈ d, A.isDigit x = true) (hletter : A.fold c = A.fold u)
      (h : Matches as s caps) : Matches (.field u :: as) (d ++ c :: s) (d :: caps)
  | blanks {w : List α} {as : List (Atom α)} {s : List α} {caps : List (List α)}
      (hspace : ∀ x ∈ w, A.isSpace x = true) (h : Matches as s caps) :
      Matches (.blanks :: as) (w ++ s) caps

/-- The letters of the fields. -/
def letters (as : List (Atom α)) : List α :=
  as.filterMap fun a =>
    match a with
    | .field u => some u
    | .blanks => none

/-- Digits, spaces and letters are different, and no two fields have the same letter. -/
structure WellFormed (as : List (Atom α)) : Prop where
  space : ∀ c, A.isSpace c = true → A.isDigit c = false
  letter : ∀ u ∈ letters as, ∀ c, A.fold c = A.fold u → A.isDigit c = false
  nodup : ((letters as).map A.fold).Nodup

section

variable [DecidableEq α]

/-- The digits of a field at the beginning of a string, and what comes after its letter. -/
def field (u : α) (s : List α) : Option (List α × List α) :=
  match s.takeWhile A.isDigit, s.dropWhile A.isDigit with
  | x :: d, c :: rest => if A.fold c = A.fold u then some (x :: d, rest) else none
  | _, _ => none

/-- The digits of the fields, if the string matches the pattern. -/
def capture : List (Atom α) → List α → Option (List (List α))
  | [], s => if s = [] then some [] else none
  | .field u :: as, s =>
    match field A u s with
    | some (d, rest) => (capture as rest).map (d :: ·)
    | none => (capture as s).map ([] :: ·)
  | .blanks :: as, s => capture as (s.dropWhile A.isSpace)

end

variable {A}

theorem letters_field (u : α) (as : List (Atom α)) : letters (.field u :: as) = u :: letters as :=
  rfl

theorem WellFormed.tail {a : Atom α} {as : List (Atom α)} (h : WellFormed A (a :: as)) :
    WellFormed A as where
  space := h.space
  letter u hu := by
    cases a with
    | field v => exact h.letter u (List.mem_cons_of_mem _ hu)
    | blanks => exact h.letter u hu
  nodup := by
    cases a with
    | field v => exact (List.nodup_cons.1 h.nodup).2
    | blanks => exact h.nodup

/-- Every digit and letter of a matched string belongs to a field. -/
theorem Matches.mem {as : List (Atom α)} {s : List α} {caps : List (List α)}
    (h : Matches A as s caps) {c : α} (hc : c ∈ s) :
    A.isDigit c = true ∨ A.isSpace c = true ∨ ∃ u ∈ letters as, A.fold c = A.fold u := by
  induction h with
  | nil => cases hc
  | absent u _ ih =>
    exact (ih hc).imp id (Or.imp id fun ⟨v, hv, hf⟩ => ⟨v, List.mem_cons_of_mem _ hv, hf⟩)
  | @present u c' d as s caps _ hdigits hletter _ ih =>
    rcases List.mem_append.1 hc with hc | hc
    · exact .inl (hdigits c hc)
    · rcases List.mem_cons.1 hc with rfl | hc
      · exact .inr (.inr ⟨u, List.mem_cons_self, hletter⟩)
      · exact (ih hc).imp id (Or.imp id fun ⟨v, hv, hf⟩ => ⟨v, List.mem_cons_of_mem _ hv, hf⟩)
  | blanks hspace _ ih =>
    rcases List.mem_append.1 hc with hc | hc
    · exact .inr (.inl (hspace c hc))
    · exact ih hc

/-- There are as many captures as fields. -/
theorem Matches.length_eq {as : List (Atom α)} {s : List α} {caps : List (List α)}
    (h : Matches A as s caps) : caps.length = (letters as).length := by
  induction h with
  | nil => rfl
  | absent _ _ ih | present _ _ _ _ ih => simp [letters_field, ih]
  | blanks _ _ ih => exact ih

/-- What is captured is digits. -/
theorem Matches.digits {as : List (Atom α)} {s : List α} {caps : List (List α)}
    (h : Matches A as s caps) : ∀ d ∈ caps, ∀ x ∈ d, A.isDigit x = true := by
  induction h with
  | nil => simp
  | absent _ _ ih => simpa using ih
  | present _ hdigits _ _ ih => exact List.forall_mem_cons.2 ⟨hdigits, ih⟩
  | blanks _ _ ih => exact ih

theorem takeWhile_digits {d rest : List α} {c : α} (hd : ∀ x ∈ d, A.isDigit x = true)
    (hc : A.isDigit c = false) : (d ++ c :: rest).takeWhile A.isDigit = d := by
  rw [List.takeWhile_append_of_pos hd, List.takeWhile_cons_of_neg (by simp [hc]), List.append_nil]

theorem dropWhile_digits {d rest : List α} {c : α} (hd : ∀ x ∈ d, A.isDigit x = true)
    (hc : A.isDigit c = false) : (d ++ c :: rest).dropWhile A.isDigit = c :: rest := by
  rw [List.dropWhile_append_of_pos hd, List.dropWhile_cons_of_neg (by simp [hc])]

/-- A number at the beginning, after some space, has the letter of one of the fields after it. -/
theorem Matches.letter {as : List (Atom α)} {s : List α} {caps : List (List α)}
    (h : Matches A as s caps) (hwf : WellFormed A as) {w d rest : List α} {c : α}
    (hs : s = w ++ (d ++ c :: rest)) (hw : ∀ x ∈ w, A.isSpace x = true) (hne : d ≠ [])
    (hd : ∀ x ∈ d, A.isDigit x = true) (hc : A.isDigit c = false) :
    A.fold c ∈ (letters as).map A.fold := by
  induction h generalizing w with
  | nil => simp at hs
  | absent u _ ih => exact List.mem_cons_of_mem _ (ih hwf.tail hs hw)
  | @present u c' d' as s caps hne' hdigits hletter _ _ =>
    -- The string begins with a digit, so no space comes first, and the two numbers are the same.
    have hw' : w = [] := by
      rcases w with _ | ⟨x, w⟩
      · rfl
      · obtain ⟨y, d'', rfl⟩ := List.exists_cons_of_ne_nil hne'
        obtain ⟨rfl, -⟩ := List.cons.inj hs
        have hx := hwf.space y (hw y List.mem_cons_self)
        rw [hdigits y List.mem_cons_self] at hx
        cases hx
    subst hw'
    have hc' := hwf.letter u List.mem_cons_self c' hletter
    have hrest := congrArg (List.dropWhile A.isDigit) hs
    rw [List.nil_append, dropWhile_digits hdigits hc', dropWhile_digits hd hc] at hrest
    obtain ⟨rfl, -⟩ := List.cons.inj hrest
    rw [hletter]
    exact List.mem_cons_self
  | @blanks w' as s caps hspace _ ih =>
    -- The spaces of the pattern and those before the number begin alike.
    rcases List.append_eq_append_iff.1 hs with ⟨v, hv, hs'⟩ | ⟨v, hv, hs'⟩
    · exact ih hwf.tail hs' fun x hx => hw x (hv ▸ List.mem_append_right _ hx)
    · rcases v with _ | ⟨x, v⟩
      · exact ih hwf.tail (w := []) hs'.symm (by simp)
      · obtain ⟨y, d', rfl⟩ := List.exists_cons_of_ne_nil hne
        obtain ⟨rfl, -⟩ := List.cons.inj hs'
        have hy := hwf.space y (hspace y (hv ▸ List.mem_append_right _ List.mem_cons_self))
        rw [hd y List.mem_cons_self] at hy
        cases hy

section

variable [DecidableEq α]

theorem field_eq_some {u : α} {s d rest : List α} (h : field A u s = some (d, rest)) :
    ∃ c, s = d ++ c :: rest ∧ d ≠ [] ∧ (∀ x ∈ d, A.isDigit x = true) ∧ A.fold c = A.fold u := by
  unfold field at h
  split at h
  · rename_i x d' c rest' htake hdrop
    obtain ⟨hletter, he⟩ := Option.ite_some_none_eq_some.1 h
    obtain ⟨rfl, rfl⟩ := Prod.mk.inj he
    refine ⟨c, ?_, List.cons_ne_nil _ _, fun y hy => ?_, hletter⟩
    · rw [← htake, ← hdrop, List.takeWhile_append_dropWhile]
    · rw [← htake] at hy
      exact List.mem_takeWhile_imp hy
  · cases h

theorem field_present {u c : α} {d s : List α} (hne : d ≠ [])
    (hd : ∀ x ∈ d, A.isDigit x = true) (hc : A.isDigit c = false) (hletter : A.fold c = A.fold u) :
    field A u (d ++ c :: s) = some (d, s) := by
  obtain ⟨x, d', rfl⟩ := List.exists_cons_of_ne_nil hne
  unfold field
  rw [takeWhile_digits hd hc, dropWhile_digits hd hc]
  exact if_pos hletter

/-- What is left out is not there, for its letter is in no later field. -/
theorem field_absent {u : α} {as : List (Atom α)} {s : List α} {caps : List (List α)}
    (h : Matches A as s caps) (hwf : WellFormed A (.field u :: as)) {w : List α}
    (hw : ∀ x ∈ w, A.isSpace x = true) {t : List α} (hs : s = w ++ t) : field A u t = none := by
  rcases hf : field A u t with _ | ⟨d, rest⟩
  · rfl
  · obtain ⟨c, rfl, hne, hd, hletter⟩ := field_eq_some hf
    have hc := hwf.letter u List.mem_cons_self c hletter
    have hmem := h.letter hwf.tail hs hw hne hd hc
    rw [hletter] at hmem
    exact absurd hmem (List.nodup_cons.1 hwf.nodup).1

theorem matches_of_capture {as : List (Atom α)} {s : List α} {caps : List (List α)}
    (h : capture A as s = some caps) : Matches A as s caps := by
  induction as generalizing s caps with
  | nil =>
    rw [capture] at h
    obtain ⟨rfl, rfl⟩ := Option.ite_some_none_eq_some.1 h
    exact .nil
  | cons a as ih =>
    cases a with
    | blanks =>
      rw [capture] at h
      rw [← List.takeWhile_append_dropWhile (p := A.isSpace) (l := s)]
      exact .blanks (fun x hx => List.mem_takeWhile_imp hx) (ih h)
    | field u =>
      rw [capture] at h
      split at h
      · rename_i d rest hf
        obtain ⟨caps', hcaps, rfl⟩ := Option.map_eq_some_iff.1 h
        obtain ⟨c, rfl, hne, hd, hletter⟩ := field_eq_some hf
        exact .present hne hd hletter (ih hcaps)
      · obtain ⟨caps', hcaps, rfl⟩ := Option.map_eq_some_iff.1 h
        exact .absent u (ih hcaps)

/-- A matched string is captured, also when the space before it has been skipped. -/
theorem capture_of_matches {as : List (Atom α)} {s : List α} {caps : List (List α)}
    (h : Matches A as s caps) (hwf : WellFormed A as) :
    capture A as s = some caps ∧ capture A as (s.dropWhile A.isSpace) = some caps := by
  induction h with
  | nil => exact ⟨rfl, rfl⟩
  | @absent u as s caps h ih =>
    obtain ⟨ih₁, ih₂⟩ := ih hwf.tail
    have hskip : s = s.takeWhile A.isSpace ++ s.dropWhile A.isSpace :=
      List.takeWhile_append_dropWhile.symm
    constructor
    · rw [capture, field_absent h hwf (w := []) (by simp) rfl]
      simp [ih₁]
    · rw [capture, field_absent h hwf (fun x hx => List.mem_takeWhile_imp hx) hskip]
      simp [ih₂]
  | @present u c d as s caps hne hdigits hletter _ ih =>
    have hc := hwf.letter u List.mem_cons_self c hletter
    have hcap : capture A (.field u :: as) (d ++ c :: s) = some (d :: caps) := by
      rw [capture, field_present hne hdigits hc hletter]
      simp [(ih hwf.tail).1]
    refine ⟨hcap, ?_⟩
    obtain ⟨x, d', rfl⟩ := List.exists_cons_of_ne_nil hne
    have hx : A.isSpace x = false := by
      by_contra hx
      have hdigit := hwf.space x (by simpa using hx)
      rw [hdigits x List.mem_cons_self] at hdigit
      cases hdigit
    rw [List.cons_append, List.dropWhile_cons_of_neg (by simp [hx])]
    exact hcap
  | @blanks w as s caps hspace _ ih =>
    have hdrop : (w ++ s).dropWhile A.isSpace = s.dropWhile A.isSpace :=
      List.dropWhile_append_of_pos hspace
    rw [capture, capture, hdrop, List.dropWhile_idempotent]
    exact ⟨(ih hwf.tail).2, (ih hwf.tail).2⟩

/-- **`capture` reads the fields of a string that matches.** -/
theorem capture_eq_some {as : List (Atom α)} (hwf : WellFormed A as) {s : List α}
    {caps : List (List α)} : capture A as s = some caps ↔ Matches A as s caps :=
  ⟨matches_of_capture, fun h => (capture_of_matches h hwf).1⟩

end

end FieldPattern
