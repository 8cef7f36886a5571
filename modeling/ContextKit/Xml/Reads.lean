import ContextKit.Xml.Weight

/-!
# Runs of a reader

`Reads` says that reading a text from a state comes to another text and state; `PlainReads` that all
tokens on the way were plain.

* `parse_eq_some`: a document is parsed if reading it comes to its end, with the root element closed.
* `Reads.noGain`: if a handler gains no more than the tokens weigh, nothing weighs more after reading
  than before; and if nothing was lost, all tokens were plain.
* `reads_text`, `lexToken_start`, `lexToken_stop`, `lexToken_empty`: how what is plain is read.
-/

namespace Xml

variable {R : Reader} {σ : Type*} {handle : σ → Event → Option σ}

variable (R handle) in
inductive Reads : Text → ReaderState × σ → Text → ReaderState × σ → Prop
  | refl (cs : Text) (s : ReaderState × σ) : Reads cs s cs s
  | step {cs rest cs' : Text} {s t u : ReaderState × σ} {tok : Token}
      (hlex : lexToken R cs = some (tok, rest)) (hstep : handleToken R handle s tok = some t)
      (h : Reads rest t cs' u) : Reads cs s cs' u

theorem Reads.trans {cs cs' cs'' : Text} {s t u : ReaderState × σ} (h : Reads R handle cs s cs' t)
    (h' : Reads R handle cs' t cs'' u) : Reads R handle cs s cs'' u := by
  induction h with
  | refl cs s => exact h'
  | step hlex hstep _ ih => exact .step hlex hstep (ih h')

theorem Reads.single {cs rest : Text} {s t : ReaderState × σ} {tok : Token}
    (hlex : lexToken R cs = some (tok, rest)) (hstep : handleToken R handle s tok = some t) :
    Reads R handle cs s rest t := .step hlex hstep (.refl rest t)

/-- The fuel is enough. -/
theorem readFrom_eq_some {fuel : ℕ} {cs : Text} {s u : ReaderState × σ} (hfuel : cs.length ≤ fuel) :
    readFrom R handle fuel cs s = some u ↔ Reads R handle cs s [] u := by
  constructor
  · intro h
    induction fuel generalizing cs s with
    | zero =>
      obtain rfl := List.length_eq_zero_iff.1 (Nat.le_zero.1 hfuel)
      cases h
      exact .refl [] _
    | succ fuel ih =>
      cases cs with
      | nil =>
        cases h
        exact .refl [] _
      | cons c cs =>
        obtain ⟨⟨tok, rest⟩, hlex, h⟩ := Option.bind_eq_some_iff.1 h
        obtain ⟨t, hstep, h⟩ := Option.bind_eq_some_iff.1 h
        have hshorter := (readsLight_lexToken hlex).shorter
        exact .step hlex hstep (ih (by omega) h)
  · intro h
    obtain ⟨cs', hcs'⟩ : ∃ cs', cs' = ([] : Text) := ⟨_, rfl⟩
    rw [← hcs'] at h
    induction h generalizing fuel with
    | refl cs s =>
      subst hcs'
      cases fuel <;> rfl
    | @step cs rest _ s t u tok hlex hstep _ ih =>
      have hshorter := (readsLight_lexToken hlex).shorter
      cases cs with
      | nil => cases hlex
      | cons c cs =>
        cases fuel with
        | zero => simp at hfuel
        | succ fuel =>
          rw [readFrom, hlex, Option.bind_some, hstep, Option.bind_some]
          exact ih (by omega) hcs'

theorem parse_eq_some {init h : σ} {text : Text} :
    parse R handle init text = some h ↔
      ∃ r : ReaderState, Reads R handle (normalize text) (⟨[], false, []⟩, init) [] (r, h) ∧
        r.opened = [] ∧ r.rootSeen = true := by
  rw [parse, Option.bind_eq_some_iff]
  simp only [readFrom_eq_some le_rfl]
  constructor
  · rintro ⟨⟨r, h'⟩, hreads, hend⟩
    dsimp only at hend
    split_ifs at hend with hclosed
    cases hend
    exact ⟨r, hreads, hclosed⟩
  · rintro ⟨r, hreads, hclosed⟩
    exact ⟨(r, h), hreads, if_pos hclosed⟩

/-! ### Plain runs -/

variable (R handle) in
inductive PlainReads : Text → ReaderState × σ → Text → ReaderState × σ → Prop
  | refl (cs : Text) (s : ReaderState × σ) : PlainReads cs s cs s
  | step {cs rest cs' : Text} {s t u : ReaderState × σ} {tok : Token}
      (hlex : lexToken R cs = some (tok, rest)) (hplain : tok.Plain R)
      (hstep : handleToken R handle s tok = some t) (h : PlainReads rest t cs' u) :
      PlainReads cs s cs' u

/-- **Nothing is gained**, and if nothing is lost the run is plain. -/
theorem Reads.noGain {Inv : ReaderState × σ → Prop} {potential : ReaderState × σ → ℕ}
    (hstep : ∀ s tok t, Inv s → tok.LightNames → handleToken R handle s tok = some t →
      Inv t ∧ potential t ≤ potential s + tok.weight)
    {cs cs' : Text} {s u : ReaderState × σ} (h : Reads R handle cs s cs' u) (hs : Inv s) :
    potential u + textWeight cs' ≤ potential s + textWeight cs ∧
      (potential u + textWeight cs' = potential s + textWeight cs → PlainReads R handle cs s cs' u) := by
  induction h with
  | refl cs s => exact ⟨le_rfl, fun _ => .refl cs s⟩
  | step hlex htok _ ih =>
    have hlight := readsLight_lexToken hlex
    obtain ⟨ht, hpotential⟩ := hstep _ _ _ hs hlight.names htok
    obtain ⟨hrest, hplain⟩ := ih ht
    have hgain := hlight.noGain
    -- If nothing is lost altogether, nothing is lost by this token nor by the rest.
    refine ⟨by omega, fun heq => .step hlex (hlight.plain ?_) htok (hplain ?_)⟩
    · omega
    · omega

/-! ### Reading what is plain -/

/-- A character of a text that is no markup. -/
def PlainChar (R : Reader) (c : Char) : Prop := R.isChar c = true ∧ c ≠ '<' ∧ c ≠ '&'

/-- The text does not end a section of character data, whatever stands after it. -/
def NoEnd (u rest : Text) : Prop := ∀ v, v <:+ u → v ≠ [] → ¬ "]]>".toList <+: v ++ rest

theorem NoEnd.of_cons {c : Char} {u rest : Text} (h : NoEnd (c :: u) rest) : NoEnd u rest :=
  fun v hv => h v (hv.trans (List.suffix_cons c u))

theorem lexToken_char {c : Char} {rest : Text} (hc : PlainChar R c) (hend : NoEnd [c] rest) :
    lexToken R (c :: rest) = some (.char c, rest) := by
  obtain ⟨hchar, hlt, hamp⟩ := hc
  have hnot : ¬ "]]>".toList.isPrefixOf (c :: rest) = true := fun h =>
    hend [c] List.suffix_rfl (by simp) (List.isPrefixOf_iff_prefix.1 h)
  unfold lexToken
  dsimp only
  rw [if_neg hlt, if_neg hamp, if_neg hnot, if_pos hchar]

theorem takeName_append {name rest : Text} {d : Char} (h : IsName R name)
    (hd : R.nameChar d = false) : takeName R (name ++ d :: rest) = some (name, d :: rest) := by
  obtain ⟨c, cs, rfl, hc, hcs⟩ := h
  unfold takeName
  rw [List.cons_append]
  dsimp only
  rw [if_pos hc, List.takeWhile_append_of_pos hcs, List.dropWhile_append_of_pos hcs]
  simp [hd]

/-- A name does not begin like other markup. -/
theorem lexMarkup_name {name rest : Text} (h : IsName R name) :
    lexMarkup R (name ++ rest) = lexStart R (name ++ rest) := by
  obtain ⟨c, cs, rfl, hc, -⟩ := h
  have hne : ∀ d ∈ delimiters, c ≠ d := by
    rintro d hd rfl
    have hstart := R.nameChar_of_nameStart c hc
    rw [R.nameChar_delimiter c hd] at hstart
    cases hstart
  unfold lexMarkup
  rw [List.cons_append]
  dsimp only
  rw [if_neg (hne _ (by decide)), if_neg (hne _ (by decide)), if_neg (hne _ (by decide))]

theorem lexToken_start {name : Text} (rest : Text) (h : IsName R name) :
    lexToken R ('<' :: (name ++ '>' :: rest)) = some (.start name [] false, rest) := by
  show lexMarkup R _ = _
  rw [lexMarkup_name h, lexStart, takeName_append h (R.nameChar_delimiter _ (by decide))]
  rfl

theorem lexToken_empty {name : Text} (rest : Text) (h : IsName R name) :
    lexToken R ('<' :: (name ++ '/' :: '>' :: rest)) = some (.start name [] true, rest) := by
  show lexMarkup R _ = _
  rw [lexMarkup_name h, lexStart, takeName_append h (R.nameChar_delimiter _ (by decide))]
  rfl

theorem lexToken_stop {name : Text} (rest : Text) (h : IsName R name) :
    lexToken R ('<' :: '/' :: (name ++ '>' :: rest)) = some (.stop name, rest) := by
  show lexStop R _ = _
  rw [lexStop, takeName_append h (R.nameChar_delimiter _ (by decide))]
  rfl

/-- Plain text inside of an element is collected. -/
theorem reads_text {u rest : Text} {r : ReaderState} {h : σ} (hopened : r.opened ≠ [])
    (hplain : ∀ c ∈ u, PlainChar R c) (hend : NoEnd u rest) :
    Reads R handle (u ++ rest) (r, h) rest ({ r with run := r.run ++ u }, h) := by
  induction u generalizing r with
  | nil =>
    rw [List.append_nil]
    exact .refl rest _
  | cons c u ih =>
    obtain ⟨hc, hu⟩ := List.forall_mem_cons.1 hplain
    have hlex : lexToken R (c :: (u ++ rest)) = some (.char c, u ++ rest) := by
      apply lexToken_char hc
      intro v hv hne
      obtain rfl : v = [c] := (List.suffix_cons_iff.1 hv).resolve_right fun h =>
        hne (List.suffix_nil.1 h)
      exact hend (c :: u) List.suffix_rfl (by simp)
    have hstep : handleToken R handle (r, h) (.char c) =
        some ({ r with run := r.run ++ [c] }, h) := by
      simp [handleToken, events, hopened]
    have hrest := ih (r := { r with run := r.run ++ [c] }) hopened hu hend.of_cons
    rw [List.append_assoc] at hrest
    exact .step hlex hstep hrest

end Xml
