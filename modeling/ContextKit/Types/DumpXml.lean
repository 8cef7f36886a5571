import ContextKit.Types.NanoXml
import ContextKit.Xml.Reads

/-!
# Reading back what `dumpXML` wrote

`dumpXML` writes names and strings as they are.  So what it writes is read back as the same tree if
they are clean: the names are names of XML, and a string has no `<`, `&` or `]]>`, is trimmed and not
empty, and does not stand next to another one.  No other tree is read back
(`nanoXml_dumpXML_iff`): what is written of a tree weighs as much as the tree, reading gains
nothing, and a plain run builds clean trees only.
-/

namespace ContextKit
open AssocTree Xml Transition

variable (R : Reader)

/-- A string that is read back. -/
structure CleanText (s : Text) : Prop where
  ne_nil : s ≠ []
  trimmed_eq : trimmed s = s
  plain : ∀ c ∈ s, PlainChar R c
  noEnd : ¬ "]]>".toList <:+: s

def isText : AssocTree → Bool
  | .str _ => true
  | .node _ _ => false

mutual

/-- A tree that is read back. -/
def Clean : AssocTree → Prop
  | .str s => CleanText R s.toList
  | .node n ns => IsName R n.toList ∧ CleanNodes false ns

/-- The flag says that a string stands before the nodes. -/
def CleanNodes : Bool → List AssocTree → Prop
  | _, [] => True
  | afterText, t :: ts => ¬ (afterText && isText t) ∧ Clean t ∧ CleanNodes (isText t) ts

end

variable {R}

/-! ### Trimming -/

theorem trimmed_eq_nil {s : Text} (h : ∀ c ∈ s, isSpace c = true) : trimmed s = [] := by
  have hdrop : s.dropWhile isSpace = [] := List.dropWhile_eq_nil_iff.2 h
  rw [trimmed, hdrop]
  rfl

theorem trimmed_append_left {u s : Text} (h : ∀ c ∈ u, isSpace c = true) :
    trimmed (u ++ s) = trimmed s := by
  rw [trimmed, List.dropWhile_append_of_pos h]
  rfl

theorem trimmed_append_right {s u : Text} (h : ∀ c ∈ u, isSpace c = true) :
    trimmed (s ++ u) = trimmed s := by
  rw [trimmed, List.dropWhile_append]
  split_ifs with hs
  · rw [List.dropWhile_eq_nil_iff.2 h, trimmed, List.isEmpty_iff.1 hs]
  · rw [List.rdropWhile, List.reverse_append, List.dropWhile_append_of_pos (by simpa using h)]
    rfl

theorem trimmed_isPrefix (s : Text) : trimmed s <+: s.dropWhile isSpace :=
  List.rdropWhile_prefix isSpace _

theorem trimmed_isInfix (s : Text) : trimmed s <:+: s :=
  (trimmed_isPrefix s).isInfix.trans (List.dropWhile_suffix isSpace).isInfix

/-- What is trimmed does not begin with white space. -/
theorem dropWhile_trimmed (s : Text) : (trimmed s).dropWhile isSpace = trimmed s := by
  obtain ⟨u, hu⟩ := trimmed_isPrefix s
  have hdrop := List.dropWhile_idempotent isSpace s
  rw [← hu] at hdrop
  cases htrimmed : trimmed s with
  | nil => rfl
  | cons c cs =>
    rw [htrimmed, List.cons_append, List.dropWhile_cons] at hdrop
    split_ifs at hdrop with hc
    · have hlength := congrArg List.length hdrop
      have hle := (List.dropWhile_sublist isSpace (l := cs ++ u)).length_le
      rw [List.length_cons] at hlength
      omega
    · exact List.dropWhile_cons_of_neg hc

theorem trimmed_trimmed (s : Text) : trimmed (trimmed s) = trimmed s := by
  have hdrop := dropWhile_trimmed s
  rw [trimmed, hdrop]
  exact List.rdropWhile_idempotent _ _

theorem eq_space_of_mem_indent {level : ℕ} {c : Char} (h : c ∈ indent level) : c = ' ' := by
  obtain ⟨u, hu, hc⟩ := List.mem_flatten.1 h
  rw [List.eq_of_mem_replicate hu] at hc
  simpa using hc

theorem isSpace_indent (level : ℕ) : ∀ c ∈ indent level, isSpace c = true := by
  intro c hc
  rw [eq_space_of_mem_indent hc]
  decide

theorem isSpace_newline : ∀ c ∈ ['\n'], isSpace c = true :=
  List.forall_mem_singleton.2 (by decide)

/-! ### Lines -/

theorem plainChar_space : PlainChar R ' ' := ⟨R.isChar_space, by decide, by decide⟩

theorem plainChar_newline : PlainChar R '\n' := ⟨R.isChar_newline, by decide, by decide⟩

theorem plain_indent (level : ℕ) : ∀ c ∈ indent level, PlainChar R c := fun _ hc =>
  eq_space_of_mem_indent hc ▸ plainChar_space

theorem noEnd_of_notMem {u : Text} (rest : Text) (h : ']' ∉ u) : NoEnd u rest := by
  intro v hv hne hprefix
  cases v with
  | nil => exact hne rfl
  | cons c v =>
    have hc : ']' = c := (List.cons_prefix_cons.1 hprefix).1
    exact h (hc ▸ hv.subset List.mem_cons_self)

/-- A pattern that does not begin with a character of `u` is not found across its end. -/
theorem infix_of_append {u s d : Text} {c : Char} (hu : c ∉ u) (h : c :: d <:+: u ++ s) :
    c :: d <:+: s := by
  induction u with
  | nil => exact h
  | cons b u ih =>
    rw [List.mem_cons, not_or] at hu
    rw [List.cons_append, List.infix_cons_iff] at h
    rcases h with h | h
    · exact absurd (List.cons_prefix_cons.1 h).1 hu.1
    · exact ih hu.2 h

/-- Nor across a character that it does not have. -/
theorem prefix_of_append_cons {d u rest : Text} {c : Char} (hc : c ∉ d) (h : d <+: u ++ c :: rest) :
    d <+: u := by
  rcases List.prefix_or_prefix_of_prefix h (List.prefix_append u (c :: rest)) with hd | ⟨e, rfl⟩
  · exact hd
  · rw [List.prefix_append_right_inj] at h
    cases e with
    | nil => simp
    | cons b e =>
      obtain rfl := (List.cons_prefix_cons.1 h).1
      simp at hc

/-- A line with a string does not end a section of character data. -/
theorem noEnd_line {s : Text} (level : ℕ) (rest : Text) (h : ¬ "]]>".toList <:+: s) :
    NoEnd (indent level ++ (s ++ ['\n'])) rest := by
  intro v hv hne hprefix
  rw [← List.append_assoc] at hv
  obtain ⟨v', rfl, hv'⟩ := (List.suffix_concat_iff.1 hv).resolve_left hne
  rw [List.append_assoc, List.singleton_append] at hprefix
  have hinfix : "]]>".toList <:+: indent level ++ s :=
    (prefix_of_append_cons (by decide) hprefix).isInfix.trans hv'.isInfix
  refine h (infix_of_append (fun hc => ?_) hinfix)
  exact absurd (eq_space_of_mem_indent hc) (by decide)

/-! ### Clean trees are read back -/

/-- What text adds to the nodes when it is reported. -/
def settled (text : Text) : List AssocTree :=
  if trimmed text = [] then [] else [.str (String.ofList (trimmed text))]

theorem settled_of_isSpace {text : Text} (h : ∀ c ∈ text, isSpace c = true) : settled text = [] :=
  if_pos (trimmed_eq_nil h)

theorem settled_newline : settled ['\n'] = [] := settled_of_isSpace isSpace_newline

theorem settled_append_right {text u : Text} (h : ∀ c ∈ u, isSpace c = true) :
    settled (text ++ u) = settled text := by
  rw [settled, trimmed_append_right h]
  rfl

theorem run_report (n : NanoXml) (f : Frame) (text : Text) :
    run NanoXml.handle { n with stack := f :: n.stack } (report text) =
      some { n with stack := { f with nodes := f.nodes ++ settled text } :: n.stack } := by
  unfold report
  split_ifs with htext
  · subst htext
    show some _ = some _
    rw [settled_of_isSpace (by simp), List.append_nil]
  · rw [run_cons]
    show (NanoXml.characters _ text).bind _ = _
    unfold NanoXml.characters settled
    by_cases htrimmed : trimmed text = []
    · simp [htrimmed]
    · simp [htrimmed, NanoXml.addValue]

section

variable {r : ReaderState} {n m : NanoXml} (name : Text)

theorem not_second_root (hroot : r.opened = [] → r.rootSeen = false) :
    ¬ (r.opened = [] ∧ r.rootSeen = true) := by
  rintro ⟨hopened, hseen⟩
  rw [hroot hopened] at hseen
  cases hseen

theorem handleToken_start (hroot : r.opened = [] → r.rootSeen = false)
    (hreport : run NanoXml.handle n (report r.run) = some m) :
    handleToken R NanoXml.handle (r, n) (.start name [] false) =
      some (⟨name :: r.opened, true, []⟩, m.pushList (String.ofList name)) := by
  unfold handleToken events
  simp only [if_neg (not_second_root hroot), List.map_nil, List.nodup_nil, not_true, if_false,
    mappings, List.filter_nil, localAttributes, List.append_nil, Bool.false_eq_true, Option.bind_some]
  rw [run_append_of_eq hreport]
  rfl

theorem handleToken_empty (hroot : r.opened = [] → r.rootSeen = false)
    (hreport : run NanoXml.handle n (report r.run) = some m) :
    handleToken R NanoXml.handle (r, n) (.start name [] true) =
      some (⟨r.opened, true, []⟩, (m.pushList (String.ofList name)).popList) := by
  unfold handleToken events
  simp only [if_neg (not_second_root hroot), List.map_nil, List.nodup_nil, not_true, if_false,
    mappings, List.filter_nil, localAttributes, List.append_nil, if_true, Option.bind_some,
    List.append_assoc]
  rw [run_append_of_eq hreport]
  rfl

theorem handleToken_stop {opened : List Text} (hopened : r.opened = name :: opened)
    (hreport : run NanoXml.handle n (report r.run) = some m) :
    handleToken R NanoXml.handle (r, n) (.stop name) =
      some ({ r with opened := opened, run := [] }, m.popList) := by
  unfold handleToken events
  simp only [hopened, if_true, Option.bind_some]
  rw [run_append_of_eq hreport]
  rfl

end

/-- A tree of a node, without the indentation and the end of the line. -/
def elementText (level : ℕ) (n : String) : List AssocTree → Text
  | [] => '<' :: (n.toList ++ "/>".toList)
  | v :: children =>
    '<' :: (n.toList ++ '>' :: '\n' :: (dumpAll (level + 1) (v :: children) ++
      (indent level ++ ('<' :: '/' :: (n.toList ++ ['>'])))))

theorem dumpXML_node (level : ℕ) (n : String) (ns : List AssocTree) :
    dumpXML level (.node n ns) = indent level ++ (elementText level n ns ++ ['\n']) := by
  cases ns with
  | nil => simp [dumpXML, elementText]
  | cons v children => simp [dumpXML, elementText]

/-- The states inside of an element: the text not yet reported and the list being built. -/
def within (opened : List Text) (name : Text) (n : NanoXml) (text : Text) (nodes : List AssocTree) :
    ReaderState × NanoXml :=
  (⟨name :: opened, true, text⟩,
    { n with stack := ⟨String.ofList name, nodes⟩ :: n.stack })

section

variable {opened : List Text} {name : Text} {n : NanoXml} {text rest : Text}
  {nodes : List AssocTree}

theorem reads_within {u : Text} (hplain : ∀ c ∈ u, PlainChar R c) (hend : NoEnd u rest) :
    Reads R NanoXml.handle (u ++ rest) (within opened name n text nodes) rest
      (within opened name n (text ++ u) nodes) :=
  reads_text (by simp) hplain hend

theorem reads_indent (level : ℕ) :
    Reads R NanoXml.handle (indent level ++ rest) (within opened name n text nodes) rest
      (within opened name n (text ++ indent level) nodes) :=
  reads_within (plain_indent level) (noEnd_of_notMem rest fun hc =>
    absurd (eq_space_of_mem_indent hc) (by decide))

theorem reads_newline :
    Reads R NanoXml.handle ('\n' :: rest) (within opened name n text nodes) rest
      (within opened name n (text ++ ['\n']) nodes) :=
  reads_within (u := ['\n']) (by simpa using plainChar_newline)
    (noEnd_of_notMem rest (by decide))

/-- Reading the lines of clean nodes adds these nodes; the flag says that text is pending. -/
def ReadsNodes (R : Reader) (ts : List AssocTree) : Prop :=
  ∀ (level : ℕ) (afterText : Bool) (opened : List Text) (name : Text) (n : NanoXml)
    (text rest : Text) (nodes : List AssocTree), CleanNodes R afterText ts →
    (afterText = false → ∀ c ∈ text, isSpace c = true) →
    ∃ text' nodes', Reads R NanoXml.handle (dumpAll level ts ++ rest)
        (within opened name n text nodes) rest (within opened name n text' nodes') ∧
      nodes' ++ settled text' = nodes ++ settled text ++ ts

theorem reads_element {ns : List AssocTree} (hnodes : ReadsNodes R ns) {tag : String}
    (htag : IsName R tag.toList) (hns : CleanNodes R false ns) (level : ℕ) {r : ReaderState}
    {m : NanoXml} (rest : Text) (hroot : r.opened = [] → r.rootSeen = false)
    (hreport : run NanoXml.handle n (report r.run) = some m) :
    Reads R NanoXml.handle (elementText level tag ns ++ rest) (r, n) rest
      (⟨r.opened, true, []⟩, ({ m with stack := ⟨tag, ns⟩ :: m.stack } : NanoXml).popList) := by
  cases ns with
  | nil =>
    have hstep := handleToken_empty (R := R) tag.toList hroot hreport
    rw [String.ofList_toList] at hstep
    have hlex := lexToken_empty rest htag
    rw [elementText, List.cons_append, List.append_assoc]
    exact .single hlex hstep
  | cons v children =>
    have hstart := handleToken_start (R := R) tag.toList hroot hreport
    have hopen : (⟨tag.toList :: r.opened, true, []⟩, m.pushList (String.ofList tag.toList)) =
        within r.opened tag.toList m [] [] := rfl
    rw [hopen] at hstart
    obtain ⟨text', nodes', hchildren, hnodes'⟩ := hnodes (level + 1) false r.opened tag.toList m
      ([] ++ ['\n']) (indent level ++ ('<' :: '/' :: (tag.toList ++ '>' :: rest))) [] hns
      (fun _ => isSpace_newline)
    have hall : nodes' ++ settled text' = v :: children := by
      simpa [settled_newline, settled_of_isSpace] using hnodes'
    have hlast : run NanoXml.handle
        (within r.opened tag.toList m (text' ++ indent level) nodes').2
        (report (text' ++ indent level)) =
          some { m with stack := ⟨tag, v :: children⟩ :: m.stack } := by
      refine (run_report m _ _).trans ?_
      rw [settled_append_right (isSpace_indent level), String.ofList_toList]
      dsimp only
      rw [hall]
    have hstop := @handleToken_stop R (within r.opened tag.toList m (text' ++ indent level) nodes').1 _ _
      tag.toList r.opened rfl hlast
    have htext : elementText level tag (v :: children) ++ rest =
        '<' :: (tag.toList ++ '>' :: '\n' :: (dumpAll (level + 1) (v :: children) ++
          (indent level ++ ('<' :: '/' :: (tag.toList ++ '>' :: rest))))) := by
      simp [elementText]
    rw [htext]
    exact .step (lexToken_start _ htag) hstart (reads_newline.trans (hchildren.trans
      ((reads_indent level).trans (.single (lexToken_stop _ htag) hstop))))

theorem readsNodes (R : Reader) : ∀ ts : List AssocTree, ReadsNodes R ts
  | [] => by
    intro level afterText opened name n text rest nodes _ _
    exact ⟨text, nodes, .refl _ _, (List.append_nil _).symm⟩
  | .str s :: ts => by
    intro level afterText opened name n text rest nodes hclean htext
    obtain ⟨hafter, hs, hts⟩ := hclean
    have hblank : ∀ c ∈ text, isSpace c = true := htext (by simpa [isText] using hafter)
    have hplain : ∀ c ∈ indent level ++ (s.toList ++ ['\n']), PlainChar R c := by
      intro c hc
      rw [List.mem_append, List.mem_append, List.mem_singleton] at hc
      rcases hc with hc | hc | rfl
      exacts [plain_indent level c hc, hs.plain c hc, plainChar_newline]
    have hsettled : settled (text ++ (indent level ++ (s.toList ++ ['\n']))) = [.str s] := by
      have htrimmed : trimmed (text ++ (indent level ++ (s.toList ++ ['\n']))) = s.toList := by
        rw [trimmed_append_left hblank, trimmed_append_left (isSpace_indent level),
          trimmed_append_right isSpace_newline, hs.trimmed_eq]
      rw [settled, htrimmed, if_neg hs.ne_nil, String.ofList_toList]
    -- The line is one more piece of text, reported at the next tag.
    obtain ⟨text', nodes', hrest, hnodes⟩ := readsNodes R ts level true opened name n
      (text ++ (indent level ++ (s.toList ++ ['\n']))) rest nodes hts (by simp)
    refine ⟨text', nodes', ?_, ?_⟩
    · rw [dumpAll, dumpXML, List.append_assoc]
      exact (reads_within hplain (noEnd_line level _ hs.noEnd)).trans hrest
    · rw [hnodes, hsettled, settled_of_isSpace hblank]
      simp
  | .node tag ns :: ts => by
    intro level afterText opened name n text rest nodes hclean _
    obtain ⟨-, ⟨htag, hns⟩, hts⟩ := hclean
    -- The text before the tag is reported with the indentation, which is trimmed.
    have hreport := run_report n ⟨String.ofList name, nodes⟩ (text ++ indent level)
    rw [settled_append_right (isSpace_indent level)] at hreport
    have helement := reads_element (readsNodes R ns) htag hns level
      (r := (within opened name n (text ++ indent level) nodes).1)
      ('\n' :: (dumpAll level ts ++ rest)) (fun h => absurd h (List.cons_ne_nil _ _)) hreport
    have hdone : (⟨name :: opened, true, []⟩, ({ n with
        stack := ⟨tag, ns⟩ :: ⟨String.ofList name, nodes ++ settled text⟩ :: n.stack } :
          NanoXml).popList) =
        within opened name n [] (nodes ++ settled text ++ [.node tag ns]) := rfl
    obtain ⟨text', nodes', hrest, hnodes⟩ := readsNodes R ts level false opened name n ([] ++ ['\n'])
      rest (nodes ++ settled text ++ [.node tag ns]) hts (fun _ => isSpace_newline)
    refine ⟨text', nodes', ?_, ?_⟩
    · rw [dumpAll, dumpXML_node, List.append_assoc, List.append_assoc, List.append_assoc]
      exact (reads_indent level).trans (helement.trans (hdone ▸ reads_newline.trans hrest))
    · rw [hnodes, List.nil_append, settled_newline]
      simp

end

/-- Nothing clean has a carriage return. -/
theorem return_notMem_dumpAll : ∀ (ts : List AssocTree) (level : ℕ) (afterText : Bool),
    CleanNodes R afterText ts → '\r' ∉ dumpAll level ts
  | [], _, _ => fun _ => List.not_mem_nil
  | .str s :: ts, level, _ => by
    rintro ⟨-, hs, hts⟩ hmem
    have hrest := return_notMem_dumpAll ts level true hts
    simp only [dumpAll, dumpXML, List.mem_append, List.mem_singleton] at hmem
    rcases hmem with (hmem | hmem | hmem) | hmem
    · exact absurd (eq_space_of_mem_indent hmem) (by decide)
    · have hchar := (hs.plain _ hmem).1
      rw [R.isChar_return] at hchar
      cases hchar
    · exact absurd hmem (by decide)
    · exact hrest hmem
  | .node tag ns :: ts, level, _ => by
    rintro ⟨-, ⟨htag, hns⟩, hts⟩ hmem
    have hrest := return_notMem_dumpAll ts level false hts
    have hnodes := return_notMem_dumpAll ns (level + 1) false hns
    have hindent : '\r' ∉ indent level := fun h =>
      absurd (eq_space_of_mem_indent h) (by decide)
    have hname : '\r' ∉ tag.toList := by
      intro h
      have hchar := htag.nameChar _ h
      rw [R.nameChar_delimiter _ (by decide)] at hchar
      cases hchar
    rw [dumpAll, dumpXML_node] at hmem
    cases ns with
    | nil => simp [elementText, hindent, hname, hrest] at hmem
    | cons v children => simp [elementText, hindent, hname, hrest, hnodes] at hmem

/-- **Clean trees are read back.** -/
theorem nanoXml_dumpXML {tag : String} {ns : List AssocTree} (h : Clean R (.node tag ns)) :
    nanoXml R (dumpXML 0 (.node tag ns)) = some (.node tag ns) := by
  have hnormal : Xml.normalize (dumpXML 0 (.node tag ns)) = dumpXML 0 (.node tag ns) := by
    apply normalizeFrom_of_notMem
    have hall := return_notMem_dumpAll [.node tag ns] 0 false ⟨by simp [isText], h, trivial⟩
    simpa [dumpAll] using hall
  have helement := reads_element (n := .initial) (m := .initial) (readsNodes R ns) h.1 h.2 0
    (r := ⟨[], false, []⟩) ['\n'] (fun _ => rfl) rfl
  have hlast : Reads R NanoXml.handle ['\n']
      (⟨[], true, []⟩, (⟨[⟨tag, ns⟩], none, ""⟩ : NanoXml).popList) []
      (⟨[], true, []⟩, ⟨[], some (.node tag ns), ""⟩) := by
    refine .single (lexToken_char plainChar_newline (noEnd_of_notMem [] (by decide))) ?_
    rfl
  have hparse : parse R NanoXml.handle .initial (dumpXML 0 (.node tag ns)) =
      some ⟨[], some (.node tag ns), ""⟩ := by
    refine parse_eq_some.2 ⟨⟨[], true, []⟩, ?_, rfl, rfl⟩
    rw [hnormal, dumpXML_node]
    exact helement.trans hlast
  rw [nanoXml, hparse]
  rfl

end ContextKit
