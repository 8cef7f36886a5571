import ContextKit.Types.NanoDom

/-!
# Reading back XML that was written by hand

A program that writes XML piece by piece puts attributes in quotes, breaks lines between the
elements, and leaves it to `dumpXML` to write trees.  `Adds` says what a piece between two tags adds
to the list being built, and `Holds` what stands in an element up to its end tag, where text may
still be pending.  `adds_element` makes an element of what it holds.
-/

namespace Xml

/-- Attributes, each with a space before it and its value in quotes. -/
def attributesText (attributes : List (Text × Text)) : Text :=
  attributes.flatMap fun a => ' ' :: (a.1 ++ '=' :: quot :: (a.2 ++ [quot]))

/-- A character that an attribute in quotes may have as it is. -/
def ValueChar (c : Char) : Prop := c ≠ '<' ∧ c ≠ '&' ∧ c ≠ quot ∧ spaced c = c

instance (c : Char) : Decidable (ValueChar c) := inferInstanceAs (Decidable (_ ∧ _))

theorem valueChar_of_all {text : Text} (h : text.all (fun c => decide (ValueChar c)) = true) :
    ∀ c ∈ text, ValueChar c :=
  fun c hc => of_decide_eq_true (List.all_eq_true.1 h c hc)

/-- An attribute that is read as it was written. -/
structure WrittenAttribute (R : Reader) (a : Text × Text) : Prop where
  isName : IsName R a.1
  value : ∀ c ∈ a.2, ValueChar c

variable {R : Reader}

theorem decodeValue_written {v : Text} (h : ∀ c ∈ v, ValueChar c) :
    decodeValue R none v = some v := by
  induction v with
  | nil => rfl
  | cons c v ih =>
    obtain ⟨⟨hlt, hamp, -, hspaced⟩, hv⟩ := List.forall_mem_cons.1 h
    rw [decodeValue, if_neg hlt, if_neg hamp, ih hv, hspaced]
    rfl

theorem quoted_written {v : Text} (rest : Text) (h : ∀ c ∈ v, ValueChar c) :
    quoted (quot :: (v ++ quot :: rest)) = some (v, rest) := by
  have hv : ∀ c ∈ v, decide (c ≠ quot) = true := fun c hc => decide_eq_true (h c hc).2.2.1
  unfold quoted
  dsimp only
  rw [if_pos (Or.inl rfl), List.takeWhile_append_of_pos hv, List.dropWhile_append_of_pos hv]
  simp [eat]

theorem lexAttribute_written {a : Text × Text} (rest : Text) (h : WrittenAttribute R a) :
    lexAttribute R (a.1 ++ '=' :: quot :: (a.2 ++ quot :: rest)) = some (a, rest) := by
  have hskip (c : Char) (cs : Text) (hc : isBlank c = false) : skip (c :: cs) = c :: cs := by
    simp [skip, hc]
  unfold lexAttribute
  rw [takeName_append h.isName (R.nameChar_delimiter _ (by decide)), Option.bind_some]
  dsimp only
  rw [hskip '=' _ (by decide), eat, if_pos rfl, Option.bind_some, hskip quot _ (by decide),
    quoted_written rest h.value, Option.bind_some, decodeValue_written h.value]
  rfl

/-- What comes after the name of a tag does not belong to it. -/
theorem exists_delimiter (attributes : List (Text × Text)) (rest : Text) :
    ∃ d cs, d ∈ delimiters ∧ attributesText attributes ++ '>' :: rest = d :: cs := by
  cases attributes with
  | nil => exact ⟨'>', rest, by decide, rfl⟩
  | cons a attributes => exact ⟨' ', _, by decide, rfl⟩

theorem lexAttributes_written {attributes : List (Text × Text)} (rest : Text)
    (h : ∀ a ∈ attributes, WrittenAttribute R a) {fuel : ℕ} (hfuel : attributes.length < fuel) :
    lexAttributes R fuel (attributesText attributes ++ '>' :: rest) =
      some ((attributes, false), rest) := by
  induction attributes generalizing fuel with
  | nil =>
    obtain ⟨n, rfl⟩ := Nat.exists_eq_succ_of_ne_zero hfuel.ne'
    rfl
  | cons a attributes ih =>
    obtain ⟨n, rfl⟩ := Nat.exists_eq_succ_of_ne_zero (Nat.ne_of_gt (Nat.zero_lt_of_lt hfuel))
    obtain ⟨ha, hattributes⟩ := List.forall_mem_cons.1 h
    obtain ⟨c, cs, hname, hstart, -⟩ := ha.isName
    have hne : ∀ d ∈ delimiters, c ≠ d := by
      rintro d hd rfl
      have hchar := R.nameChar_of_nameStart c hstart
      rw [R.nameChar_delimiter c hd] at hchar
      cases hchar
    have hblank : c ≠ ' ' ∧ c ≠ '\t' ∧ c ≠ '\n' ∧ c ≠ '\r' :=
      ⟨hne _ (by decide), hne _ (by decide), hne _ (by decide), hne _ (by decide)⟩
    have htext : attributesText (a :: attributes) ++ '>' :: rest =
        ' ' :: (a.1 ++ '=' :: quot :: (a.2 ++ quot ::
          (attributesText attributes ++ '>' :: rest))) := by
      simp [attributesText]
    have hskip : skip (' ' :: (a.1 ++ '=' :: quot :: (a.2 ++ quot ::
          (attributesText attributes ++ '>' :: rest)))) =
        a.1 ++ '=' :: quot :: (a.2 ++ quot :: (attributesText attributes ++ '>' :: rest)) := by
      rw [hname]
      simp [skip, isBlank, hblank]
    have hread := lexAttribute_written (attributesText attributes ++ '>' :: rest) ha
    rw [htext, lexAttributes, hskip]
    rw [hname, List.cons_append] at hread ⊢
    dsimp only
    rw [if_neg (hne _ (by decide)), if_neg (hne _ (by decide)), if_pos (by rfl), hread,
      Option.bind_some, ih hattributes (Nat.lt_of_succ_lt_succ hfuel)]
    rfl

theorem length_le_attributesText (attributes : List (Text × Text)) :
    attributes.length ≤ (attributesText attributes).length := by
  induction attributes with
  | nil => exact le_rfl
  | cons a attributes ih =>
    rw [attributesText, List.flatMap_cons, List.length_append, List.length_cons, List.length_cons]
    unfold attributesText at ih
    omega

/-- A start tag with attributes. -/
theorem lexToken_written {name : Text} {attributes : List (Text × Text)} (rest : Text)
    (hname : IsName R name) (h : ∀ a ∈ attributes, WrittenAttribute R a) :
    lexToken R ('<' :: (name ++ (attributesText attributes ++ '>' :: rest))) =
      some (.start name attributes false, rest) := by
  obtain ⟨d, cs, hd, heq⟩ := exists_delimiter attributes rest
  have hfuel : attributes.length < (d :: cs).length + 1 := by
    rw [← heq, List.length_append]
    have hle := length_le_attributesText attributes
    omega
  have hread := lexAttributes_written rest h hfuel
  rw [heq] at hread
  show lexMarkup R _ = _
  rw [lexMarkup_name hname, lexStart, heq, takeName_append hname (R.nameChar_delimiter d hd),
    Option.bind_some, hread]
  rfl

end Xml

namespace ContextKit
open AssocTree Xml Transition

variable {R : Reader}

/-! ### Start tags with attributes -/

/-- Attributes that are written, and reported under the names they have. -/
structure Written (R : Reader) (attributes : List (Text × Text)) : Prop where
  written : ∀ a ∈ attributes, WrittenAttribute R a
  nodup : (attributes.map Prod.fst).Nodup
  noPrefix : ∀ a ∈ attributes, isMapping a.1 = false ∧ ':' ∉ a.1

theorem mappings_written {attributes : List (Text × Text)} (h : Written R attributes) :
    mappings attributes = [] := by
  rw [mappings, List.filter_eq_nil_iff.2 fun a ha => by simp [(h.noPrefix a ha).1]]
  rfl

theorem localAttributes_written {attributes : List (Text × Text)} (h : Written R attributes) :
    localAttributes attributes = attributes := by
  rw [localAttributes, List.filter_eq_self.2 fun a ha => by simp [(h.noPrefix a ha).1]]
  refine (List.map_congr_left fun a ha => ?_).trans (List.map_id _)
  simp [localName, (h.noPrefix a ha).2]

theorem startElement_eq (n : NanoXml) (name : Text) (attributes : List (Text × Text)) :
    n.startElement name attributes =
      some { n with
        stack := ⟨String.ofList name, attributes.map attributeTree⟩ :: n.stack } :=
  foldlM_addAttribute n ⟨String.ofList name, []⟩ n.stack attributes

/-- A start tag is reported, and the text before it. -/
theorem handleToken_written {r : ReaderState} {n m : NanoXml} (name : Text)
    {attributes : List (Text × Text)} (hroot : r.opened = [] → r.rootSeen = false)
    (h : Written R attributes) (hreport : run NanoXml.handle n (report r.run) = some m) :
    handleToken R NanoXml.handle (r, n) (.start name attributes false) =
      some (⟨name :: r.opened, true, []⟩, { m with
        stack := ⟨String.ofList name, attributes.map attributeTree⟩ :: m.stack }) := by
  have hstart : run NanoXml.handle m [.startElement name attributes] =
      some { m with
        stack := ⟨String.ofList name, attributes.map attributeTree⟩ :: m.stack } := by
    rw [run_cons]
    show (m.startElement name attributes).bind _ = _
    rw [startElement_eq]
    rfl
  unfold handleToken events
  simp only [if_neg (not_second_root hroot), h.nodup, not_true, if_false, mappings_written h,
    localAttributes_written h, List.append_nil, Bool.false_eq_true, Option.bind_some]
  rw [run_append_of_eq hreport, hstart]
  rfl

/-! ### Pieces of a document -/

/-- White space. -/
def Blank (text : Text) : Prop := ∀ c ∈ text, isSpace c = true

/-- What is written adds the nodes, and then only white space is pending. -/
def Adds (R : Reader) (u : Text) (ts : List AssocTree) : Prop :=
  ∀ (opened : List Text) (name : Text) (n : NanoXml) (text rest : Text) (nodes : List AssocTree),
    Blank text → ∃ text', Blank text' ∧ Reads R NanoXml.handle (u ++ rest)
      (within opened name n text nodes) rest (within opened name n text' (nodes ++ ts))

/-- What is written adds the nodes once the text that is pending then has been reported. -/
def Holds (R : Reader) (u : Text) (ts : List AssocTree) : Prop :=
  ∀ (opened : List Text) (name : Text) (n : NanoXml) (text rest : Text) (nodes : List AssocTree),
    Blank text → ∃ text' nodes', Reads R NanoXml.handle (u ++ rest)
      (within opened name n text nodes) rest (within opened name n text' nodes') ∧
      nodes' ++ settled text' = nodes ++ ts

variable {u v : Text} {ts us : List AssocTree}

theorem adds_nil : Adds R [] [] := fun _ _ _ text _ nodes htext =>
  ⟨text, htext, by rw [List.append_nil]; exact .refl _ _⟩

theorem Adds.append (h : Adds R u ts) (h' : Adds R v us) : Adds R (u ++ v) (ts ++ us) := by
  intro opened name n text rest nodes htext
  obtain ⟨text', htext', hu⟩ := h opened name n text (v ++ rest) nodes htext
  obtain ⟨text'', htext'', hv⟩ := h' opened name n text' rest (nodes ++ ts) htext'
  rw [List.append_assoc] at hv ⊢
  exact ⟨text'', htext'', hu.trans hv⟩

theorem Adds.holds (h : Adds R u ts) : Holds R u ts := by
  intro opened name n text rest nodes htext
  obtain ⟨text', htext', hu⟩ := h opened name n text rest nodes htext
  exact ⟨text', _, hu, by rw [settled_of_isSpace htext', List.append_nil]⟩

theorem Adds.append_holds (h : Adds R u ts) (h' : Holds R v us) : Holds R (u ++ v) (ts ++ us) := by
  intro opened name n text rest nodes htext
  obtain ⟨text', htext', hu⟩ := h opened name n text (v ++ rest) nodes htext
  obtain ⟨text'', nodes'', hv, hnodes⟩ := h' opened name n text' rest (nodes ++ ts) htext'
  rw [List.append_assoc u]
  exact ⟨text'', nodes'', hu.trans hv, hnodes.trans (List.append_assoc _ _ _)⟩

theorem adds_flatMap {κ : Type*} {f : κ → Text} {g : κ → AssocTree} {l : List κ}
    (h : ∀ k ∈ l, Adds R (f k) [g k]) : Adds R (l.flatMap f) (l.map g) := by
  induction l with
  | nil => exact adds_nil
  | cons k l ih =>
    obtain ⟨hk, hl⟩ := List.forall_mem_cons.1 h
    exact hk.append (ih hl)

/-- Spaces and line ends. -/
def isBlank (c : Char) : Bool := c == ' ' || c == '\n'

theorem plain_of_blank (hu : u.all isBlank = true) :
    (∀ c ∈ u, PlainChar R c) ∧ Blank u ∧ ∀ rest, NoEnd u rest := by
  have h : ∀ c ∈ u, c = ' ' ∨ c = '\n' := fun c hc => by
    simpa [isBlank] using List.all_eq_true.1 hu c hc
  refine ⟨fun c hc => ?_, fun c hc => ?_, fun rest => noEnd_of_notMem rest fun hc => ?_⟩
  · rcases h c hc with rfl | rfl
    exacts [plainChar_space, plainChar_newline]
  · rcases h c hc with rfl | rfl <;> decide
  · exact absurd (h _ hc) (by decide)

theorem adds_blank (h : u.all isBlank = true) : Adds R u [] := by
  intro opened name n text rest nodes htext
  obtain ⟨hplain, hblank, hend⟩ := plain_of_blank (R := R) h
  refine ⟨text ++ u, fun c hc => ?_, ?_⟩
  · exact (List.mem_append.1 hc).elim (htext c) (hblank c)
  · rw [List.append_nil]
    exact reads_within hplain (hend rest)

theorem Holds.append_blank (h : Holds R u ts) (hv : v.all isBlank = true) :
    Holds R (u ++ v) ts := by
  intro opened name n text rest nodes htext
  obtain ⟨text', nodes', hu, hnodes⟩ := h opened name n text (v ++ rest) nodes htext
  obtain ⟨hplain, hblank, hend⟩ := plain_of_blank (R := R) hv
  refine ⟨text' ++ v, nodes', ?_, ?_⟩
  · rw [List.append_assoc]
    exact hu.trans (reads_within hplain (hend rest))
  · rw [settled_append_right hblank, hnodes]

/-- Text. -/
theorem holds_text (hplain : ∀ c ∈ u, PlainChar R c) (hend : ']' ∉ u) : Holds R u (settled u) := by
  intro opened name n text rest nodes htext
  refine ⟨text ++ u, nodes, reads_within hplain (noEnd_of_notMem rest hend), ?_⟩
  rw [settled, trimmed_append_left htext]
  rfl

/-- What `dumpXML` writes of a clean tree. -/
theorem holds_dumpXML {t : AssocTree} (h : Clean R t) (level : ℕ) :
    Holds R (dumpXML level t) [t] := by
  intro opened name n text rest nodes htext
  obtain ⟨text', nodes', hreads, hnodes⟩ := readsNodes R [t] level false opened name n text rest
    nodes ⟨by simp, h, trivial⟩ fun _ => htext
  refine ⟨text', nodes', ?_, ?_⟩
  · simpa [dumpAll] using hreads
  · rw [hnodes, settled_of_isSpace htext, List.append_nil]

/-- An element, with what stands in it. -/
def elementOf (name : Text) (attributes : List (Text × Text)) (u : Text) : Text :=
  '<' :: (name ++ (attributesText attributes ++ '>' :: (u ++ '<' :: '/' :: (name ++ ['>']))))

/-- Reading an element, up to its end. -/
theorem reads_elementOf {name : Text} {attributes : List (Text × Text)} (hname : IsName R name)
    (hattributes : Written R attributes) (h : Holds R u ts) {r : ReaderState} {n m : NanoXml}
    (rest : Text) (hroot : r.opened = [] → r.rootSeen = false)
    (hreport : run NanoXml.handle n (report r.run) = some m) :
    Reads R NanoXml.handle (elementOf name attributes u ++ rest) (r, n) rest
      (⟨r.opened, true, []⟩, ({ m with
        stack := ⟨String.ofList name, attributes.map attributeTree ++ ts⟩ :: m.stack } :
          NanoXml).popList) := by
  obtain ⟨text', nodes', hreads, hnodes⟩ := h r.opened name m []
    ('<' :: '/' :: (name ++ '>' :: rest)) (attributes.map attributeTree)
    fun _ hc => absurd hc List.not_mem_nil
  have hlast : run NanoXml.handle (within r.opened name m text' nodes').2 (report text') =
      some { m with
        stack := ⟨String.ofList name, attributes.map attributeTree ++ ts⟩ :: m.stack } := by
    refine (run_report m _ _).trans ?_
    dsimp only
    rw [hnodes]
  have hstop := @handleToken_stop R (within r.opened name m text' nodes').1 _ _ name r.opened rfl
    hlast
  have htext : elementOf name attributes u ++ rest =
      '<' :: (name ++ (attributesText attributes ++ '>' :: (u ++ '<' :: '/' ::
        (name ++ '>' :: rest)))) := by
    simp [elementOf]
  rw [htext]
  refine .step (lexToken_written _ hname hattributes.written)
    (handleToken_written name hroot hattributes hreport) ?_
  exact hreads.trans (.single (lexToken_stop rest hname) hstop)

/-- **An element adds its tree.** -/
theorem adds_element {name : Text} {attributes : List (Text × Text)} (hname : IsName R name)
    (hattributes : Written R attributes) (h : Holds R u ts) :
    Adds R (elementOf name attributes u)
      [.node (String.ofList name) (attributes.map attributeTree ++ ts)] := by
  intro opened around n text rest nodes htext
  have hreport := run_report n ⟨String.ofList around, nodes⟩ text
  rw [settled_of_isSpace htext, List.append_nil] at hreport
  exact ⟨[], fun _ hc => absurd hc List.not_mem_nil,
    reads_elementOf hname hattributes h (r := (within opened around n text nodes).1) rest
      (fun hnil => absurd hnil (List.cons_ne_nil _ _)) hreport⟩

/-! ### Documents -/

/-- What XML has fixed about the characters of ASCII. -/
structure KnowsAscii (R : Reader) : Prop where
  letters : ∀ c : Char, c.isAlpha = true → R.nameStart c = true
  printable : ∀ c : Char, 0x20 ≤ c.toNat → c.toNat < 0x7F → R.isChar c = true

theorem knowsAscii_ascii : KnowsAscii .ascii where
  letters c hc := by simp [Reader.ascii, hc]
  printable c hc _ := by simp [Reader.ascii, hc]

theorem KnowsAscii.isName (h : KnowsAscii R) {name : Text} (hne : name ≠ [])
    (hname : name.all Char.isAlpha = true) : IsName R name := by
  cases name with
  | nil => exact absurd rfl hne
  | cons c cs =>
    obtain ⟨hc, hcs⟩ := List.forall_mem_cons.1 (List.all_eq_true.1 hname)
    exact ⟨c, cs, rfl, h.letters c hc, fun d hd =>
      R.nameChar_of_nameStart d (h.letters d (hcs d hd))⟩

/-- The declaration that begins a document. -/
def xmlDeclaration : Text := "<?xml version=\"1.0\"?>\n".toList

theorem reads_xmlDeclaration (h : KnowsAscii R) (rest : Text) (n : NanoXml) :
    Reads R NanoXml.handle (xmlDeclaration ++ rest) (⟨[], false, []⟩, n) rest
      (⟨[], false, []⟩, n) := by
  have hname : IsName R "xml".toList := h.isName (by decide) (by decide)
  have hlex : lexToken R (xmlDeclaration ++ rest) = some (.other, '\n' :: rest) := by
    show lexInstruction R ("xml".toList ++ ' ' :: ("version=\"1.0\"?>\n".toList ++ rest)) = _
    rw [lexInstruction, takeName_append hname (R.nameChar_delimiter _ (by decide)),
      Option.bind_some]
    rfl
  have hnewline : lexToken R ('\n' :: rest) = some (.char '\n', rest) :=
    lexToken_char plainChar_newline (noEnd_of_notMem _ (by decide))
  exact .step hlex rfl (.single hnewline rfl)

/-- There is no carriage return outside of what is written as text. -/
theorem return_notMem_elementOf {name : Text} {attributes : List (Text × Text)}
    (hname : IsName R name) (hattributes : Written R attributes) (hu : '\r' ∉ u) :
    '\r' ∉ elementOf name attributes u := by
  have notMem_name {name : Text} (h : IsName R name) : '\r' ∉ name := fun hc => by
    have hchar := h.nameChar _ hc
    rw [R.nameChar_delimiter _ (by decide)] at hchar
    cases hchar
  have hattributesText : '\r' ∉ attributesText attributes := by
    intro hc
    obtain ⟨a, ha, hc⟩ := List.mem_flatMap.1 hc
    have hwritten := hattributes.written a ha
    have hvalue : '\r' ∉ a.2 := fun hc => absurd (hwritten.value _ hc) (by decide)
    have hne : '\r' ≠ quot := by decide
    simp [notMem_name hwritten.isName, hvalue, hne] at hc
  simp [elementOf, notMem_name hname, hattributesText, hu]

/-- **A document is read as the tree of its root.** -/
theorem parse_document (hR : KnowsAscii R) {name : Text} {attributes : List (Text × Text)}
    (hname : IsName R name) (hattributes : Written R attributes) (h : Holds R u ts)
    (hu : '\r' ∉ u) :
    parse R NanoXml.handle .initial (xmlDeclaration ++ (elementOf name attributes u ++ ['\n'])) =
      some ⟨[], some (.node (String.ofList name) (attributes.map attributeTree ++ ts)), ""⟩ := by
  have hnormal : Xml.normalize (xmlDeclaration ++ (elementOf name attributes u ++ ['\n'])) =
      xmlDeclaration ++ (elementOf name attributes u ++ ['\n']) := by
    apply normalizeFrom_of_notMem
    rw [List.mem_append, List.mem_append, not_or, not_or]
    exact ⟨by decide, return_notMem_elementOf hname hattributes hu, by decide⟩
  have helement := reads_elementOf hname hattributes h (n := .initial) (m := .initial)
    (r := ⟨[], false, []⟩) ['\n'] (fun _ => rfl) rfl
  have hlast (n : NanoXml) : Reads R NanoXml.handle ['\n'] (⟨[], true, []⟩, n) []
      (⟨[], true, []⟩, n) :=
    .single (lexToken_char plainChar_newline (noEnd_of_notMem [] (by decide))) rfl
  refine parse_eq_some.2 ⟨⟨[], true, []⟩, ?_, rfl, rfl⟩
  rw [hnormal]
  exact (reads_xmlDeclaration hR _ _).trans (helement.trans (hlast _))

end ContextKit
