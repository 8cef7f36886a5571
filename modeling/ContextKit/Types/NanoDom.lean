import ContextKit.Types.DumpXml

/-!
# The Nano-DOM of an element

An element with everything in it, as it is reported: the text between two tags comes in pieces, as
many as the reader likes, for a reference or a comment ends a piece.  `nanoDom` is the tree that
the rules for the Nano-DOM give, where the pieces are one text.  `NanoXml` trims each piece and adds
it on its own, which is the same as long as no more than one piece between two tags is more than
white space (`nanoDom_iff`).
-/

namespace ContextKit
open AssocTree Transition Xml

mutual

/-- An element with its attributes. -/
inductive Element
  | mk (name : Text) (attributes : List (Text × Text)) (content : Content)

/-- What is in an element: text in its pieces, and after it the end or another element. -/
inductive Content
  | text (pieces : List Text)
  | element (pieces : List Text) (e : Element) (rest : Content)

end

/-- An attribute, as the element it stands for. -/
def attributeTree (a : Text × Text) : AssocTree :=
  .node (String.ofList a.1) [.str (String.ofList a.2)]

mutual

def Element.events : Element → List Event
  | .mk name attributes content =>
    .startElement name attributes :: (content.events ++ [.endElement name])

def Content.events : Content → List Event
  | .text pieces => pieces.map .characters
  | .element pieces e rest => pieces.map .characters ++ (e.events ++ rest.events)

end

mutual

/-- The tree of an element: first its attributes, then its content. -/
def Element.nanoDom : Element → AssocTree
  | .mk name attributes content =>
    .node (String.ofList name) (attributes.map attributeTree ++ content.nanoDom)

/-- The text between two tags is one string, without the white space around it. -/
def Content.nanoDom : Content → List AssocTree
  | .text pieces => settled pieces.flatten
  | .element pieces e rest => settled pieces.flatten ++ e.nanoDom :: rest.nanoDom

end

mutual

/-- The tree with each piece of the text on its own. -/
def Element.pieceDom : Element → AssocTree
  | .mk name attributes content =>
    .node (String.ofList name) (attributes.map attributeTree ++ content.pieceDom)

def Content.pieceDom : Content → List AssocTree
  | .text pieces => pieces.flatMap settled
  | .element pieces e rest => pieces.flatMap settled ++ e.pieceDom :: rest.pieceDom

end

/-- At most one of the pieces is more than white space. -/
def OnePiece (pieces : List Text) : Prop :=
  (pieces.filter fun piece => trimmed piece ≠ []).length ≤ 1

mutual

/-- No text between two tags is cut apart. -/
def Element.Unbroken : Element → Prop
  | .mk _ _ content => content.Unbroken

def Content.Unbroken : Content → Prop
  | .text pieces => OnePiece pieces
  | .element pieces e rest => OnePiece pieces ∧ e.Unbroken ∧ rest.Unbroken

end

/-! ### What the handler builds -/

section

variable (n : NanoXml) (f : Frame) (stack : List Frame)

theorem run_characters (pieces : List Text) :
    run NanoXml.handle { n with stack := f :: stack } (pieces.map .characters) =
      some { n with
        stack := { f with nodes := f.nodes ++ pieces.flatMap settled } :: stack } := by
  induction pieces generalizing f with
  | nil => simp
  | cons piece pieces ih =>
    rw [List.map_cons, run_cons]
    have hpiece : NanoXml.handle { n with stack := f :: stack } (.characters piece) =
        some { n with stack := { f with nodes := f.nodes ++ settled piece } :: stack } := by
      show NanoXml.characters _ piece = _
      unfold NanoXml.characters settled
      by_cases htrimmed : trimmed piece = []
      · simp [htrimmed]
      · simp [htrimmed, NanoXml.addValue]
    rw [hpiece, Option.bind_some, ih]
    simp

theorem foldlM_addAttribute (attributes : List (Text × Text)) :
    attributes.foldlM NanoXml.addAttribute { n with stack := f :: stack } =
      some { n with
        stack := { f with nodes := f.nodes ++ attributes.map attributeTree } :: stack } := by
  induction attributes generalizing f with
  | nil => simp
  | cons a attributes ih =>
    have hadd : NanoXml.addAttribute { n with stack := f :: stack } a =
        some { n with stack := { f with nodes := f.nodes ++ [attributeTree a] } :: stack } := rfl
    rw [List.foldlM_cons, hadd]
    show attributes.foldlM NanoXml.addAttribute { n with stack := _ :: stack } = _
    rw [ih]
    simp

/-- The list of an element, before it is closed. -/
def openFrame (name : Text) (attributes : List (Text × Text)) (content : Content) : Frame :=
  ⟨String.ofList name, attributes.map attributeTree ++ content.pieceDom⟩

mutual

/-- An element adds its tree to the list it stands in. -/
theorem run_events : ∀ (e : Element) (n : NanoXml) (f : Frame) (stack : List Frame),
    run NanoXml.handle { n with stack := f :: stack } e.events =
      some { n with stack := { f with nodes := f.nodes ++ [e.pieceDom] } :: stack }
  | .mk name attributes content, n, f, stack => by
    have hopen := run_open content name attributes n (f :: stack)
    rw [Element.events, ← List.cons_append, run_append_of_eq hopen]
    rfl

theorem run_content : ∀ (c : Content) (n : NanoXml) (f : Frame) (stack : List Frame),
    run NanoXml.handle { n with stack := f :: stack } c.events =
      some { n with stack := { f with nodes := f.nodes ++ c.pieceDom } :: stack }
  | .text pieces, n, f, stack => run_characters n f stack pieces
  | .element pieces e rest, n, f, stack => by
    rw [Content.events, run_append_of_eq (run_characters n f stack pieces),
      run_append_of_eq (run_events e n _ stack), run_content rest n _ stack, Content.pieceDom]
    simp

/-- A start tag opens a list, and the content is put into it. -/
theorem run_open : ∀ (c : Content) (name : Text) (attributes : List (Text × Text)) (n : NanoXml)
    (stack : List Frame),
    run NanoXml.handle { n with stack := stack } (.startElement name attributes :: c.events) =
      some { n with stack := openFrame name attributes c :: stack }
  | c, name, attributes, n, stack => by
    rw [run_cons]
    show ((attributes.foldlM NanoXml.addAttribute
      { n with stack := ⟨String.ofList name, []⟩ :: stack }).bind _) = _
    rw [foldlM_addAttribute, Option.bind_some, run_content c n _ stack]
    rfl

end

end

/-! ### One piece or several -/

theorem trimmed_eq_nil_iff {s : Text} : trimmed s = [] ↔ ∀ c ∈ s, isSpace c = true := by
  refine ⟨fun h => ?_, trimmed_eq_nil⟩
  have hdrop : s.dropWhile isSpace = [] := by
    rw [trimmed, List.rdropWhile_eq_nil_iff] at h
    by_contra hne
    obtain ⟨c, rest, hcons⟩ := List.exists_cons_of_ne_nil hne
    have hhead := List.head?_dropWhile_not isSpace s
    rw [hcons] at hhead
    simp [h c (hcons ▸ List.mem_cons_self)] at hhead
  exact List.dropWhile_eq_nil_iff.1 hdrop

theorem length_settled (s : Text) : (settled s).length = if trimmed s = [] then 0 else 1 := by
  unfold settled
  split_ifs <;> rfl

theorem length_flatMap_settled (pieces : List Text) :
    (pieces.flatMap settled).length = (pieces.filter fun piece => trimmed piece ≠ []).length := by
  induction pieces with
  | nil => rfl
  | cons piece pieces ih =>
    rw [List.flatMap_cons, List.length_append, length_settled, ih]
    by_cases h : trimmed piece = []
    · simp [h]
    · simp [h]
      omega

/-- Pieces that are added on their own are the one text, exactly if only one of them has text. -/
theorem flatMap_settled_iff (pieces : List Text) :
    pieces.flatMap settled = settled pieces.flatten ↔ OnePiece pieces := by
  constructor
  · intro h
    have hlength := congrArg List.length h
    rw [length_flatMap_settled, length_settled] at hlength
    unfold OnePiece
    split_ifs at hlength <;> omega
  · intro h
    induction pieces with
    | nil => rfl
    | cons piece pieces ih =>
      rw [List.flatMap_cons, List.flatten_cons]
      by_cases hpiece : trimmed piece = []
      · have hspace := trimmed_eq_nil_iff.1 hpiece
        rw [settled_of_isSpace hspace, List.nil_append, ih (by simpa [OnePiece, hpiece] using h)]
        unfold settled
        rw [trimmed_append_left hspace]
      · -- What comes after the text is white space.
        have hrest : ∀ p ∈ pieces, trimmed p = [] := by simpa [OnePiece, hpiece] using h
        have hspace : ∀ c ∈ pieces.flatten, isSpace c = true := by
          intro c hc
          obtain ⟨p, hp, hcp⟩ := List.mem_flatten.1 hc
          exact trimmed_eq_nil_iff.1 (hrest p hp) c hcp
        have hnone : pieces.flatMap settled = [] := by
          rw [List.flatMap_eq_nil_iff]
          exact fun p hp => if_pos (hrest p hp)
        rw [hnone, List.append_nil, settled_append_right hspace]

/-- The nodes before the first element are told from it by their form. -/
theorem append_cons_inj {l l' r r' : List AssocTree} {m m' : String} {us us' : List AssocTree}
    (hl : ∀ t ∈ l, isText t = true) (hl' : ∀ t ∈ l', isText t = true)
    (h : l ++ .node m us :: r = l' ++ .node m' us' :: r') :
    l = l' ∧ AssocTree.node m us = .node m' us' ∧ r = r' := by
  induction l generalizing l' with
  | nil =>
    cases l' with
    | nil =>
      obtain ⟨hnode, hr⟩ := List.cons.inj h
      exact ⟨rfl, hnode, hr⟩
    | cons t l' =>
      obtain ⟨rfl, -⟩ := List.cons.inj h
      cases hl' _ List.mem_cons_self
  | cons t l ih =>
    rw [List.forall_mem_cons] at hl
    cases l' with
    | nil =>
      obtain ⟨rfl, -⟩ := List.cons.inj h
      cases hl.1
    | cons t' l' =>
      rw [List.forall_mem_cons] at hl'
      obtain ⟨rfl, htail⟩ := List.cons.inj h
      obtain ⟨rfl, hnode, hr⟩ := ih hl.2 hl'.2 htail
      exact ⟨rfl, hnode, hr⟩

theorem isText_of_mem_settled {s : Text} {t : AssocTree} (h : t ∈ settled s) : isText t = true := by
  unfold settled at h
  split_ifs at h
  · cases h
  · rw [List.mem_singleton.1 h]
    rfl

mutual

theorem Element.pieceDom_eq_iff : ∀ e : Element, e.pieceDom = e.nanoDom ↔ e.Unbroken
  | .mk name attributes content => by
    rw [Element.pieceDom, Element.nanoDom, Element.Unbroken, ← content.pieceDom_eq_iff,
      AssocTree.node.injEq, List.append_cancel_left_eq]
    simp

theorem Content.pieceDom_eq_iff : ∀ c : Content, c.pieceDom = c.nanoDom ↔ c.Unbroken
  | .text pieces => flatMap_settled_iff pieces
  | .element pieces (.mk name attributes content) rest => by
    rw [Content.Unbroken, ← flatMap_settled_iff, ← rest.pieceDom_eq_iff,
      ← Element.pieceDom_eq_iff (.mk name attributes content), Content.pieceDom, Content.nanoDom]
    constructor
    · intro h
      refine append_cons_inj (fun t ht => ?_) (fun t ht => isText_of_mem_settled ht) h
      obtain ⟨p, -, hp⟩ := List.mem_flatMap.1 ht
      exact isText_of_mem_settled hp
    · rintro ⟨hpieces, he, hrest⟩
      rw [hpieces, he, hrest]

end

/-- **When the tree is the Nano-DOM of the element.**  However the text is cut into pieces, the
handler comes to the tree that the rules give, exactly if no two pieces with text in them stand
between the same two tags. -/
theorem nanoDom_iff (e : Element) :
    (run NanoXml.handle .initial e.events).bind (·.rootVariant) = some e.nanoDom ↔
      e.Unbroken := by
  obtain ⟨name, attributes, content⟩ := e
  have hopen : run NanoXml.handle .initial (.startElement name attributes :: content.events) =
      some ⟨[openFrame name attributes content], none, ""⟩ :=
    run_open content name attributes .initial []
  rw [Element.events, ← List.cons_append, run_append_of_eq hopen,
    ← Element.pieceDom_eq_iff (.mk name attributes content)]
  exact Option.some_inj

/-- A documentation with an ampersand, which comes as a piece of its own. -/
def ampersandDoc : Element :=
  .mk "doc".toList [] (.text ["salt ".toList, "&".toList, " pepper".toList])

theorem exists_text_broken :
    (run NanoXml.handle .initial ampersandDoc.events).bind (·.rootVariant) ≠
      some ampersandDoc.nanoDom := by
  have hbuilt : (run NanoXml.handle .initial ampersandDoc.events).bind (·.rootVariant) =
      some (.node "doc" [.str "salt", .str "&", .str "pepper"]) := rfl
  have hdom : ampersandDoc.nanoDom = .node "doc" [.str "salt & pepper"] := rfl
  rw [hbuilt, hdom]
  simp

end ContextKit
