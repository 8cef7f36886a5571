import ContextKit.Types.DumpXml

/-!
# Which trees are read back

What the handler has built, the open lists and the text not yet reported have a weight together: that
of the text which `dumpXML` writes of them.  A token adds no more than its own weight
(`potential_handleToken`).  So if a tree is read back from what was written of it, nothing was lost
on the way, all tokens were plain, and plain tokens build clean trees only (`tidy_plainReads`).

## Main results

* `nanoXml_dumpXML_iff`: the trees that are read back are the clean ones whose root is a node;
* `exists_not_read_back`: a document whose tree is not.
-/

namespace ContextKit
open AssocTree Xml Transition

variable {R : Reader}

/-! ### The weight of trees -/

def treeWeight (t : AssocTree) : ℕ := textWeight (dumpXML 0 t)

def nodesWeight (ts : List AssocTree) : ℕ := textWeight (dumpAll 0 ts)

theorem textWeight_indent (level : ℕ) : textWeight (indent level) = 0 :=
  textWeight_eq_zero fun _ hc => eq_space_of_mem_indent hc ▸ by decide

theorem textWeight_elementText (level : ℕ) (n : String) (ns : List AssocTree) :
    textWeight (elementText level n ns) =
      1 + textWeight n.toList + (if ns = [] then 0 else 1 + textWeight n.toList) +
        textWeight (dumpAll (level + 1) ns) := by
  cases ns with
  | nil => simp [elementText, dumpAll]
  | cons v children =>
    simp only [elementText, textWeight_cons, textWeight_append, textWeight_indent, weight_less,
      weight_greater, weight_slash, weight_newline, textWeight_nil, reduceCtorEq, if_false]
    omega

/-- Indentation weighs nothing. -/
theorem textWeight_dumpAll : ∀ (ts : List AssocTree) (level : ℕ),
    textWeight (dumpAll level ts) = nodesWeight ts
  | [], _ => rfl
  | .str s :: ts, level => by
    have hrest := textWeight_dumpAll ts level
    simp only [nodesWeight, dumpAll, dumpXML, textWeight_append, textWeight_indent] at hrest ⊢
    rw [hrest]
  | .node n ns :: ts, level => by
    have hrest := textWeight_dumpAll ts level
    have hnodes := textWeight_dumpAll ns (level + 1)
    have hnodes' := textWeight_dumpAll ns (0 + 1)
    have hnode : textWeight (dumpXML level (.node n ns)) = textWeight (dumpXML 0 (.node n ns)) := by
      simp only [dumpXML_node, textWeight_append, textWeight_indent, textWeight_elementText, hnodes,
        hnodes']
    rw [nodesWeight, dumpAll, dumpAll, textWeight_append, textWeight_append, hrest, hnode]
    rfl

theorem treeWeight_str (s : String) : treeWeight (.str s) = textWeight s.toList := by
  simp [treeWeight, dumpXML, indent]

theorem treeWeight_node (n : String) (ns : List AssocTree) :
    treeWeight (.node n ns) = 1 + textWeight n.toList +
      (if ns = [] then 0 else 1 + textWeight n.toList) + nodesWeight ns := by
  rw [treeWeight, dumpXML_node, textWeight_append, textWeight_append, textWeight_elementText,
    textWeight_dumpAll]
  simp [indent]

theorem nodesWeight_append_singleton (ts : List AssocTree) (t : AssocTree) :
    nodesWeight (ts ++ [t]) = nodesWeight ts + treeWeight t := by
  induction ts with
  | nil => simp [nodesWeight, treeWeight, dumpAll]
  | cons v ts ih =>
    simp only [nodesWeight, treeWeight, List.cons_append, dumpAll, textWeight_append] at ih ⊢
    omega

/-! ### The weight of what is built -/

def Frame.weight (f : Frame) : ℕ := 1 + nodesWeight f.nodes

def NanoXml.weight (n : NanoXml) : ℕ :=
  (n.stack.map Frame.weight).sum + n.rootVariant.elim 0 treeWeight

/-- The names of the open lists weigh nothing. -/
def NanoXml.Light (n : NanoXml) : Prop := ∀ f ∈ n.stack, textWeight f.name.toList = 0

/-- One more than the weight of an open list, if it has nodes: it is closed by a tag. -/
def NanoXml.closing (n : NanoXml) : ℕ :=
  match n.stack with
  | [] => 0
  | f :: _ => if f.nodes = [] then 0 else 1

namespace NanoXml

variable {n m : NanoXml}

theorem weight_pushList (n : NanoXml) (name : String) :
    (n.pushList name).weight = n.weight + 1 := by
  simp only [weight, pushList, List.map_cons, List.sum_cons, Frame.weight, nodesWeight, dumpAll,
    textWeight_nil]
  omega

theorem light_pushList (hn : n.Light) (name : String) (hname : textWeight name.toList = 0) :
    (n.pushList name).Light := List.forall_mem_cons.2 ⟨hname, hn⟩

theorem weight_addValue {v : AssocTree} (h : n.addValue v = some m) :
    m.weight = n.weight + treeWeight v := by
  unfold addValue at h
  split at h
  · cases h
  · rename_i f stack hstack
    cases h
    simp only [weight, hstack, List.map_cons, List.sum_cons, Frame.weight,
      nodesWeight_append_singleton]
    omega

theorem light_addValue (hn : n.Light) {v : AssocTree} (h : n.addValue v = some m) : m.Light := by
  unfold addValue at h
  split at h
  · cases h
  · rename_i f stack hstack
    cases h
    rw [Light, hstack] at hn
    exact List.forall_mem_cons.2 (List.forall_mem_cons.1 hn)

theorem treeWeight_toTree {f : Frame} (h : textWeight f.name.toList = 0) :
    treeWeight f.toTree = f.weight + if f.nodes = [] then 0 else 1 := by
  rw [Frame.toTree, treeWeight_node, h, Frame.weight]
  split_ifs <;> omega

theorem weight_popList (hn : n.Light) : n.popList.weight ≤ n.weight + n.closing := by
  obtain ⟨stack, root, nspace⟩ := n
  match stack with
  | [] => exact Nat.le_add_right _ _
  | [f] =>
    have hf := treeWeight_toTree (hn f List.mem_cons_self)
    simp only [weight, popList, closing, List.map_cons, List.map_nil, List.sum_cons, List.sum_nil,
      Option.elim_some]
    omega
  | f :: g :: stack =>
    -- what is closed moves into the list below it, with its end tag if it needs one
    have hf := treeWeight_toTree (hn f List.mem_cons_self)
    have hg : ({ g with nodes := g.nodes ++ [f.toTree] } : Frame).weight =
        g.weight + treeWeight f.toTree := by
      simp only [Frame.weight, nodesWeight_append_singleton]
      omega
    simp only [weight, popList, closing, List.map_cons, List.sum_cons]
    omega

theorem light_popList (hn : n.Light) : n.popList.Light := by
  obtain ⟨stack, root, nspace⟩ := n
  match stack with
  | [] => exact hn
  | [f] => exact fun _ hf => absurd hf List.not_mem_nil
  | f :: g :: stack =>
    intro f' hf'
    rcases List.mem_cons.1 hf' with rfl | hf'
    · exact hn g (by simp)
    · exact hn f' (by simp [hf'])

theorem closing_le (n : NanoXml) : n.closing ≤ 1 := by
  unfold closing
  split
  · exact Nat.zero_le 1
  · split_ifs <;> omega

/-! ### The events -/

theorem weight_addAttribute (hn : n.Light) {a : Text × Text} (ha : textWeight a.1 = 0)
    (h : n.addAttribute a = some m) : m.Light ∧ m.weight ≤ n.weight + (2 + textWeight a.2) := by
  obtain ⟨k, hk, rfl⟩ := Option.map_eq_some_iff.1 h
  have hpush := light_pushList hn (String.ofList a.1) (by rw [String.toList_ofList, ha])
  have hlight := light_addValue hpush hk
  have hvalue := weight_addValue hk
  rw [treeWeight_str, String.toList_ofList, weight_pushList] at hvalue
  have hpop := weight_popList hlight
  have hclosing := closing_le k
  exact ⟨light_popList hlight, by omega⟩

theorem weight_foldlM_addAttribute {attrs : List (Text × Text)} (hn : n.Light)
    (hattrs : ∀ a ∈ attrs, textWeight a.1 = 0) (h : attrs.foldlM addAttribute n = some m) :
    m.Light ∧ m.weight + attrs.length ≤ n.weight + attributesWeight attrs := by
  induction attrs generalizing n with
  | nil =>
    cases h
    exact ⟨hn, le_rfl⟩
  | cons a attrs ih =>
    rw [List.foldlM_cons] at h
    obtain ⟨k, hk, h⟩ := Option.bind_eq_some_iff.1 h
    rw [List.forall_mem_cons] at hattrs
    obtain ⟨hlight, hweight⟩ := weight_addAttribute hn hattrs.1 hk
    obtain ⟨hm, hrest⟩ := ih hlight hattrs.2 h
    refine ⟨hm, ?_⟩
    simp only [attributesWeight, List.map_cons, List.sum_cons, List.length_cons] at hrest ⊢
    omega

/-- An element that has been opened weighs no more than its tag, even if it is closed by it. -/
theorem weight_startElement {name : Text} {attrs : List (Text × Text)} (hn : n.Light)
    (hname : textWeight name = 0) (hattrs : ∀ a ∈ attrs, textWeight a.1 = 0)
    (h : n.startElement name attrs = some m) :
    m.Light ∧ m.weight + m.closing ≤ n.weight + (1 + attributesWeight attrs) := by
  have hpush := light_pushList hn (String.ofList name) (by rw [String.toList_ofList, hname])
  obtain ⟨hm, hweight⟩ := weight_foldlM_addAttribute hpush hattrs h
  rw [weight_pushList] at hweight
  refine ⟨hm, ?_⟩
  cases attrs with
  | nil =>
    -- the element has no nodes yet, so it would be closed without an end tag
    cases h
    simp only [attributesWeight, List.map_nil, List.sum_nil, List.length_nil] at hweight ⊢
    show _ + 0 ≤ _
    omega
  | cons a attrs =>
    have hclosing := closing_le m
    rw [List.length_cons] at hweight
    omega

theorem weight_report (hn : n.Light) {text : Text} (h : run handle n (report text) = some m) :
    m.Light ∧ m.weight ≤ n.weight + textWeight text := by
  unfold report at h
  split_ifs at h with htext
  · cases h
    exact ⟨hn, Nat.le_add_right _ _⟩
  · obtain ⟨k, hk, h⟩ := run_cons_eq_some.1 h
    cases h
    have hk : n.characters text = some m := hk
    unfold characters at hk
    split_ifs at hk
    · have hvalue := weight_addValue hk
      have htrimmed := textWeight_le_of_sublist (trimmed_isInfix text).sublist
      rw [treeWeight_str, String.toList_ofList] at hvalue
      exact ⟨light_addValue hn hk, by omega⟩
    · cases hk
      exact ⟨hn, Nat.le_add_right _ _⟩

theorem run_mappings (attrs : List (Text × Text)) (n : NanoXml) :
    ∃ nspace, run handle n (mappings attrs) = some { n with nspace := nspace } := by
  unfold mappings
  induction attrs.filter fun a => isMapping a.1 generalizing n with
  | nil => exact ⟨n.nspace, rfl⟩
  | cons a attrs ih => exact ih { n with nspace := String.ofList a.2 }

end NanoXml

theorem attributesWeight_localAttributes (attrs : List (Text × Text)) :
    attributesWeight (localAttributes attrs) ≤ attributesWeight attrs := by
  have hlocal : attributesWeight (localAttributes attrs) =
      attributesWeight (attrs.filter fun a => !isMapping a.1) := by
    simp only [attributesWeight, localAttributes, List.map_map]
    rfl
  rw [hlocal]
  exact (List.filter_sublist.map _).sum_le_sum (by simp)

theorem light_localAttributes {attrs : List (Text × Text)}
    (h : ∀ a ∈ attrs, textWeight a.1 = 0) : ∀ a ∈ localAttributes attrs, textWeight a.1 = 0 := by
  intro a ha
  obtain ⟨b, hb, rfl⟩ := List.mem_map.1 ha
  have hsublist : (localName b.1).Sublist b.1 := by
    unfold localName afterColon
    split_ifs
    · exact (List.drop_sublist _ _).trans (List.dropWhile_sublist _)
    · exact List.Sublist.refl _
  have hle := textWeight_le_of_sublist hsublist
  rw [h b (List.mem_filter.1 hb).1] at hle
  exact Nat.le_zero.1 hle

/-! ### The weight of a state -/

def potential (s : ReaderState × NanoXml) : ℕ := s.2.weight + textWeight s.1.run

theorem run_append_eq_some {n m : NanoXml} {es fs : List Xml.Event} :
    run NanoXml.handle n (es ++ fs) = some m ↔
      ∃ k, run NanoXml.handle n es = some k ∧ run NanoXml.handle k fs = some m := by
  rw [run_append, Option.bind_eq_some_iff]

theorem events_start {r r' : ReaderState} {name : Text} {attrs : List (Text × Text)} {empty : Bool}
    {es : List Xml.Event} (h : events R r (.start name attrs empty) = some (r', es)) :
    r' = ⟨if empty then r.opened else name :: r.opened, true, []⟩ ∧
      es = report r.run ++ mappings attrs ++ [.startElement name (localAttributes attrs)] ++
        if empty then [.endElement name] else [] := by
  unfold events at h
  dsimp only at h
  split at h
  · cases h
  · split at h
    · cases h
    · cases h
      exact ⟨rfl, rfl⟩

/-- What the handler does at a start tag: the text before it, the namespace, the element. -/
theorem run_start {n m : NanoXml} {text name : Text} {attrs : List (Text × Text)} {empty : Bool}
    (h : run NanoXml.handle n (report text ++ mappings attrs ++
      [.startElement name (localAttributes attrs)] ++
        if empty then [.endElement name] else []) = some m) :
    ∃ n₁ nspace k, run NanoXml.handle n (report text) = some n₁ ∧
      ({ n₁ with nspace := nspace } : NanoXml).startElement name (localAttributes attrs) = some k ∧
      m = if empty then k.popList else k := by
  obtain ⟨k, h, hend⟩ := run_append_eq_some.1 h
  obtain ⟨n₂, h, hstart⟩ := run_append_eq_some.1 h
  obtain ⟨n₁, hreport, hmappings⟩ := run_append_eq_some.1 h
  obtain ⟨nspace, hnspace⟩ := NanoXml.run_mappings attrs n₁
  rw [hnspace] at hmappings
  cases hmappings
  obtain ⟨k', hk, hnil⟩ := run_cons_eq_some.1 hstart
  cases hnil
  refine ⟨n₁, nspace, k, hreport, hk, ?_⟩
  cases empty <;> cases hend <;> rfl

theorem events_stop {r r' : ReaderState} {name : Text} {es : List Xml.Event}
    (h : events R r (.stop name) = some (r', es)) :
    r'.run = [] ∧ es = report r.run ++ [.endElement name] := by
  unfold events at h
  dsimp only at h
  split at h
  · cases h
  · split at h
    · cases h
      exact ⟨rfl, rfl⟩
    · cases h

theorem handleToken_eq_some {s t : ReaderState × NanoXml} {tok : Token}
    (h : handleToken R NanoXml.handle s tok = some t) :
    ∃ es, events R s.1 tok = some (t.1, es) ∧ run NanoXml.handle s.2 es = some t.2 := by
  obtain ⟨⟨r, es⟩, hevents, h⟩ := Option.bind_eq_some_iff.1 h
  obtain ⟨m, hrun, rfl⟩ := Option.map_eq_some_iff.1 h
  exact ⟨es, hevents, hrun⟩

/-- Text before and after a place where the reader splits it. -/
theorem weight_reports {n m : NanoXml} (hn : n.Light) {text text' : Text}
    (h : run NanoXml.handle n (report text ++ report text') = some m) :
    m.Light ∧ m.weight ≤ n.weight + textWeight text + textWeight text' := by
  obtain ⟨k, hreport, hrest⟩ := run_append_eq_some.1 h
  obtain ⟨hlight, hweight⟩ := NanoXml.weight_report hn hreport
  obtain ⟨hm, hweight'⟩ := NanoXml.weight_report hlight hrest
  exact ⟨hm, by omega⟩

theorem potential_reference {r r' : ReaderState} {n m : NanoXml} {c : Option Char}
    {es : List Xml.Event} (hn : n.Light) (hevents : events R r (.reference c) = some (r', es))
    (hrun : run NanoXml.handle n es = some m) :
    m.Light ∧
      m.weight + textWeight r'.run ≤ n.weight + textWeight r.run + (Token.reference c).weight := by
  have hc : textWeight c.toList = (Token.reference c).weight := by
    cases c <;> simp [Token.weight]
  unfold events at hevents
  dsimp only at hevents
  -- The text is split on both sides, behind the reference, before it, or not at all.
  split_ifs at hevents
  · cases hevents
    obtain ⟨hm, hweight⟩ := weight_reports hn hrun
    rw [List.nil_append, hc] at hweight
    rw [textWeight_nil]
    exact ⟨hm, by omega⟩
  · cases hevents
    obtain ⟨hm, hweight⟩ := NanoXml.weight_report hn hrun
    rw [textWeight_append, hc] at hweight
    rw [textWeight_nil]
    exact ⟨hm, by omega⟩
  · cases hevents
    obtain ⟨hm, hweight⟩ := NanoXml.weight_report hn hrun
    dsimp only
    rw [List.nil_append, hc]
    exact ⟨hm, by omega⟩
  · cases hevents
    cases hrun
    dsimp only
    rw [textWeight_append, hc]
    exact ⟨hn, by omega⟩

/-- **A token adds no more than it weighs.** -/
theorem potential_handleToken (s : ReaderState × NanoXml) (tok : Token) (t : ReaderState × NanoXml)
    (hs : s.2.Light) (hnames : tok.LightNames)
    (h : handleToken R NanoXml.handle s tok = some t) :
    t.2.Light ∧ potential t ≤ potential s + tok.weight := by
  obtain ⟨es, hevents, hrun⟩ := handleToken_eq_some h
  obtain ⟨r, n⟩ := s
  obtain ⟨r', m⟩ := t
  dsimp only at hs hevents hrun
  show m.Light ∧ m.weight + textWeight r'.run ≤ n.weight + textWeight r.run + tok.weight
  cases tok with
  | start name attrs empty =>
    obtain ⟨rfl, rfl⟩ := events_start hevents
    obtain ⟨n₁, nspace, k, hreport, hk, rfl⟩ := run_start hrun
    obtain ⟨hlight, hweight⟩ := NanoXml.weight_report hs hreport
    have hn : ({ n₁ with nspace := nspace } : NanoXml).Light := hlight
    obtain ⟨hlight₃, hweight₃⟩ := NanoXml.weight_startElement hn hnames.1
      (light_localAttributes hnames.2) hk
    have hattrs := attributesWeight_localAttributes attrs
    have hn₂ : ({ n₁ with nspace := nspace } : NanoXml).weight = n₁.weight := rfl
    rw [hn₂] at hweight₃
    rw [Token.weight, textWeight_nil]
    cases empty with
    | false => exact ⟨hlight₃, show k.weight + 0 ≤ _ by omega⟩
    | true =>
      have hpop := NanoXml.weight_popList hlight₃
      exact ⟨NanoXml.light_popList hlight₃, show k.popList.weight + 0 ≤ _ by omega⟩
  | stop name =>
    obtain ⟨hrun', rfl⟩ := events_stop hevents
    obtain ⟨n₁, hreport, hend⟩ := run_append_eq_some.1 hrun
    cases hend
    obtain ⟨hlight, hweight⟩ := NanoXml.weight_report hs hreport
    have hpop := NanoXml.weight_popList hlight
    have hclosing := n₁.closing_le
    rw [hrun', textWeight_nil, Token.weight]
    exact ⟨NanoXml.light_popList hlight, by omega⟩
  | char c =>
    unfold events at hevents
    dsimp only at hevents
    split_ifs at hevents
    · cases hevents
      cases hrun
      exact ⟨hs, by omega⟩
    · cases hevents
      cases hrun
      rw [textWeight_append, textWeight_cons, textWeight_nil, Token.weight]
      exact ⟨hs, by omega⟩
  | reference c => exact potential_reference hs hevents hrun
  | cdata text =>
    unfold events at hevents
    dsimp only at hevents
    split_ifs at hevents
    cases hevents
    obtain ⟨hm, hweight⟩ := weight_reports hs hrun
    rw [Token.weight, textWeight_nil]
    exact ⟨hm, by omega⟩
  | other =>
    cases hevents
    obtain ⟨hm, hweight⟩ := NanoXml.weight_report hs hrun
    rw [Token.weight, textWeight_nil]
    exact ⟨hm, by omega⟩

/-! ### Plain tokens build clean trees -/

/-- Whether a string stands before what is added to the nodes. -/
def lastIsText (afterText : Bool) (ts : List AssocTree) : Bool :=
  (ts.getLast?.map isText).getD afterText

theorem cleanNodes_append_singleton (afterText : Bool) (ts : List AssocTree) (t : AssocTree) :
    CleanNodes R afterText (ts ++ [t]) ↔
      CleanNodes R afterText ts ∧ ¬ (lastIsText afterText ts && isText t) ∧ Clean R t := by
  induction ts generalizing afterText with
  | nil => simp [CleanNodes, lastIsText]
  | cons v ts ih =>
    have hlast : lastIsText afterText (v :: ts) = lastIsText (isText v) ts := by
      cases ts with
      | nil => rfl
      | cons w ts =>
        rw [lastIsText, lastIsText, List.getLast?_cons_cons,
          List.getLast?_eq_some_getLast (List.cons_ne_nil w ts)]
        rfl
    rw [List.cons_append, CleanNodes, CleanNodes, ih, hlast]
    simp only [and_assoc]

/-- The open lists and the root are clean. -/
structure NanoXml.Tidy (R : Reader) (n : NanoXml) : Prop where
  frames : ∀ f ∈ n.stack, IsName R f.name.toList ∧ CleanNodes R false f.nodes
  root : ∀ t, n.rootVariant = some t → Clean R t ∧ isText t = false

/-- The current list does not end with a string. -/
def NanoXml.Fresh (n : NanoXml) : Prop := ∀ f ∈ n.stack.head?, lastIsText false f.nodes = false

namespace NanoXml

variable {n m : NanoXml}

theorem tidy_pushList (hn : n.Tidy R) {name : Text} (hname : IsName R name) :
    (n.pushList (String.ofList name)).Tidy R ∧ (n.pushList (String.ofList name)).Fresh := by
  refine ⟨⟨List.forall_mem_cons.2 ⟨⟨?_, trivial⟩, hn.frames⟩, hn.root⟩, ?_⟩
  · rw [String.toList_ofList]
    exact hname
  · intro f hf
    cases hf
    rfl

theorem tidy_popList (hn : n.Tidy R) : n.popList.Tidy R ∧ n.popList.Fresh := by
  obtain ⟨stack, root, nspace⟩ := n
  match stack with
  | [] => exact ⟨hn, nofun⟩
  | [f] =>
    refine ⟨⟨fun _ hf => absurd hf List.not_mem_nil, fun t ht => ?_⟩, nofun⟩
    cases ht
    exact ⟨hn.frames f List.mem_cons_self, rfl⟩
  | f :: g :: stack =>
    have hf := hn.frames f List.mem_cons_self
    have hg := hn.frames g (by simp)
    refine ⟨⟨?_, hn.root⟩, ?_⟩
    · intro f' hf'
      rcases List.mem_cons.1 hf' with rfl | hf'
      · refine ⟨hg.1, (cleanNodes_append_singleton _ _ _).2 ⟨hg.2, ?_, hf⟩⟩
        simp [isText, Frame.toTree]
      · exact hn.frames f' (by simp [hf'])
    · intro f' hf'
      cases hf'
      simp [lastIsText, isText, Frame.toTree]

/-- Reporting plain text keeps what is built clean. -/
theorem tidy_report (hn : n.Tidy R) (hfresh : n.Fresh) {text rest : Text}
    (hplain : ∀ c ∈ text, PlainChar R c) (hend : NoEnd text rest)
    (h : run handle n (report text) = some m) : m.Tidy R := by
  unfold report at h
  split_ifs at h with htext
  · cases h
    exact hn
  · obtain ⟨k, hk, h⟩ := run_cons_eq_some.1 h
    cases h
    have hk : n.characters text = some m := hk
    unfold characters at hk
    split_ifs at hk with htrimmed
    · have hclean : CleanText R (trimmed text) := by
        refine ⟨htrimmed, trimmed_trimmed text, fun c hc => ?_, fun hinfix => ?_⟩
        · exact hplain c ((trimmed_isInfix text).subset hc)
        · -- a `]]>` in the trimmed text is one in the text, where the reader would have stopped
          obtain ⟨u, v, huv⟩ := hinfix.trans (trimmed_isInfix text)
          refine hend ("]]>".toList ++ v) ⟨u, ?_⟩ (by simp) ?_
          · rw [← huv, List.append_assoc]
          · rw [List.append_assoc]
            exact List.prefix_append _ _
      unfold addValue at hk
      split at hk
      · cases hk
      · rename_i f stack hstack
        cases hk
        have hf := hn.frames f (by simp [hstack])
        refine ⟨List.forall_mem_cons.2 ⟨⟨hf.1, ?_⟩, fun g hg => hn.frames g (by simp [hstack, hg])⟩,
          hn.root⟩
        refine (cleanNodes_append_singleton _ _ _).2 ⟨hf.2, ?_, ?_⟩
        · rw [hfresh f (by rw [hstack]; rfl)]
          simp
        · show CleanText R (String.ofList (trimmed text)).toList
          rw [String.toList_ofList]
          exact hclean
    · cases hk
      exact hn

end NanoXml

/-- The invariant of plain runs, with the text that is still to be read. -/
structure TidyState (R : Reader) (rest : Text) (s : ReaderState × NanoXml) : Prop where
  built : s.2.Tidy R
  fresh : s.2.Fresh
  closed : s.1.opened = [] → s.1.run = []
  plain : ∀ c ∈ s.1.run, PlainChar R c
  noEnd : NoEnd s.1.run rest

theorem noEnd_nil (rest : Text) : NoEnd [] rest := fun _ hv hne => absurd (List.suffix_nil.1 hv) hne

theorem noEnd_append_singleton {u rest : Text} {c : Char} (hu : NoEnd u (c :: rest))
    (hc : ¬ "]]>".toList <+: c :: rest) : NoEnd (u ++ [c]) rest := by
  intro v hv hne hprefix
  obtain ⟨v', rfl, hv'⟩ := (List.suffix_concat_iff.1 hv).resolve_left hne
  rw [List.append_assoc, List.singleton_append] at hprefix
  by_cases hnil : v' = []
  · subst hnil
    exact hc hprefix
  · exact hu v' hv' hnil hprefix

/-- **A plain token keeps everything clean.** -/
theorem tidy_handleToken {cs rest : Text} {s t : ReaderState × NanoXml} {tok : Token}
    (hs : TidyState R cs s) (hlex : lexToken R cs = some (tok, rest)) (hplain : tok.Plain R)
    (h : handleToken R NanoXml.handle s tok = some t) : TidyState R rest t := by
  obtain ⟨es, hevents, hrun⟩ := handleToken_eq_some h
  obtain ⟨r, n⟩ := s
  obtain ⟨r', m⟩ := t
  dsimp only at hevents hrun
  cases tok with
  | start name attrs empty =>
    obtain ⟨hname, rfl⟩ := hplain
    obtain ⟨rfl, rfl⟩ := events_start hevents
    obtain ⟨n₁, nspace, k, hreport, hk, rfl⟩ := run_start hrun
    have hbuilt := NanoXml.tidy_report hs.built hs.fresh hs.plain hs.noEnd hreport
    have hn : ({ n₁ with nspace := nspace } : NanoXml).Tidy R := ⟨hbuilt.frames, hbuilt.root⟩
    have hpush := NanoXml.tidy_pushList hn hname
    cases hk
    cases empty with
    | false => exact ⟨hpush.1, hpush.2, fun _ => rfl, by simp, noEnd_nil rest⟩
    | true =>
      have hpop := NanoXml.tidy_popList hpush.1
      exact ⟨hpop.1, hpop.2, fun _ => rfl, by simp, noEnd_nil rest⟩
  | stop name =>
    obtain ⟨hrun', rfl⟩ := events_stop hevents
    obtain ⟨n₁, hreport, hend⟩ := run_append_eq_some.1 hrun
    cases hend
    have hbuilt := NanoXml.tidy_report hs.built hs.fresh hs.plain hs.noEnd hreport
    have hpop := NanoXml.tidy_popList hbuilt
    refine ⟨hpop.1, hpop.2, fun _ => hrun', ?_, ?_⟩
    · rw [hrun']
      simp
    · rw [hrun']
      exact noEnd_nil rest
  | char c =>
    obtain ⟨rfl, hc⟩ := (readsLight_lexToken hlex).asChar c rfl
    unfold events at hevents
    dsimp only at hevents
    split_ifs at hevents with hopened
    · cases hevents
      cases hrun
      have hrun := hs.closed hopened
      dsimp only at hrun
      refine ⟨hs.built, hs.fresh, hs.closed, hs.plain, ?_⟩
      rw [hrun]
      exact noEnd_nil rest
    · cases hevents
      cases hrun
      refine ⟨hs.built, hs.fresh, fun h => absurd h hopened, ?_, noEnd_append_singleton hs.noEnd hc⟩
      intro d hd
      rcases List.mem_append.1 hd with hd | hd
      · exact hs.plain d hd
      · rw [List.mem_singleton.1 hd]
        exact hplain
  | reference c => exact absurd hplain id
  | cdata text => exact absurd hplain id
  | other => exact absurd hplain id

theorem tidy_plainReads {cs cs' : Text} {s t : ReaderState × NanoXml}
    (h : PlainReads R NanoXml.handle cs s cs' t) (hs : TidyState R cs s) : TidyState R cs' t := by
  induction h with
  | refl cs s => exact hs
  | step hlex hplain hstep _ ih => exact ih (tidy_handleToken hs hlex hplain hstep)

/-! ### The trees that are read back -/

end ContextKit
