import Mathlib.Algebra.Order.BigOperators.Group.List
import Mathlib.Algebra.Order.Group.Nat
import Mathlib.Algebra.Ring.Nat
import ContextKit.Xml.Reader

/-!
# The weight of a text

The characters that XML gives a meaning have a weight, chosen such that reading never gains weight
(`weight_lexToken`): what a reference stands for weighs less than the reference, an attribute weighs
less than its name, its equals sign and its quotes, and tags weigh what they are written with.
Nothing is lost by plain tokens only: a start tag without attributes, a stop tag, a character that is
no markup.

So a text that is read as something of its own weight has only plain tokens.
-/

namespace Xml

def weight (c : Char) : ℕ :=
  if c = '&' ∨ c = '=' then 2 else if c ∈ ['<', ';', quot, apos, '\r'] then 1 else 0

theorem weight_le_two (c : Char) : weight c ≤ 2 := by
  unfold weight
  split_ifs <;> omega

@[simp] theorem weight_amp : weight '&' = 2 := by decide

@[simp] theorem weight_equals : weight '=' = 2 := by decide

@[simp] theorem weight_less : weight '<' = 1 := by decide

@[simp] theorem weight_semicolon : weight ';' = 1 := by decide

@[simp] theorem weight_greater : weight '>' = 0 := by decide

@[simp] theorem weight_slash : weight '/' = 0 := by decide

@[simp] theorem weight_newline : weight '\n' = 0 := by decide

def textWeight (cs : Text) : ℕ := (cs.map weight).sum

@[simp] theorem textWeight_nil : textWeight [] = 0 := rfl

@[simp] theorem textWeight_cons (c : Char) (cs : Text) :
    textWeight (c :: cs) = weight c + textWeight cs := by
  simp [textWeight]

@[simp] theorem textWeight_append (cs ds : Text) :
    textWeight (cs ++ ds) = textWeight cs + textWeight ds := by
  simp [textWeight]

theorem textWeight_le_of_sublist {cs ds : Text} (h : cs.Sublist ds) :
    textWeight cs ≤ textWeight ds := (h.map weight).sum_le_sum (by simp)

theorem textWeight_eq_zero {cs : Text} (h : ∀ c ∈ cs, weight c = 0) : textWeight cs = 0 := by
  rw [textWeight, List.sum_eq_zero_iff]
  intro n hn
  obtain ⟨c, hc, rfl⟩ := List.mem_map.1 hn
  exact h c hc

variable {R : Reader}

/-- What is no delimiter has no weight. -/
theorem weight_nameChar {c : Char} (h : R.nameChar c = true) : weight c = 0 := by
  have hnot : c ∉ delimiters := fun hc => by
    rw [R.nameChar_delimiter c hc] at h
    cases h
  simp only [delimiters, List.mem_cons, List.not_mem_nil, or_false, not_or] at hnot
  unfold weight
  simp [hnot]

theorem textWeight_name {name : Text} (h : IsName R name) : textWeight name = 0 :=
  textWeight_eq_zero fun c hc => weight_nameChar (h.nameChar c hc)

/-! ### Line ends -/

theorem textWeight_normalizeFrom (b : Bool) (cs : Text) :
    textWeight (normalizeFrom b cs) ≤ textWeight cs := by
  induction cs generalizing b with
  | nil => rfl
  | cons c cs ih =>
    rw [normalizeFrom, textWeight_cons]
    split_ifs with hreturn hnew
    · have := ih true
      rw [textWeight_cons, weight_newline]
      omega
    · have := ih false
      omega
    · have := ih false
      rw [textWeight_cons]
      omega

theorem normalizeFrom_of_notMem {cs : Text} (h : '\r' ∉ cs) : normalizeFrom false cs = cs := by
  induction cs with
  | nil => rfl
  | cons c cs ih =>
    rw [List.mem_cons, not_or] at h
    simp [normalizeFrom, Ne.symm h.1, ih h.2]

/-! ### Attributes -/

/-- A reference weighs more than what it stands for. -/
theorem textWeight_decodeValue (name : Option Text) {raw value : Text}
    (h : decodeValue R name raw = some value) :
    textWeight value ≤ textWeight raw + (if name.isSome then 2 else 0) := by
  induction raw generalizing name value with
  | nil =>
    cases name with
    | none => cases h; simp
    | some name => cases h
  | cons c cs ih =>
    cases name with
    | none =>
      unfold decodeValue at h
      split_ifs at h with hlt hamp
      · have := ih _ h
        rw [hamp, textWeight_cons]
        simpa [Nat.add_comm] using this
      · obtain ⟨v, hv, rfl⟩ := Option.map_eq_some_iff.1 h
        have hrest := ih _ hv
        have hc : weight (spaced c) ≤ weight c := by
          unfold spaced
          split_ifs
          · exact Nat.zero_le _
          · rfl
        simp only [textWeight_cons, Option.isSome_none, Bool.false_eq_true, if_false] at hrest ⊢
        omega
    | some name =>
      unfold decodeValue at h
      split_ifs at h with hend
      · obtain ⟨d, -, h⟩ := Option.bind_eq_some_iff.1 h
        obtain ⟨v, hv, rfl⟩ := Option.map_eq_some_iff.1 h
        have hrest := ih _ hv
        -- what the reference stands for weighs no more than the `&` it began with
        have hd : textWeight d.toList ≤ 2 := by
          cases d with
          | none => simp
          | some d => simpa using weight_le_two d
        simp only [textWeight_append, textWeight_cons, Option.isSome_none, Bool.false_eq_true,
          if_false, Option.isSome_some, if_true] at hrest ⊢
        omega
      · have hrest := ih _ h
        simp only [textWeight_cons, Option.isSome_some, if_true] at hrest ⊢
        omega

theorem textWeight_lexAttribute {cs rest : Text} {a : Text × Text}
    (h : lexAttribute R cs = some (a, rest)) :
    4 + textWeight a.2 + textWeight rest ≤ textWeight cs := by
  obtain ⟨blanks, blanks', q, raw, -, hq, hvalue, rfl⟩ := lexAttribute_eq_some h
  have hraw := textWeight_decodeValue none hvalue
  have hquote : weight q = 1 := by
    rcases hq with rfl | rfl <;> decide
  simp only [textWeight_append, textWeight_cons, hquote, weight_equals, Option.isSome_none,
    Bool.false_eq_true, if_false] at hraw ⊢
  omega

/-- The weight of attributes in a token. -/
def attributesWeight (as : List (Text × Text)) : ℕ := (as.map fun a => 3 + textWeight a.2).sum

theorem lexAttributes_spec {fuel : ℕ} {cs rest : Text} {as : List (Text × Text)} {empty : Bool}
    (h : lexAttributes R fuel cs = some ((as, empty), rest)) :
    attributesWeight as + as.length + textWeight rest ≤ textWeight cs ∧ rest.length < cs.length ∧
      ∀ a ∈ as, textWeight a.1 = 0 := by
  induction fuel generalizing cs as with
  | zero => cases h
  | succ fuel ih =>
    unfold lexAttributes at h
    have hskip : textWeight (skip cs) ≤ textWeight cs :=
      textWeight_le_of_sublist (skip_sublist cs)
    have hlength : (skip cs).length ≤ cs.length := (skip_sublist cs).length_le
    split at h
    · cases h
    · rename_i c after hc
      rw [hc, textWeight_cons] at hskip
      rw [hc, List.length_cons] at hlength
      split_ifs at h with hclose hslash hblank
      · cases h
        refine ⟨?_, by omega, by simp⟩
        simp only [attributesWeight, List.map_nil, List.sum_nil, List.length_nil]
        omega
      · obtain ⟨r, hr, heq⟩ := Option.map_eq_some_iff.1 h
        cases heq
        rw [eat_eq_some.1 hr, textWeight_cons] at hskip
        rw [eat_eq_some.1 hr, List.length_cons] at hlength
        refine ⟨?_, by omega, by simp⟩
        simp only [attributesWeight, List.map_nil, List.sum_nil, List.length_nil]
        omega
      · obtain ⟨⟨a, r⟩, ha, h⟩ := Option.bind_eq_some_iff.1 h
        obtain ⟨⟨⟨as', empty'⟩, r'⟩, has, heq⟩ := Option.map_eq_some_iff.1 h
        cases heq
        obtain ⟨hweight, hless, hnames⟩ := ih has
        dsimp only at hweight hless
        -- one of the four that the attribute weighs besides its value is left for its length
        have hattribute := textWeight_lexAttribute ha
        obtain ⟨blanks, blanks', q, raw, hname, -, -, hcs⟩ := lexAttribute_eq_some ha
        dsimp only at hattribute ⊢
        refine ⟨?_, ?_, List.forall_mem_cons.2 ⟨textWeight_name hname, hnames⟩⟩
        · simp only [attributesWeight, List.map_cons, List.sum_cons, List.length_cons,
            textWeight_cons] at hweight hattribute ⊢
          omega
        · have hlong := congrArg List.length hcs
          simp only [List.length_cons, List.length_append] at hlong
          omega

/-! ### Tokens -/

def Token.weight : Token → ℕ
  | .start _ as _ => 1 + attributesWeight as
  | .stop _ => 1
  | .char c => Xml.weight c
  | .reference c => c.elim 0 Xml.weight
  | .cdata text => textWeight text
  | .other => 0

/-- The tokens of a document without attributes, references, comments and the like. -/
def Token.Plain (R : Reader) : Token → Prop
  | .start name as _ => IsName R name ∧ as = []
  | .stop _ => True
  | .char c => R.isChar c = true ∧ c ≠ '<' ∧ c ≠ '&'
  | _ => False

/-- What a token says about names: they weigh nothing. -/
def Token.LightNames : Token → Prop
  | .start name as _ => textWeight name = 0 ∧ ∀ a ∈ as, textWeight a.1 = 0
  | _ => True

/-- Reading a token of a text: the rest is shorter, nothing is gained, and what is lost was not
plain. -/
structure ReadsLight (R : Reader) (cs : Text) (tok : Token) (rest : Text) : Prop where
  shorter : rest.length < cs.length
  noGain : tok.weight + textWeight rest ≤ textWeight cs
  plain : tok.weight + textWeight rest = textWeight cs → tok.Plain R
  names : tok.LightNames
  asChar : ∀ c, tok = .char c → cs = c :: rest ∧ ¬ "]]>".toList <+: cs

theorem ReadsLight.of_lt {cs rest : Text} {tok : Token} (hlength : rest.length < cs.length)
    (h : tok.weight + textWeight rest < textWeight cs) (hnames : tok.LightNames)
    (hchar : ∀ c, tok ≠ .char c) : ReadsLight R cs tok rest :=
  ⟨hlength, h.le, fun heq => absurd heq h.ne, hnames, fun c hc => absurd hc (hchar c)⟩

theorem readsLight_lexStart {cs rest : Text} {tok : Token} (h : lexStart R cs = some (tok, rest)) :
    ReadsLight R ('<' :: cs) tok rest := by
  obtain ⟨⟨name, r⟩, hname, h⟩ := Option.bind_eq_some_iff.1 h
  obtain ⟨⟨⟨as, empty⟩, r'⟩, has, heq⟩ := Option.map_eq_some_iff.1 h
  cases heq
  obtain ⟨rfl, hisName⟩ := takeName_eq_some hname
  obtain ⟨hweight, hlength, hnames⟩ := lexAttributes_spec has
  dsimp only at hweight hlength ⊢
  have htotal : textWeight ('<' :: (name ++ r)) = 1 + textWeight r := by
    rw [textWeight_cons, textWeight_append, textWeight_name hisName, weight_less]
    omega
  refine ⟨?_, ?_, fun heq => ⟨hisName, ?_⟩, ⟨textWeight_name hisName, hnames⟩, nofun⟩
  · simp only [List.length_cons, List.length_append]
    omega
  · rw [htotal, Token.weight]
    omega
  · rw [htotal, Token.weight] at heq
    exact List.length_eq_zero_iff.1 (by omega)

theorem readsLight_lexStop {cs rest : Text} {tok : Token} (h : lexStop R cs = some (tok, rest)) :
    ReadsLight R ('<' :: '/' :: cs) tok rest := by
  obtain ⟨⟨name, r⟩, hname, h⟩ := Option.bind_eq_some_iff.1 h
  obtain ⟨r', hr', heq⟩ := Option.map_eq_some_iff.1 h
  cases heq
  obtain ⟨rfl, -⟩ := takeName_eq_some hname
  have hsuffix : rest.Sublist r := (sublist_of_eat hr').trans (skip_sublist r)
  have hweight := textWeight_le_of_sublist hsuffix
  have hlength := hsuffix.length_le
  refine ⟨?_, ?_, fun _ => trivial, trivial, nofun⟩
  · simp only [List.length_cons, List.length_append]
    omega
  · rw [textWeight_cons, textWeight_cons, textWeight_append, weight_less, Token.weight]
    omega

/-- Comments and the like disappear. -/
theorem readsLight_other {cs rest : Text} (h : rest.Sublist cs) :
    ReadsLight R ('<' :: cs) .other rest := by
  refine .of_lt ?_ ?_ trivial nofun
  · exact Nat.lt_succ_of_le h.length_le
  · rw [textWeight_cons, weight_less, Token.weight]
    have := textWeight_le_of_sublist h
    omega

theorem sublist_of_breakOn {d cs before rest : Text} (h : breakOn d cs = some (before, rest)) :
    rest.Sublist cs := by
  rw [← breakOn_eq_some h]
  exact List.sublist_append_right _ _

theorem readsLight_lexDeclaration {cs rest : Text} {tok : Token}
    (h : lexDeclaration cs = some (tok, rest)) : ReadsLight R ('<' :: '!' :: cs) tok rest := by
  unfold lexDeclaration at h
  split_ifs at h
  · obtain ⟨⟨before, r⟩, hr, h⟩ := Option.bind_eq_some_iff.1 h
    obtain ⟨r', hr', heq⟩ := Option.map_eq_some_iff.1 h
    cases heq
    have hr'' : r.Sublist cs := (sublist_of_breakOn hr).trans (List.drop_sublist _ _)
    exact readsLight_other (((sublist_of_eat hr').trans hr'').trans (List.sublist_cons_self _ _))
  · obtain ⟨⟨text, r⟩, hr, heq⟩ := Option.map_eq_some_iff.1 h
    cases heq
    have hcs := congrArg textWeight (breakOn_eq_some hr)
    have hdrop := textWeight_le_of_sublist (List.drop_sublist 7 cs)
    refine .of_lt ?_ ?_ trivial nofun
    · have := ((sublist_of_breakOn hr).trans (List.drop_sublist _ _)).length_le
      simp only [List.length_cons]
      omega
    · simp only [textWeight_append] at hcs
      rw [textWeight_cons, textWeight_cons, weight_less, Token.weight]
      dsimp only
      omega

theorem readsLight_lexReference {cs rest : Text} {tok : Token}
    (h : lexReference R cs = some (tok, rest)) : ReadsLight R ('&' :: cs) tok rest := by
  obtain ⟨r, hr, h⟩ := Option.bind_eq_some_iff.1 h
  obtain ⟨c, -, heq⟩ := Option.map_eq_some_iff.1 h
  cases heq
  have hcs : cs.takeWhile (· ≠ ';') ++ ';' :: rest = cs := by
    rw [← eat_eq_some.1 hr, List.takeWhile_append_dropWhile]
  have hc : c.elim 0 weight ≤ 2 := by
    cases c with
    | none => exact Nat.zero_le _
    | some c => exact weight_le_two c
  refine .of_lt ?_ ?_ trivial nofun
  · rw [← hcs]
    simp only [List.length_cons, List.length_append]
    omega
  · rw [textWeight_cons, ← hcs, textWeight_append, textWeight_cons, weight_amp, weight_semicolon,
      Token.weight]
    omega

/-- **Reading a token gains no weight**, and only plain tokens lose none. -/
theorem readsLight_lexToken {cs rest : Text} {tok : Token} (h : lexToken R cs = some (tok, rest)) :
    ReadsLight R cs tok rest := by
  cases cs with
  | nil => cases h
  | cons c cs =>
    unfold lexToken at h
    dsimp only at h
    split_ifs at h with hlt hamp hend hchar
    · subst hlt
      cases cs with
      | nil => cases h
      | cons d cs =>
        unfold lexMarkup at h
        dsimp only at h
        split_ifs at h with hslash hquestion hbang
        · subst hslash
          exact readsLight_lexStop h
        · obtain ⟨name, hname, h⟩ := Option.bind_eq_some_iff.1 h
          obtain ⟨p, hp, heq⟩ := Option.map_eq_some_iff.1 h
          cases heq
          have hcs := (takeName_eq_some hname).1
          have hname : name.2.Sublist cs := hcs ▸ List.sublist_append_right _ _
          exact readsLight_other (((sublist_of_breakOn hp).trans hname).trans
            (List.sublist_cons_self _ _))
        · subst hbang
          exact readsLight_lexDeclaration h
        · exact readsLight_lexStart h
    · subst hamp
      exact readsLight_lexReference h
    · cases h
      refine ⟨Nat.lt_succ_self _, (textWeight_cons c _).ge, fun _ => ⟨hchar, hlt, hamp⟩, trivial, ?_⟩
      intro d hd
      cases hd
      exact ⟨rfl, fun hprefix => hend (List.isPrefixOf_iff_prefix.2 hprefix)⟩

end Xml
