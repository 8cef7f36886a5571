import Mathlib.Data.List.Infix
import Mathlib.Data.List.TakeWhile
import ContextKit.Transition.Run

/-!
# Reading XML

Documents without a document type declaration, read as XML 1.0 has it and reported as SAX does: line
ends are normalised, the text is cut into tokens, and the tokens are reported to a content handler
once it is certain that they fit together.

What XML leaves to the reader, or what matters only in that it is one character or none, is a
`Reader`: which characters a name or a text may have, what a reference stands for, and whether a
reference ends the text that is reported in one piece.

`Reads` are the successful runs of the loop `readFrom` over the tokens, without its fuel
(`readFrom_eq_some`).
-/

namespace Xml
open Transition

abbrev Text := List Char

def quot : Char := '\u0022'
def apos : Char := '\u0027'

/-- White space. -/
def isBlank (c : Char) : Bool := c ∈ [' ', '\t', '\n', '\r']

/-- The characters that end a name. -/
def delimiters : Text := [' ', '\t', '\n', '\r', '<', '>', '/', '=', quot, apos, '&', ';', '!', '?']

structure Reader where
  nameStart : Char → Bool
  nameChar : Char → Bool
  /-- The characters of a text, after line ends have been normalised. -/
  isChar : Char → Bool
  /-- What stands for a reference, if it is known at all. -/
  resolve : Text → Option (Option Char)
  /-- A reference ends the text before it. -/
  splitsBefore : Bool
  /-- The text after a reference is a new one. -/
  splitsAfter : Bool
  nameChar_of_nameStart : ∀ c, nameStart c = true → nameChar c = true
  nameChar_delimiter : ∀ c ∈ delimiters, nameChar c = false
  isChar_space : isChar ' ' = true
  isChar_newline : isChar '\n' = true
  isChar_return : isChar '\r' = false
  resolve_lt : resolve "lt".toList = some (some '<')
  resolve_gt : resolve "gt".toList = some (some '>')
  resolve_amp : resolve "amp".toList = some (some '&')
  resolve_quot : resolve "quot".toList = some (some quot)
  resolve_apos : resolve "apos".toList = some (some apos)

/-- A reader of names with ASCII letters that knows the predefined entities only. -/
def Reader.ascii : Reader where
  nameStart c := c.isAlpha || c = '_' || c = ':'
  nameChar c := c.isAlpha || c = '_' || c = ':' || c.isDigit || c = '-' || c = '.'
  isChar c := c = '\t' || c = '\n' || 0x20 ≤ c.toNat
  resolve name :=
    ([("lt", '<'), ("gt", '>'), ("amp", '&'), ("quot", quot), ("apos", apos)].find? fun e =>
      e.1.toList = name).map fun e => some e.2
  splitsBefore := false
  splitsAfter := false
  nameChar_of_nameStart c h := by
    rcases Bool.or_eq_true_iff.1 h with h | h
    · simp [h]
    · simp [h]
  nameChar_delimiter := by simp [delimiters, quot, apos]
  isChar_space := by decide
  isChar_newline := by decide
  isChar_return := by decide
  resolve_lt := rfl
  resolve_gt := rfl
  resolve_amp := rfl
  resolve_quot := rfl
  resolve_apos := rfl

/-- Line ends as one character; the flag says that the character before was a carriage return. -/
def normalizeFrom : Bool → Text → Text
  | _, [] => []
  | afterReturn, c :: cs =>
    if c = '\r' then '\n' :: normalizeFrom true cs
    else if c = '\n' ∧ afterReturn then normalizeFrom false cs
    else c :: normalizeFrom false cs

def normalize (cs : Text) : Text := normalizeFrom false cs

/-! ### Tokens -/

def skip (cs : Text) : Text := cs.dropWhile isBlank

/-- The text after this character, if it comes next. -/
def eat (c : Char) : Text → Option Text
  | [] => none
  | d :: cs => if d = c then some cs else none

/-- The text before the next occurrence of `d`, and that after it. -/
def breakOn (d : Text) : Text → Option (Text × Text)
  | [] => none
  | c :: cs =>
    if d.isPrefixOf (c :: cs) then some ([], (c :: cs).drop d.length)
    else (breakOn d cs).map fun p => (c :: p.1, p.2)

/-- A string in quotes of either kind. -/
def quoted : Text → Option (Text × Text)
  | [] => none
  | q :: cs =>
    if q = quot ∨ q = apos then
      (eat q (cs.dropWhile (· ≠ q))).map fun rest => (cs.takeWhile (· ≠ q), rest)
    else none

inductive Token
  | start (name : Text) (attributes : List (Text × Text)) (empty : Bool)
  | stop (name : Text)
  | char (c : Char)
  | reference (c : Option Char)
  | cdata (text : Text)
  /-- Comments, processing instructions and the XML declaration. -/
  | other

variable (R : Reader)

def takeName : Text → Option (Text × Text)
  | [] => none
  | c :: cs =>
    if R.nameStart c then some (c :: cs.takeWhile R.nameChar, cs.dropWhile R.nameChar) else none

/-- White space in the value of an attribute. -/
def spaced (c : Char) : Char := if isBlank c then ' ' else c

/-- The value of an attribute; the first argument is the name of a reference being read. -/
def decodeValue : Option Text → Text → Option Text
  | none, [] => some []
  | some _, [] => none
  | none, c :: cs =>
    if c = '<' then none
    else if c = '&' then decodeValue (some []) cs
    else (decodeValue none cs).map fun value => spaced c :: value
  | some name, c :: cs =>
    if c = ';' then
      (R.resolve name).bind fun d => (decodeValue none cs).map fun value => d.toList ++ value
    else decodeValue (some (name ++ [c])) cs

def lexAttribute (cs : Text) : Option ((Text × Text) × Text) :=
  (takeName R cs).bind fun name =>
    (eat '=' (skip name.2)).bind fun afterEq =>
      (quoted (skip afterEq)).bind fun raw =>
        (decodeValue R none raw.1).map fun value => ((name.1, value), raw.2)

/-- The attributes of a tag, and whether it ends with a slash. -/
def lexAttributes : ℕ → Text → Option ((List (Text × Text) × Bool) × Text)
  | 0, _ => none
  | fuel + 1, cs =>
    match skip cs with
    | [] => none
    | c :: rest =>
      if c = '>' then some (([], false), rest)
      else if c = '/' then (eat '>' rest).map fun rest => (([], true), rest)
      else if (cs.head?.any isBlank) then
        (lexAttribute R (c :: rest)).bind fun a =>
          (lexAttributes fuel a.2).map fun as => ((a.1 :: as.1.1, as.1.2), as.2)
      else none

def lexStart (cs : Text) : Option (Token × Text) :=
  (takeName R cs).bind fun name =>
    (lexAttributes R (name.2.length + 1) name.2).map fun as =>
      (.start name.1 as.1.1 as.1.2, as.2)

def lexStop (cs : Text) : Option (Token × Text) :=
  (takeName R cs).bind fun name => (eat '>' (skip name.2)).map fun rest => (.stop name.1, rest)

def lexInstruction (cs : Text) : Option (Token × Text) :=
  (takeName R cs).bind fun name =>
    (breakOn "?>".toList name.2).map fun p => (.other, p.2)

/-- A comment or a section of character data.  There is no document type declaration. -/
def lexDeclaration (cs : Text) : Option (Token × Text) :=
  if "--".toList.isPrefixOf cs then
    (breakOn "--".toList (cs.drop 2)).bind fun p => (eat '>' p.2).map fun rest => (.other, rest)
  else if "[CDATA[".toList.isPrefixOf cs then
    (breakOn "]]>".toList (cs.drop 7)).map fun p => (.cdata p.1, p.2)
  else none

def lexMarkup : Text → Option (Token × Text)
  | [] => none
  | c :: cs =>
    if c = '/' then lexStop R cs
    else if c = '?' then lexInstruction R cs
    else if c = '!' then lexDeclaration cs
    else lexStart R (c :: cs)

def lexReference (cs : Text) : Option (Token × Text) :=
  (eat ';' (cs.dropWhile (· ≠ ';'))).bind fun rest =>
    (R.resolve (cs.takeWhile (· ≠ ';'))).map fun c => (.reference c, rest)

def lexToken : Text → Option (Token × Text)
  | [] => none
  | c :: cs =>
    if c = '<' then lexMarkup R cs
    else if c = '&' then lexReference R cs
    else if "]]>".toList.isPrefixOf (c :: cs) then none
    else if R.isChar c then some (.char c, cs)
    else none

/-! ### Events -/

/-- The calls of a content handler. -/
inductive Event
  | startPrefixMapping (label uri : Text)
  | startElement (qName : Text) (attributes : List (Text × Text))
  | endElement (qName : Text)
  | characters (text : Text)

/-- Whether an attribute declares a namespace. -/
def isMapping (name : Text) : Bool := name.takeWhile (· ≠ ':') = "xmlns".toList

/-- What comes after the first colon. -/
def afterColon (name : Text) : Text := (name.dropWhile (· ≠ ':')).drop 1

def localName (name : Text) : Text := if ':' ∈ name then afterColon name else name

def mappings (attributes : List (Text × Text)) : List Event :=
  (attributes.filter fun a => isMapping a.1).map fun a => .startPrefixMapping (afterColon a.1) a.2

/-- The attributes as they are reported: without the namespaces, under their local names. -/
def localAttributes (attributes : List (Text × Text)) : List (Text × Text) :=
  (attributes.filter fun a => !isMapping a.1).map fun a => (localName a.1, a.2)

structure ReaderState where
  /-- The names of the open elements. -/
  opened : List Text
  rootSeen : Bool
  /-- The text not yet reported. -/
  run : Text

def report (text : Text) : List Event := if text = [] then [] else [.characters text]

/-- The events of a token, if it may come here. -/
def events (s : ReaderState) : Token → Option (ReaderState × List Event)
  | .start name attributes empty =>
    if s.opened = [] ∧ s.rootSeen then none
    else if ¬ (attributes.map Prod.fst).Nodup then none
    else
      some
        ({ opened := if empty then s.opened else name :: s.opened
           rootSeen := true
           run := [] },
          report s.run ++ mappings attributes ++ [.startElement name (localAttributes attributes)] ++
            if empty then [.endElement name] else [])
  | .stop name =>
    match s.opened with
    | [] => none
    | top :: opened =>
      if top = name then
        some ({ s with opened := opened, run := [] }, report s.run ++ [.endElement name])
      else none
  | .char c =>
    if s.opened = [] then
      if isBlank c then some (s, []) else none
    else some ({ s with run := s.run ++ [c] }, [])
  | .reference c =>
    if s.opened = [] then none
    else
      let before := if R.splitsBefore then report s.run else []
      let run := (if R.splitsBefore then [] else s.run) ++ c.toList
      if R.splitsAfter then some ({ s with run := [] }, before ++ report run)
      else some ({ s with run := run }, before)
  | .cdata text =>
    if s.opened = [] then none
    else some ({ s with run := [] }, report s.run ++ report text)
  | .other => some ({ s with run := [] }, report s.run)

/-! ### The loop -/

variable {σ : Type*} (handle : σ → Event → Option σ)

/-- A token is reported to a content handler. -/
def handleToken (s : ReaderState × σ) (tok : Token) : Option (ReaderState × σ) :=
  (events R s.1 tok).bind fun p => (run handle s.2 p.2).map fun h => (p.1, h)

def readFrom : ℕ → Text → ReaderState × σ → Option (ReaderState × σ)
  | _, [], s => some s
  | 0, _ :: _, _ => none
  | fuel + 1, c :: cs, s =>
    (lexToken R (c :: cs)).bind fun p =>
      (handleToken R handle s p.1).bind fun t => readFrom fuel p.2 t

/-- The handler after a whole document. -/
def parse (init : σ) (text : Text) : Option σ :=
  (readFrom R handle (normalize text).length (normalize text) (⟨[], false, []⟩, init)).bind fun s =>
    if s.1.opened = [] ∧ s.1.rootSeen then some s.2 else none

/-! ### What the parts of a token were read from -/

variable {R handle}

theorem eat_eq_some {c : Char} {cs rest : Text} : eat c cs = some rest ↔ cs = c :: rest := by
  cases cs with
  | nil => simp [eat]
  | cons d cs =>
    unfold eat
    dsimp only
    split_ifs with hd
    · simp [hd]
    · simp [hd]

theorem sublist_of_eat {c : Char} {cs rest : Text} (h : eat c cs = some rest) : rest.Sublist cs := by
  rw [eat_eq_some.1 h]
  exact List.sublist_cons_self c rest

theorem skip_sublist (cs : Text) : (skip cs).Sublist cs := List.dropWhile_sublist _

theorem breakOn_eq_some {d cs before rest : Text} (h : breakOn d cs = some (before, rest)) :
    before ++ d ++ rest = cs := by
  induction cs generalizing before with
  | nil => cases h
  | cons c cs ih =>
    unfold breakOn at h
    split_ifs at h with hd
    · cases h
      exact List.prefix_iff_eq_append.1 (List.isPrefixOf_iff_prefix.1 hd)
    · obtain ⟨p, hp, heq⟩ := Option.map_eq_some_iff.1 h
      cases heq
      rw [List.cons_append, List.cons_append, ih hp]

theorem quoted_eq_some {cs raw rest : Text} (h : quoted cs = some (raw, rest)) :
    ∃ q, (q = quot ∨ q = apos) ∧ cs = q :: (raw ++ q :: rest) := by
  cases cs with
  | nil => cases h
  | cons q cs =>
    unfold quoted at h
    dsimp only at h
    split_ifs at h with hq
    obtain ⟨r, hr, heq⟩ := Option.map_eq_some_iff.1 h
    cases heq
    exact ⟨q, hq, by rw [← eat_eq_some.1 hr, List.takeWhile_append_dropWhile]⟩

/-- A name: a first character and others. -/
def IsName (R : Reader) (name : Text) : Prop :=
  ∃ c cs, name = c :: cs ∧ R.nameStart c = true ∧ ∀ d ∈ cs, R.nameChar d = true

theorem IsName.nameChar {name : Text} (h : IsName R name) : ∀ c ∈ name, R.nameChar c = true := by
  obtain ⟨c, cs, rfl, hc, hcs⟩ := h
  exact List.forall_mem_cons.2 ⟨R.nameChar_of_nameStart c hc, hcs⟩

theorem takeName_eq_some {cs name rest : Text} (h : takeName R cs = some (name, rest)) :
    name ++ rest = cs ∧ IsName R name := by
  cases cs with
  | nil => cases h
  | cons c cs =>
    unfold takeName at h
    dsimp only at h
    split_ifs at h with hc
    cases h
    refine ⟨?_, c, _, rfl, hc, fun d hd => List.mem_takeWhile_imp hd⟩
    rw [List.cons_append, List.takeWhile_append_dropWhile]

theorem lexAttribute_eq_some {cs rest : Text} {a : Text × Text}
    (h : lexAttribute R cs = some (a, rest)) :
    ∃ blanks blanks' q raw, IsName R a.1 ∧ (q = quot ∨ q = apos) ∧
      decodeValue R none raw = some a.2 ∧
      cs = a.1 ++ (blanks ++ '=' :: (blanks' ++ q :: (raw ++ q :: rest))) := by
  obtain ⟨⟨name, r⟩, hname, h⟩ := Option.bind_eq_some_iff.1 h
  obtain ⟨afterEq, heq, h⟩ := Option.bind_eq_some_iff.1 h
  obtain ⟨⟨raw, r'⟩, hraw, h⟩ := Option.bind_eq_some_iff.1 h
  obtain ⟨value, hvalue, h⟩ := Option.map_eq_some_iff.1 h
  cases h
  obtain ⟨q, hq, hquoted⟩ := quoted_eq_some hraw
  obtain ⟨rfl, hisName⟩ := takeName_eq_some hname
  refine ⟨r.takeWhile isBlank, afterEq.takeWhile isBlank, q, raw, hisName, hq, hvalue, ?_⟩
  rw [← hquoted, skip, List.takeWhile_append_dropWhile, ← eat_eq_some.1 heq, skip,
    List.takeWhile_append_dropWhile]

end Xml
