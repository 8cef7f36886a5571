import Mathlib.Data.List.DropRight
import ContextKit.Types.AssocTree
import ContextKit.Xml.Reader

/-!
# `NanoXml`: an association tree from XML, and back

`NanoXml` is the content handler that builds the tree of a document: an element is a list with its
name, its attributes are lists of two strings, and its text is trimmed and left out if it is blank.
`dumpXML` writes a tree as XML, one line for every string and every tag.
-/

namespace ContextKit
open AssocTree Xml

/-! ### White space -/

/-- `QChar::isSpace` -/
def isSpace (c : Char) : Bool :=
  let n := c.toNat
  9 ≤ n && n ≤ 13 || n = 0x20 || n = 0x85 || n = 0xA0 || n = 0x1680 || 0x2000 ≤ n && n ≤ 0x200A ||
    n = 0x2028 || n = 0x2029 || n = 0x202F || n = 0x205F || n = 0x3000

/-- `QString::trimmed` -/
def trimmed (s : Text) : Text := (s.dropWhile isSpace).rdropWhile isSpace

/-! ### The handler -/

/-- A list that is being built. -/
structure Frame where
  name : String
  nodes : List AssocTree

def Frame.toTree (f : Frame) : AssocTree := .node f.name f.nodes

structure NanoXml where
  /-- `current`, and the lists around it -/
  stack : List Frame
  rootVariant : Option AssocTree
  nspace : String

namespace NanoXml

def initial : NanoXml := ⟨[], none, ""⟩

/-- A new list, which begins with its name. -/
def pushList (n : NanoXml) (name : String) : NanoXml := { n with stack := ⟨name, []⟩ :: n.stack }

/-- There has to be a list. -/
def addValue (n : NanoXml) (v : AssocTree) : Option NanoXml :=
  match n.stack with
  | [] => none
  | f :: stack => some { n with stack := { f with nodes := f.nodes ++ [v] } :: stack }

/-- The list is closed: it is added to the list around it, or is the root. -/
def popList (n : NanoXml) : NanoXml :=
  match n.stack with
  | [] => n
  | [f] => { n with stack := [], rootVariant := some f.toTree }
  | f :: g :: stack => { n with stack := { g with nodes := g.nodes ++ [f.toTree] } :: stack }

/-- The list of an attribute. -/
def addAttribute (n : NanoXml) (a : Text × Text) : Option NanoXml :=
  ((n.pushList (String.ofList a.1)).addValue (.str (String.ofList a.2))).map popList

def startElement (n : NanoXml) (name : Text) (attrs : List (Text × Text)) : Option NanoXml :=
  attrs.foldlM addAttribute (n.pushList (String.ofList name))

def characters (n : NanoXml) (chars : Text) : Option NanoXml :=
  if trimmed chars ≠ [] then n.addValue (.str (String.ofList (trimmed chars))) else some n

def handle (n : NanoXml) : Event → Option NanoXml
  | .startPrefixMapping _ uri => some { n with nspace := String.ofList uri }
  | .startElement name attrs => n.startElement name attrs
  | .endElement _ => some n.popList
  | .characters chars => n.characters chars

end NanoXml

/-- The tree of a document, if parsing it does not fail. -/
def nanoXml (R : Reader) (text : Text) : Option AssocTree :=
  (parse R NanoXml.handle .initial text).bind (·.rootVariant)

/-! ### Writing -/

def indent (level : ℕ) : Text := (List.replicate level "  ".toList).flatten

mutual

/-- `AssocTree::dumpXML` -/
def dumpXML (level : ℕ) : AssocTree → Text
  | .str s => indent level ++ (s.toList ++ ['\n'])
  | .node n [] => indent level ++ ('<' :: (n.toList ++ "/>\n".toList))
  | .node n (v :: children) =>
    indent level ++ ('<' :: (n.toList ++ '>' :: '\n' :: (dumpAll (level + 1) (v :: children) ++
      (indent level ++ ('<' :: '/' :: (n.toList ++ ">\n".toList))))))

def dumpAll (level : ℕ) : List AssocTree → Text
  | [] => []
  | v :: children => dumpXML level v ++ dumpAll level children

end

end ContextKit
