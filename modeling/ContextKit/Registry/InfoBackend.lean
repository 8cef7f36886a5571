import Mathlib.Data.List.Nodup
import ContextKit.Types.AssocTree

/-!
# `InfoBackend`: what a registry answers

There are two backends, one that reads the XML files of the registry and one that reads the database
compiled from them.  Both answer the same questions about a key, and both tell when the answers may
have changed.

`Data` are the values a backend keeps: a type is one of them, since an association tree is a value.
-/

namespace ContextRegistry
open ContextKit

/-- The namespace of the XML files and the version of the database that are read. -/
def compatibilityNamespace : String := "http://contextkit.freedesktop.org/Provider"

/-- The `QVariant`s of a registry. -/
inductive Data
  | invalid
  | string (s : String)
  | bool (b : Bool)
  | list (l : List Data)
  | hash (h : List (String × Data))

namespace Data

def toString : Data → String
  | string s => s
  | bool true => "true"
  | bool false => "false"
  | _ => ""

def toBool : Data → Bool
  | string s => s.toLower ∉ ["", "0", "false"]
  | bool b => b
  | _ => false

def toList : Data → List Data
  | list l => l
  | _ => []

/-- `toHash().value(k)` -/
def value (k : String) : Data → Data
  | hash h => (h.lookup k).getD invalid
  | _ => invalid

/-- The value is this string. -/
def isString (s : String) : Data → Bool
  | string t => t == s
  | _ => false

/-- An association tree as a value. -/
def ofTree : AssocTree → Data
  | .str s => string s
  | .node n ns => list (string n :: ns.map ofTree)

end Data

structure ContextProviderInfo where
  plugin : String
  constructionString : String
  deriving DecidableEq, Repr

/-- The answers of a backend. -/
structure InfoBackend where
  listKeys : List String
  typeInfoForKey : String → Data
  docForKey : String → String
  keyDeclared : String → Bool
  keyDeprecated : String → Bool
  providersForKey : String → List ContextProviderInfo

/-- Two backends list the same keys and answer the same about every key but the empty one. -/
structure InfoBackend.Agree (a b : InfoBackend) : Prop where
  listKeys : ∀ key, key ∈ a.listKeys ↔ key ∈ b.listKeys
  typeInfoForKey : ∀ key ≠ "", a.typeInfoForKey key = b.typeInfoForKey key
  docForKey : ∀ key ≠ "", a.docForKey key = b.docForKey key
  keyDeclared : ∀ key ≠ "", a.keyDeclared key = b.keyDeclared key
  keyDeprecated : ∀ key ≠ "", a.keyDeprecated key = b.keyDeprecated key
  providersForKey : ∀ key ≠ "", a.providersForKey key = b.providersForKey key

/-- The keys for which `keyChanged` is emitted, in this order. -/
def checkAndEmitKeyChanged (currentKeys oldKeys : List String) : List String :=
  oldKeys ++ currentKeys.filter fun key => key ∉ oldKeys

theorem mem_checkAndEmitKeyChanged {key : String} (currentKeys oldKeys : List String) :
    key ∈ checkAndEmitKeyChanged currentKeys oldKeys ↔ key ∈ oldKeys ∨ key ∈ currentKeys := by
  rw [checkAndEmitKeyChanged, List.mem_append, List.mem_filter]
  by_cases hold : key ∈ oldKeys <;> simp [hold]

/-- No key is emitted twice, if none is listed twice. -/
theorem nodup_checkAndEmitKeyChanged {currentKeys oldKeys : List String}
    (hcurrent : currentKeys.Nodup) (hold : oldKeys.Nodup) :
    (checkAndEmitKeyChanged currentKeys oldKeys).Nodup := by
  apply List.Nodup.append hold (hcurrent.filter _)
  intro key hkey hnew
  have hnot := (List.mem_filter.1 hnew).2
  simp [hkey] at hnot

end ContextRegistry
