import Mathlib.Data.Int.Notation
import ContextKit.Collections.Multimap
import ContextKit.Registry.InfoBackend

/-!
# `InfoCdbBackend`: the registry read from the compiled database

The database maps strings to values, several for a key.  The backend keeps it open and asks it anew
for every answer: the keys are the values of `KEYS`, and everything about one of them stands under
the key with a suffix.

An open database does not change: a new one is written to a file of another name, which is then
renamed.  The backend notices that by the inode, if `stat` finds one under `databasePath()`.
-/

namespace ContextRegistry

abbrev Database := Multimap String Data

/-- What opening a database comes to: it is not opened, its file is open but not a database, or it
can be read. -/
inductive CDBReader
  | closed
  | invalid
  | reading (db : Database)

namespace CDBReader

def isReadable : CDBReader → Bool
  | closed => false
  | _ => true

def valuesForKey (key : String) : CDBReader → List Data
  | reading db => db.values key
  | _ => []

/-- The first value. -/
def valueForKey (key : String) (r : CDBReader) : Data := ((r.valuesForKey key).head?).getD .invalid

end CDBReader

/-- The file `cache.cdb`, with what opening it comes to. -/
structure DatabaseFile where
  inode : ℕ
  content : CDBReader

/-- The inode, 0 without a file. -/
def inodeOf (file : Option DatabaseFile) : ℕ := file.elim 0 (·.inode)

/-- `stat`.  It is given the path in Latin-1, `open` is given it in UTF-8; unless the path is ASCII,
`stat` finds no file. -/
def stat (path : List Char) (file : Option DatabaseFile) : ℕ :=
  if path.all fun c => c.toNat < 128 then inodeOf file else 0

/-- `reopen()` -/
def reopen (file : Option DatabaseFile) : CDBReader := file.elim .closed (·.content)

structure InfoCdbBackend where
  reader : CDBReader
  databaseCompatible : Bool
  lastInode : ℕ

namespace InfoCdbBackend

def checkCompatibility (reader : CDBReader) : Bool :=
  if reader.isReadable then
    let version := (reader.valueForKey "VERSION").toString
    !(version ≠ "" && version ≠ compatibilityNamespace)
  else false

/-- The constructor, with the path of the database and the file there. -/
def create (path : List Char) (file : Option DatabaseFile) : InfoCdbBackend where
  reader := reopen file
  databaseCompatible := checkCompatibility (reopen file)
  lastInode := stat path file

def listKeys (b : InfoCdbBackend) : List String :=
  if b.databaseCompatible then (b.reader.valuesForKey "KEYS").map Data.toString else []

/-- The database opened anew; whether it is compatible is only looked at if it can be read. -/
def reopened (path : List Char) (file : Option DatabaseFile) (b : InfoCdbBackend) :
    InfoCdbBackend where
  reader := reopen file
  databaseCompatible :=
    if (reopen file).isReadable then checkCompatibility (reopen file) else b.databaseCompatible
  lastInode := stat path file

/-- The slot, with the keys for which `keyChanged` is emitted. -/
def onDatabaseDirectoryChanged (path : List Char) (file : Option DatabaseFile)
    (connectCount : ℤ) (b : InfoCdbBackend) : InfoCdbBackend × List String :=
  if b.lastInode ≠ stat path file then
    let oldKeys := b.listKeys
    let b' := b.reopened path file
    if connectCount = 0 then (b', [])
    else (b', checkAndEmitKeyChanged b'.listKeys oldKeys)
  else (b, [])

def docForKey (b : InfoCdbBackend) (key : String) : String :=
  if b.databaseCompatible then (b.reader.valueForKey (key ++ ":KEYDOC")).toString else ""

def keyDeclared (b : InfoCdbBackend) (key : String) : Bool :=
  if b.databaseCompatible then (b.reader.valuesForKey "KEYS").any (Data.isString key) else false

def keyDeprecated (b : InfoCdbBackend) (key : String) : Bool :=
  if b.databaseCompatible then (b.reader.valueForKey (key ++ ":KEYDEPRECATED")).toBool else false

def providersForKey (b : InfoCdbBackend) (key : String) : List ContextProviderInfo :=
  if b.databaseCompatible then
    (b.reader.valueForKey (key ++ ":PROVIDERS")).toList.map fun v =>
      ⟨(v.value "plugin").toString, (v.value "constructionString").toString⟩
  else []

/-- The type is answered from an incompatible database as well. -/
def typeInfoForKey (b : InfoCdbBackend) (key : String) : Data :=
  b.reader.valueForKey (key ++ ":KEYTYPEINFO")

def toInfoBackend (b : InfoCdbBackend) : InfoBackend where
  listKeys := b.listKeys
  typeInfoForKey := b.typeInfoForKey
  docForKey := b.docForKey
  keyDeclared := b.keyDeclared
  keyDeprecated := b.keyDeprecated
  providersForKey := b.providersForKey

end InfoCdbBackend

end ContextRegistry
