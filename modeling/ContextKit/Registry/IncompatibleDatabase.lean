import ContextKit.Registry.UpdateContextProviders
import ContextKit.Transition.Run

/-!
# A database of another version

A database says in `VERSION` how it is to be read.  One of another version is not to be read at all:
`checkCompatibility` looks at `VERSION`, and the backend answers as if nothing was registered.

The file comes and goes, and `onDatabaseDirectoryChanged` runs each time.  The backend looks at the
version only of what it can read, so after a removal it still holds the answer for the file that is
gone; this does no harm, as a closed reader answers nothing.  Under a path where `stat` finds no
file nothing is noticed at all, and the backend goes on to answer from the file it opened first.
`Current` is what holds all along.

The type of a key is answered from any database, and an empty `VERSION` is taken for none.
`toInfoBackend_eq_empty_iff` says that nothing else gets through.
-/

namespace ContextRegistry
open Transition

namespace InfoBackend

/-- Nothing is registered. -/
def empty : InfoBackend where
  listKeys := []
  typeInfoForKey _ := .invalid
  docForKey _ := ""
  keyDeclared _ := false
  keyDeprecated _ := false
  providersForKey _ := []

end InfoBackend

/-! ### Histories of the file -/

/-- The file at the path, and the backend. -/
structure WatchedDatabase where
  file : Option DatabaseFile
  backend : InfoCdbBackend

namespace WatchedDatabase

/-- The file is removed, created or replaced by another one; or something else changes in the
directory.  The slot runs either way, with so many connections to the backend. -/
inductive Event
  | fileChanged (file : Option DatabaseFile) (connectCount : ℤ)
  | otherChanged (connectCount : ℤ)

/-- A file that is renamed to the path of another one is there before the other is gone, so it has
another inode. -/
def step (path : List Char) (s : WatchedDatabase) : Event → Option WatchedDatabase
  | .fileChanged file connectCount =>
    if inodeOf file = inodeOf s.file then none
    else some ⟨file, (s.backend.onDatabaseDirectoryChanged path file connectCount).1⟩
  | .otherChanged connectCount =>
    some { s with backend := (s.backend.onDatabaseDirectoryChanged path s.file connectCount).1 }

/-- The backend has just been made. -/
def start (path : List Char) (file : Option DatabaseFile) : WatchedDatabase :=
  ⟨file, .create path file⟩

/-- The file that the backend has opened, once every change was handled: the one that is there, or
the one that was there at first under a path where `stat` finds no file. -/
def openedFile (path : List Char) (first now : Option DatabaseFile) : Option DatabaseFile :=
  if path.all fun c => c.toNat < 128 then now else first

/-- The backend has opened its file, and knows whether it is compatible if it can be read. -/
structure Current (path : List Char) (first : Option DatabaseFile) (s : WatchedDatabase) :
    Prop where
  reader : s.backend.reader = reopen (openedFile path first s.file)
  inode : s.backend.lastInode = stat path s.file
  compatible : (reopen (openedFile path first s.file)).isReadable →
    s.backend.databaseCompatible =
      InfoCdbBackend.checkCompatibility (reopen (openedFile path first s.file))

variable {path : List Char} {first : Option DatabaseFile}

theorem current_start : Current path first (start path first) := by
  have hfirst : openedFile path first first = first := ite_self ..
  constructor
  · rw [start, hfirst]
    rfl
  · rfl
  · rw [start, hfirst]
    exact fun _ => rfl

theorem onDatabaseDirectoryChanged_of_ne {file : Option DatabaseFile} {b : InfoCdbBackend}
    (h : b.lastInode ≠ stat path file) (connectCount : ℤ) :
    (b.onDatabaseDirectoryChanged path file connectCount).1 = b.reopened path file := by
  rw [InfoCdbBackend.onDatabaseDirectoryChanged, if_pos h]
  split <;> rfl

theorem onDatabaseDirectoryChanged_of_eq {file : Option DatabaseFile} {b : InfoCdbBackend}
    (h : b.lastInode = stat path file) (connectCount : ℤ) :
    (b.onDatabaseDirectoryChanged path file connectCount).1 = b := by
  rw [InfoCdbBackend.onDatabaseDirectoryChanged, if_neg (not_not.2 h)]

theorem current_step {s t : WatchedDatabase} {e : Event} (hs : Current path first s)
    (h : step path s e = some t) : Current path first t := by
  cases e with
  | fileChanged file connectCount =>
    obtain ⟨hne, ht⟩ := Option.ite_none_left_eq_some.1 h
    cases ht
    by_cases hpath : path.all fun c => c.toNat < 128
    · -- The inode is another one, so the file is opened.
      have hstat (f : Option DatabaseFile) : stat path f = inodeOf f := if_pos hpath
      have hfile : openedFile path first file = file := if_pos hpath
      have hchanged : s.backend.lastInode ≠ stat path file := by
        rw [hs.inode, hstat, hstat]
        exact fun heq => hne heq.symm
      rw [onDatabaseDirectoryChanged_of_ne hchanged]
      constructor
      · rw [hfile]
        rfl
      · rfl
      · rw [hfile]
        exact fun hreadable => if_pos hreadable
    · -- No change is noticed.
      have hstat : stat path s.file = stat path file := (if_neg hpath).trans (if_neg hpath).symm
      have hfile : openedFile path first file = openedFile path first s.file :=
        (if_neg hpath).trans (if_neg hpath).symm
      have hsame : s.backend.lastInode = stat path file := hs.inode.trans hstat
      rw [onDatabaseDirectoryChanged_of_eq hsame]
      constructor
      · rw [hfile]
        exact hs.reader
      · exact hsame
      · rw [hfile]
        exact hs.compatible
  | otherChanged connectCount =>
    cases h
    rw [onDatabaseDirectoryChanged_of_eq hs.inode]
    exact hs

theorem current_run {es : List Event} {s : WatchedDatabase}
    (h : run (step path) (start path first) es = some s) : Current path first s :=
  run_inv (fun _ _ _ => current_step) current_start h

end WatchedDatabase

/-! ### What an incompatible database answers -/

namespace InfoCdbBackend

theorem toInfoBackend_of_closed {b : InfoCdbBackend} (h : b.reader = .closed) :
    b.toInfoBackend = .empty := by
  obtain ⟨reader, compatible, inode⟩ := b
  obtain rfl : reader = .closed := h
  cases compatible <;> rfl

/-- Nor is anything answered from a file that is no database. -/
theorem toInfoBackend_of_invalid {b : InfoCdbBackend} (h : b.reader = .invalid) :
    b.toInfoBackend = .empty := by
  obtain ⟨reader, compatible, inode⟩ := b
  obtain rfl : reader = .invalid := h
  cases compatible <;> rfl

theorem ext_empty_iff {b : InfoCdbBackend} :
    b.toInfoBackend = .empty ↔
      b.listKeys = [] ∧ ∀ key, b.typeInfoForKey key = .invalid ∧ b.docForKey key = "" ∧
        b.keyDeclared key = false ∧ b.keyDeprecated key = false ∧ b.providersForKey key = [] := by
  simp only [toInfoBackend, InfoBackend.empty, InfoBackend.mk.injEq, funext_iff, forall_and]

end InfoCdbBackend

/-- No key has a type. -/
def NoTypes (db : Database) : Prop :=
  ∀ key, ∀ v ∈ (db.values (key ++ ":KEYTYPEINFO")).head?, v = Data.invalid

/-- No key is declared, and none has a documentation, is deprecated or has a provider. -/
structure NoKeys (db : Database) : Prop where
  keys : db.values "KEYS" = []
  doc : ∀ key, ∀ v ∈ (db.values (key ++ ":KEYDOC")).head?, v.toString = ""
  deprecated : ∀ key, ∀ v ∈ (db.values (key ++ ":KEYDEPRECATED")).head?, v.toBool = false
  providers : ∀ key, ∀ v ∈ (db.values (key ++ ":PROVIDERS")).head?, v.toList = []

/-- The text of the first `VERSION`, if there is one. -/
def versionOf (db : Database) : Option String := ((db.values "VERSION").head?).map Data.toString

/-- There is a `VERSION`, and not the supported one. -/
def Incompatible (db : Database) : Prop :=
  ∃ version ∈ versionOf db, version ≠ compatibilityNamespace

namespace CDBReader

/-- A property of the first value that an invalid one has too. -/
theorem valueForKey_iff {P : Data → Prop} (h : P .invalid) (key : String) (db : Database) :
    P ((reading db).valueForKey key) ↔ ∀ v ∈ (db.values key).head?, P v := by
  rw [valueForKey, valuesForKey]
  cases (db.values key).head? with
  | none => simpa using h
  | some v => simp

end CDBReader

namespace InfoCdbBackend

/-- A version that is the empty text passes as well. -/
theorem checkCompatibility_reading (db : Database) :
    checkCompatibility (.reading db) = false ↔ Incompatible db ∧ versionOf db ≠ some "" := by
  rw [checkCompatibility, CDBReader.valueForKey, CDBReader.valuesForKey, Incompatible, versionOf]
  cases (db.values "VERSION").head? with
  | none => simp [CDBReader.isReadable, Data.toString]
  | some v => simp [CDBReader.isReadable, and_comm]

/-- The type is what is left of a database that is known to be incompatible. -/
theorem toInfoBackend_of_incompatible {b : InfoCdbBackend} {db : Database}
    (hreader : b.reader = .reading db) (hflag : b.databaseCompatible = false) :
    b.toInfoBackend = .empty ↔ NoTypes db := by
  rw [ext_empty_iff]
  simp only [listKeys, docForKey, keyDeclared, keyDeprecated, providersForKey, typeInfoForKey, hflag,
    hreader, Bool.false_eq_true, if_false, true_and, and_true]
  exact forall_congr' fun key => CDBReader.valueForKey_iff (P := fun v => v = .invalid) rfl _ db

/-- Everything is answered from a database that is taken for a compatible one. -/
theorem toInfoBackend_of_compatible {b : InfoCdbBackend} {db : Database}
    (hreader : b.reader = .reading db) (hflag : b.databaseCompatible = true) :
    b.toInfoBackend = .empty ↔ NoTypes db ∧ NoKeys db := by
  have htypes (key : String) := CDBReader.valueForKey_iff (P := fun v => v = .invalid) rfl
    (key ++ ":KEYTYPEINFO") db
  have hdoc (key : String) := CDBReader.valueForKey_iff (P := fun v => v.toString = "") rfl
    (key ++ ":KEYDOC") db
  have hdeprecated (key : String) := CDBReader.valueForKey_iff (P := fun v => v.toBool = false) rfl
    (key ++ ":KEYDEPRECATED") db
  have hproviders (key : String) := CDBReader.valueForKey_iff (P := fun v => v.toList = []) rfl
    (key ++ ":PROVIDERS") db
  rw [ext_empty_iff]
  simp only [listKeys, docForKey, keyDeclared, keyDeprecated, providersForKey, typeInfoForKey, hflag,
    hreader, if_true, List.map_eq_nil_iff, htypes, hdoc, hdeprecated, hproviders]
  constructor
  · rintro ⟨hkeys, h⟩
    exact ⟨fun key => (h key).1, hkeys, fun key => (h key).2.1, fun key => (h key).2.2.2.1,
      fun key => (h key).2.2.2.2⟩
  · rintro ⟨ht, hkeys, hd, hdep, hprov⟩
    refine ⟨hkeys, fun key => ⟨ht key, hd key, ?_, hdep key, hprov key⟩⟩
    rw [CDBReader.valuesForKey, hkeys]
    rfl

end InfoCdbBackend

namespace WatchedDatabase

/-- **What an incompatible database answers.**  After every history of the file, the backend
answers as if nothing was registered if and only if the file that it has opened is no database, or
one that holds no type and, unless its version is another one and not the empty text, no key. -/
theorem toInfoBackend_eq_empty_iff {es : List Event} {s : WatchedDatabase}
    (h : run (step path) (start path first) es = some s) :
    s.backend.toInfoBackend = .empty ↔
      ∀ inode db, openedFile path first s.file = some ⟨inode, .reading db⟩ →
        NoTypes db ∧ (Incompatible db ∧ versionOf db ≠ some "" ∨ NoKeys db) := by
  have hs := current_run h
  cases hfile : openedFile path first s.file with
  | none =>
    have hreader : s.backend.reader = .closed := by rw [hs.reader, hfile]; rfl
    exact iff_of_true (InfoCdbBackend.toInfoBackend_of_closed hreader) fun _ _ hdb => by cases hdb
  | some file =>
    obtain ⟨inode, content⟩ := file
    have hreader : s.backend.reader = content := by rw [hs.reader, hfile]; rfl
    cases content with
    | closed =>
      exact iff_of_true (InfoCdbBackend.toInfoBackend_of_closed hreader) fun _ _ hdb => by cases hdb
    | invalid =>
      exact iff_of_true (InfoCdbBackend.toInfoBackend_of_invalid hreader) fun _ _ hdb => by cases hdb
    | reading db =>
      have hflag : s.backend.databaseCompatible =
          InfoCdbBackend.checkCompatibility (.reading db) := by
        have hcompatible := hs.compatible
        rw [hfile] at hcompatible
        exact hcompatible rfl
      have hall : (∀ inode' db', some (DatabaseFile.mk inode (.reading db)) =
          some ⟨inode', .reading db'⟩ →
            NoTypes db' ∧ (Incompatible db' ∧ versionOf db' ≠ some "" ∨ NoKeys db')) ↔
          NoTypes db ∧ (Incompatible db ∧ versionOf db ≠ some "" ∨ NoKeys db) := by
        refine ⟨fun hdb => hdb inode db rfl, fun hdb _ _ heq => ?_⟩
        cases heq
        exact hdb
      rw [hall, ← InfoCdbBackend.checkCompatibility_reading]
      cases hcheck : InfoCdbBackend.checkCompatibility (.reading db) with
      | false => simp [InfoCdbBackend.toInfoBackend_of_incompatible hreader (hflag.trans hcheck)]
      | true => simp [InfoCdbBackend.toInfoBackend_of_compatible hreader (hflag.trans hcheck)]

/-- A database of the version `0.2` that declares a key, with its type or without. -/
def oldDatabase (types : Database) : Database :=
  [("VERSION", .string "0.2"), ("KEYS", .string "Battery.Charging")] ++ types

theorem incompatible_oldDatabase (types : Database) : Incompatible (oldDatabase types) :=
  ⟨"0.2", rfl, by decide⟩

theorem noTypes_oldDatabase : NoTypes (oldDatabase []) := by
  intro key
  have hversion : "VERSION" ≠ key ++ ":KEYTYPEINFO" :=
    (append_suffix_ne (by decide) (by decide) key).symm
  have hkeys : "KEYS" ≠ key ++ ":KEYTYPEINFO" :=
    (append_suffix_ne (by decide) (by decide) key).symm
  simp [oldDatabase, Multimap.values, hversion, hkeys]

/-- Nothing is answered from the old database if it holds no type. -/
theorem toInfoBackend_eq_empty_iff_old :
    let first : Option DatabaseFile := some ⟨7, .reading (oldDatabase [])⟩
    ∃ s, run (step "/cache.cdb".toList) (start "/cache.cdb".toList first) [.otherChanged 0] =
        some s ∧
      s.backend.toInfoBackend = .empty := by
  intro first
  have hrun : run (step "/cache.cdb".toList) (start "/cache.cdb".toList first) [.otherChanged 0] =
    some _ := rfl
  refine ⟨_, hrun, (toInfoBackend_eq_empty_iff hrun).2 fun inode db hdb => ?_⟩
  have hfirst : openedFile "/cache.cdb".toList first first = first := ite_self ..
  have hdb : some (DatabaseFile.mk 7 (.reading (oldDatabase []))) = some ⟨inode, .reading db⟩ :=
    hfirst.symm.trans hdb
  cases hdb
  exact ⟨noTypes_oldDatabase, Or.inl ⟨incompatible_oldDatabase [], by decide⟩⟩

/-- Under a path that is not ASCII the removal of a database is not noticed. -/
example : ((run (step "/é/cache.cdb".toList) (start "/é/cache.cdb".toList
    (some ⟨7, .reading [("KEYS", .string "Battery.Charging")]⟩)) [.fileChanged none 0]).map
      fun s => s.backend.listKeys) = some ["Battery.Charging"] := by decide

/-- The old database is put in the place of none, and its type is answered. -/
theorem exists_incompatible_answers :
    ∃ es s inode db, run (step "/cache.cdb".toList) (start "/cache.cdb".toList none) es = some s ∧
      s.file = some ⟨inode, .reading db⟩ ∧ Incompatible db ∧ s.backend.toInfoBackend ≠ .empty := by
  refine ⟨[.fileChanged (some ⟨7, .reading (oldDatabase
    [("Battery.Charging:KEYTYPEINFO", .string "bool")])⟩) 0], _, 7, _, rfl, rfl,
    incompatible_oldDatabase _, ?_⟩
  intro h
  have htype := (InfoCdbBackend.ext_empty_iff.1 h).2 "Battery.Charging"
  exact Data.noConfusion htype.1

end WatchedDatabase

end ContextRegistry
