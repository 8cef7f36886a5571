import Mathlib.Data.Finmap
import Mathlib.Data.List.Sort
import Mathlib.Data.String.Basic
import ContextKit.Registry.InfoBackend

/-!
# `InfoXmlBackend`: the registry read from XML files

The backend reads the file of the core declarations and then the files of the registry directory
whose name is `*.context`, in the order in which `QDir` lists them.  A file declares keys, each with
the provider it stands in.  The first declaration of a key decides its type, documentation and
deprecation; every declaration of it may add a provider.

`KeyHashes` are the two hashes of the backend with what their insertions keep: the data of a key has
its name, and only keys that are declared have providers.  `lookup_parse` and `providers_parse` say
what is found in them: the first declaration of a key and the providers of all.
-/

namespace ContextRegistry
open ContextKit

/-- A parsed XML file: the namespace it names, and the root element. -/
structure Document where
  namespaceUri : String
  name : String
  nodes : List AssocTree

/-- A file of the registry, `none` if it cannot be parsed. -/
abbrev File := Option Document

structure InfoKeyData where
  name : String
  typeInfo : Option AssocTree
  doc : String
  deprecated : Bool

/-- `toString()` of a tree that may be null. -/
def textOf : Option AssocTree → String
  | some (.str s) => s
  | _ => ""

/-- `ContextTypeInfo::ensureNewTypes` -/
def ensureNewTypes : Option AssocTree → Option AssocTree
  | none => none
  | some t =>
    if t.name = "TRUTH" then some (.str "bool")
    else if t.name = "INT" ∨ t.name = "INTEGER" then some (.str "integer")
    else if t.name = "STRING" then some (.str "string")
    else if t.name = "DOUBLE" then some (.str "number")
    else some t

/-- `keyDataHash` and `keyProvidersHash` -/
structure KeyHashes where
  keyDataHash : AList fun _ : String => InfoKeyData
  keyProvidersHash : AList fun _ : String => List ContextProviderInfo
  name_eq : ∀ key data, keyDataHash.lookup key = some data → data.name = key
  declared : ∀ key, key ∈ keyProvidersHash → key ∈ keyDataHash

namespace KeyHashes

/-- After `clear()`. -/
def empty : KeyHashes where
  keyDataHash := ∅
  keyProvidersHash := ∅
  name_eq := by simp
  declared := by simp

/-- Adds the data of a key that is new. -/
def addKey (h : KeyHashes) (data : InfoKeyData) : KeyHashes :=
  if data.name ∈ h.keyDataHash then h
  else
    { h with
      keyDataHash := h.keyDataHash.insert data.name data
      name_eq := by
        intro key data' hlookup
        by_cases hkey : key = data.name
        · subst hkey
          rw [AList.lookup_insert] at hlookup
          rw [Option.some.inj hlookup]
        · rw [AList.lookup_insert_ne hkey] at hlookup
          exact h.name_eq key data' hlookup
      declared := fun key hkey => (AList.mem_insert _).2 (Or.inr (h.declared key hkey)) }

theorem mem_addKey (h : KeyHashes) (data : InfoKeyData) (key : String) :
    key ∈ (h.addKey data).keyDataHash ↔ key = data.name ∨ key ∈ h.keyDataHash := by
  unfold addKey
  split_ifs with hmem
  · constructor
    · exact Or.inr
    · rintro (rfl | hkey)
      exacts [hmem, hkey]
  · exact AList.mem_insert _

/-- One more provider of a declared key. -/
def addProvider (h : KeyHashes) (key : String) (hkey : key ∈ h.keyDataHash)
    (info : ContextProviderInfo) : KeyHashes :=
  { h with
    keyProvidersHash := h.keyProvidersHash.insert key
      ((h.keyProvidersHash.lookup key).getD [] ++ [info])
    declared := by
      intro key' hmem
      rcases (AList.mem_insert _).1 hmem with rfl | hmem
      exacts [hkey, h.declared key' hmem] }

end KeyHashes

/-! ### Parsing -/

/-- The data that a `key` tree declares. -/
def keyData (keyTree : AssocTree) : InfoKeyData where
  name := textOf (keyTree.valueOf "name")
  typeInfo := ensureNewTypes (keyTree.valueOf "type")
  doc := textOf (keyTree.valueOf "doc")
  deprecated := (AssocTree.firstNode "deprecated" keyTree.nodes).isSome

/-- The provider that a `provider` tree names, with an empty plugin if it names none. -/
def providerInfo (providerTree : AssocTree) : ContextProviderInfo :=
  let plugin := textOf (providerTree.valueOf "plugin")
  let constructionString := textOf (providerTree.valueOf "constructionString")
  if plugin = "" then
    -- the old style names a service on a bus
    let currentProvider := textOf (providerTree.valueOf "service")
    let currentBus := textOf (providerTree.valueOf "bus")
    if currentBus ≠ "" ∧ currentProvider ≠ "" then
      ⟨"contextkit-dbus", currentBus ++ ":" ++ currentProvider⟩
    else ⟨plugin, ""⟩
  else ⟨plugin, constructionString⟩

def parseKey (h : KeyHashes) (keyTree providerTree : AssocTree) : KeyHashes :=
  let h' := h.addKey (keyData keyTree)
  let info := providerInfo providerTree
  if info.plugin = "" then h'
  else h'.addProvider (keyData keyTree).name ((h.mem_addKey _ _).2 (Or.inl rfl)) info

/-- The loop over the keys of a provider. -/
def readKeys (h : KeyHashes) (providerTree : AssocTree) : KeyHashes :=
  providerTree.nodes.foldl
    (fun h keyTree => if keyTree.name = "key" then parseKey h keyTree providerTree else h) h

/-- The root is one provider, or has the providers as nodes. -/
def readKeyDataFromXml (h : KeyHashes) : File → KeyHashes
  | none => h
  | some d =>
    if d.namespaceUri ≠ "" ∧ d.namespaceUri ≠ compatibilityNamespace then h
    else if d.name = "provider" ∨ d.name = "properties" then readKeys h (.node d.name d.nodes)
    else
      d.nodes.foldl
        (fun h providerTree => if providerTree.name = "provider" then readKeys h providerTree else h)
        h

/-! ### The declarations of a file -/

/-- A `key` tree in its `provider` tree. -/
abbrev Declaration := AssocTree × AssocTree

def declarationsOf (providerTree : AssocTree) : List Declaration :=
  (providerTree.nodes.filter fun keyTree => keyTree.name = "key").map fun keyTree =>
    (keyTree, providerTree)

/-- All declarations of a file, in the order in which they are read. -/
def declarations : File → List Declaration
  | none => []
  | some d =>
    if d.namespaceUri ≠ "" ∧ d.namespaceUri ≠ compatibilityNamespace then []
    else if d.name = "provider" ∨ d.name = "properties" then declarationsOf (.node d.name d.nodes)
    else (d.nodes.filter fun providerTree => providerTree.name = "provider").flatMap declarationsOf

def parseAll (h : KeyHashes) (l : List Declaration) : KeyHashes :=
  l.foldl (fun h p => parseKey h p.1 p.2) h

theorem parseAll_append (h : KeyHashes) (l m : List Declaration) :
    parseAll h (l ++ m) = parseAll (parseAll h l) m := List.foldl_append

theorem readKeys_eq (h : KeyHashes) (providerTree : AssocTree) :
    readKeys h providerTree = parseAll h (declarationsOf providerTree) := by
  rw [readKeys, parseAll, declarationsOf, List.foldl_map, List.foldl_filter]
  simp only [decide_eq_true_eq]

theorem readKeyDataFromXml_eq (h : KeyHashes) (f : File) :
    readKeyDataFromXml h f = parseAll h (declarations f) := by
  cases f with
  | none => rfl
  | some d =>
    unfold readKeyDataFromXml declarations
    dsimp only
    split_ifs with hversion hone
    · rfl
    · exact readKeys_eq h _
    · simp only [readKeys_eq]
      rw [parseAll, List.foldl_flatMap, List.foldl_filter]
      simp only [decide_eq_true_eq]
      rfl

/-! ### What the hashes hold -/

theorem lookup_addKey (h : KeyHashes) (data : InfoKeyData) (key : String) :
    (h.addKey data).keyDataHash.lookup key =
      (h.keyDataHash.lookup key).or (if data.name = key then some data else none) := by
  unfold KeyHashes.addKey
  split_ifs with hmem hkey hkey
  · subst hkey
    obtain ⟨old, hold⟩ := Option.isSome_iff_exists.1 (AList.lookup_isSome.2 hmem)
    simp [hold]
  · simp
  · subst hkey
    rw [AList.lookup_eq_none.2 hmem]
    exact AList.lookup_insert _
  · rw [Option.or_none]
    exact AList.lookup_insert_ne (Ne.symm hkey)

/-- The data of a key and its providers, as its declarations in `l` have them. -/
def firstData (l : List Declaration) (key : String) : Option InfoKeyData :=
  (l.map fun p => keyData p.1).find? fun data => data.name = key

def allProviders (l : List Declaration) (key : String) : List ContextProviderInfo :=
  ((l.filter fun p => (keyData p.1).name = key).map fun p => providerInfo p.2).filter
    fun info => info.plugin ≠ ""

theorem allProviders_append (l m : List Declaration) (key : String) :
    allProviders (l ++ m) key = allProviders l key ++ allProviders m key := by
  rw [allProviders, List.filter_append, List.map_append, List.filter_append]
  rfl

theorem lookup_parseKey (h : KeyHashes) (keyTree providerTree : AssocTree) (key : String) :
    (parseKey h keyTree providerTree).keyDataHash.lookup key =
      (h.keyDataHash.lookup key).or (firstData [(keyTree, providerTree)] key) := by
  have hdata : (parseKey h keyTree providerTree).keyDataHash =
      (h.addKey (keyData keyTree)).keyDataHash := by
    unfold parseKey
    dsimp only
    split_ifs <;> rfl
  rw [hdata, lookup_addKey]
  congr 1
  by_cases hkey : (keyData keyTree).name = key <;> simp [firstData, hkey]

theorem providers_addKey (h : KeyHashes) (data : InfoKeyData) :
    (h.addKey data).keyProvidersHash = h.keyProvidersHash := by
  unfold KeyHashes.addKey
  split_ifs <;> rfl

theorem providers_parseKey (h : KeyHashes) (keyTree providerTree : AssocTree) (key : String) :
    ((parseKey h keyTree providerTree).keyProvidersHash.lookup key).getD [] =
      (h.keyProvidersHash.lookup key).getD [] ++ allProviders [(keyTree, providerTree)] key := by
  unfold parseKey
  dsimp only
  split_ifs with hplugin
  · rw [providers_addKey]
    by_cases hkey : (keyData keyTree).name = key <;> simp [allProviders, hkey, hplugin]
  · show ((AList.insert _ _ (KeyHashes.addKey _ _).keyProvidersHash).lookup key).getD [] = _
    rw [providers_addKey]
    by_cases hkey : (keyData keyTree).name = key
    · subst hkey
      rw [AList.lookup_insert]
      simp [allProviders, hplugin]
    · rw [AList.lookup_insert_ne (Ne.symm hkey)]
      simp [allProviders, hkey]

/-- **The first declaration of a key** decides its data. -/
theorem lookup_parseAll (h : KeyHashes) (l : List Declaration) (key : String) :
    (parseAll h l).keyDataHash.lookup key = (h.keyDataHash.lookup key).or (firstData l key) := by
  induction l generalizing h with
  | nil => simp [parseAll, firstData]
  | cons p l ih =>
    show (parseAll (parseKey h p.1 p.2) l).keyDataHash.lookup key = _
    rw [ih, lookup_parseKey, Option.or_assoc]
    congr 1
    by_cases hkey : (keyData p.1).name = key <;> simp [firstData, hkey]

/-- **All declarations of a key** give it their providers, in the order in which they are read. -/
theorem providers_parseAll (h : KeyHashes) (l : List Declaration) (key : String) :
    ((parseAll h l).keyProvidersHash.lookup key).getD [] =
      (h.keyProvidersHash.lookup key).getD [] ++ allProviders l key := by
  induction l generalizing h with
  | nil => simp [parseAll, allProviders]
  | cons p l ih =>
    show ((parseAll (parseKey h p.1 p.2) l).keyProvidersHash.lookup key).getD [] = _
    rw [ih, providers_parseKey, List.append_assoc]
    congr 1
    exact (allProviders_append [p] l key).symm

/-! ### The registry directory -/

/-- The files of a directory by name. -/
abbrev Directory := Finmap fun _ : String => File

/-- The name filter `*.context`, which ignores case, without the hidden files. -/
def isContext (name : String) : Bool :=
  name.toList.head? ≠ some '.' && ".context".toList.isSuffixOf (name.toList.map Char.toLower)

/-- The order in which `QDir` lists names. -/
structure DirOrder where
  list : Finset String → List String
  nodup : ∀ names, (list names).Nodup
  mem_list : ∀ names name, name ∈ list names ↔ name ∈ names

namespace DirOrder

theorem length_list (o : DirOrder) (names : Finset String) : (o.list names).length = names.card := by
  rw [← List.toFinset_card_of_nodup (o.nodup names)]
  congr 1
  ext name
  rw [List.mem_toFinset, o.mem_list]

/-- Ascending names. -/
def byName : DirOrder where
  list names := Quot.liftOn names.val (fun l => l.insertionSort (· ≤ ·)) fun l m h =>
    ((List.perm_insertionSort _ l).trans (h.trans (List.perm_insertionSort _ m).symm)).eq_of_pairwise
      (fun _ _ _ _ => le_antisymm) (List.pairwise_insertionSort _ l)
      (List.pairwise_insertionSort _ m)
  nodup := by
    rintro ⟨l, hl⟩
    induction l using Quot.ind
    exact (List.perm_insertionSort _ _).nodup_iff.2 hl
  mem_list := by
    rintro ⟨l, hl⟩ name
    induction l using Quot.ind
    exact (List.perm_insertionSort _ _).mem_iff

end DirOrder

/-- The `.context` files of a directory. -/
def contextFiles (dir : Directory) : Finset String := dir.keys.filter fun name => isContext name

def entryInfoList (o : DirOrder) (dir : Directory) : List String := o.list (contextFiles dir)

/-! ### The backend -/

structure InfoXmlBackend where
  hashes : KeyHashes
  countOfFilesInLastParse : ℕ
  /-- `watcher.files()` -/
  watchedFiles : List String

namespace InfoXmlBackend

/-- One turn of the loop over the `.context` files. -/
def readEntry (dir : Directory) (b : InfoXmlBackend) (name : String) : InfoXmlBackend where
  hashes := readKeyDataFromXml b.hashes (dir.lookup name).join
  watchedFiles := if name ∈ b.watchedFiles then b.watchedFiles else b.watchedFiles ++ [name]
  countOfFilesInLastParse := b.countOfFilesInLastParse + 1

/-- Everything is read again.  The core declarations and the directory are `none` where they do not
exist. -/
def regenerateKeyDataList (o : DirOrder) (core : Option File) (dir : Option Directory) :
    InfoXmlBackend :=
  let b : InfoXmlBackend :=
    { hashes := (core.elim KeyHashes.empty (readKeyDataFromXml .empty))
      countOfFilesInLastParse := 0
      watchedFiles := [] }
  match dir with
  | none => b
  | some dir => (entryInfoList o dir).foldl (readEntry dir) b

/-- `dir.entryInfoList().size()` -/
def countOfFiles (o : DirOrder) (dir : Option Directory) : ℕ :=
  dir.elim 0 fun dir => (entryInfoList o dir).length

def listKeys (b : InfoXmlBackend) : List String :=
  b.hashes.keyDataHash.keys.map fun key => (b.hashes.keyDataHash.lookup key).elim "" (·.name)

/-- The slot, with the keys for which `keyChanged` is emitted. -/
def onFileChanged (o : DirOrder) (core : Option File) (dir : Option Directory)
    (b : InfoXmlBackend) : InfoXmlBackend × List String :=
  let b' := regenerateKeyDataList o core dir
  (b', checkAndEmitKeyChanged b'.listKeys b.listKeys)

def onDirectoryChanged (o : DirOrder) (core : Option File) (dir : Option Directory)
    (b : InfoXmlBackend) : InfoXmlBackend × List String :=
  if countOfFiles o dir = b.countOfFilesInLastParse then (b, [])
  else
    let b' := regenerateKeyDataList o core dir
    (b', checkAndEmitKeyChanged b'.listKeys b.listKeys)

def docForKey (b : InfoXmlBackend) (key : String) : String :=
  match b.hashes.keyDataHash.lookup key with
  | none => ""
  | some data => data.doc

def keyDeclared (b : InfoXmlBackend) (key : String) : Bool := key ∈ b.hashes.keyDataHash

def keyDeprecated (b : InfoXmlBackend) (key : String) : Bool :=
  match b.hashes.keyDataHash.lookup key with
  | none => false
  | some data => data.deprecated

def providersForKey (b : InfoXmlBackend) (key : String) : List ContextProviderInfo :=
  (b.hashes.keyProvidersHash.lookup key).getD []

def typeInfoForKey (b : InfoXmlBackend) (key : String) : Data :=
  match b.hashes.keyDataHash.lookup key with
  | none => .invalid
  | some data => data.typeInfo.elim .invalid .ofTree

def toInfoBackend (b : InfoXmlBackend) : InfoBackend where
  listKeys := b.listKeys
  typeInfoForKey := b.typeInfoForKey
  docForKey := b.docForKey
  keyDeclared := b.keyDeclared
  keyDeprecated := b.keyDeprecated
  providersForKey := b.providersForKey

variable (o : DirOrder) (core : Option File) (dir : Option Directory)

/-- What the files declare, in the order in which they are read. -/
def allDeclarations : List Declaration :=
  core.elim [] declarations ++
    dir.elim [] fun dir =>
      (entryInfoList o dir).flatMap fun name => declarations (dir.lookup name).join

theorem hashes_foldl_readEntry (dir : Directory) (names : List String) (b : InfoXmlBackend) :
    (names.foldl (readEntry dir) b).hashes =
      parseAll b.hashes (names.flatMap fun name => declarations (dir.lookup name).join) := by
  induction names generalizing b with
  | nil => rfl
  | cons name names ih =>
    rw [List.foldl_cons, ih, List.flatMap_cons, parseAll_append]
    exact congrArg (parseAll · _) (readKeyDataFromXml_eq b.hashes _)

theorem count_foldl_readEntry (dir : Directory) (names : List String) (b : InfoXmlBackend) :
    (names.foldl (readEntry dir) b).countOfFilesInLastParse =
      b.countOfFilesInLastParse + names.length := by
  induction names generalizing b with
  | nil => rfl
  | cons name names ih =>
    rw [List.foldl_cons, ih, List.length_cons]
    show b.countOfFilesInLastParse + 1 + names.length = _
    omega

theorem mem_watched_foldl_readEntry (dir : Directory) (names : List String) (b : InfoXmlBackend)
    (name : String) :
    name ∈ (names.foldl (readEntry dir) b).watchedFiles ↔
      name ∈ b.watchedFiles ∨ name ∈ names := by
  induction names generalizing b with
  | nil => simp
  | cons first names ih =>
    have hfirst : name ∈ (readEntry dir b first).watchedFiles ↔
        name ∈ b.watchedFiles ∨ name = first := by
      unfold readEntry
      dsimp only
      split_ifs with hwatched
      · constructor
        · exact Or.inl
        · rintro (hname | rfl)
          exacts [hname, hwatched]
      · rw [List.mem_append, List.mem_singleton]
    rw [List.foldl_cons, ih, hfirst, List.mem_cons, or_assoc]

/-- **The hashes** are those of all declarations. -/
theorem hashes_regenerate :
    (regenerateKeyDataList o core dir).hashes = parseAll .empty (allDeclarations o core dir) := by
  have hcore : core.elim KeyHashes.empty (readKeyDataFromXml .empty) =
      parseAll .empty (core.elim [] declarations) := by
    cases core with
    | none => rfl
    | some f => exact readKeyDataFromXml_eq _ f
  rw [allDeclarations, parseAll_append, ← hcore]
  cases dir with
  | none => rfl
  | some dir => exact hashes_foldl_readEntry dir _ _

theorem count_regenerate (dir : Directory) :
    (regenerateKeyDataList o core (some dir)).countOfFilesInLastParse = (contextFiles dir).card := by
  rw [← o.length_list, ← Nat.zero_add (o.list _).length]
  exact count_foldl_readEntry dir _ _

theorem mem_watched_regenerate (dir : Directory) (name : String) :
    name ∈ (regenerateKeyDataList o core (some dir)).watchedFiles ↔ name ∈ contextFiles dir := by
  refine (mem_watched_foldl_readEntry dir _ _ name).trans ?_
  rw [entryInfoList, o.mem_list]
  simp

variable (b : InfoXmlBackend)

theorem listKeys_eq : b.listKeys = b.hashes.keyDataHash.keys := by
  rw [listKeys, ← List.map_id b.hashes.keyDataHash.keys, List.map_map]
  apply List.map_congr_left
  intro key hkey
  obtain ⟨data, hdata⟩ := Option.isSome_iff_exists.1 (AList.lookup_isSome.2 (AList.mem_keys.2 hkey))
  simp [hdata, b.hashes.name_eq key data hdata]

theorem nodup_listKeys : b.listKeys.Nodup := by
  rw [listKeys_eq]
  exact b.hashes.keyDataHash.keys_nodup

theorem mem_listKeys {key : String} : key ∈ b.listKeys ↔ key ∈ b.hashes.keyDataHash := by
  rw [listKeys_eq, AList.mem_keys]

/-- All that is answered for a key that is not declared. -/
theorem answers_of_notMem {key : String} (h : key ∉ b.listKeys) :
    b.typeInfoForKey key = .invalid ∧ b.docForKey key = "" ∧ b.keyDeclared key = false ∧
      b.keyDeprecated key = false ∧ b.providersForKey key = [] := by
  rw [mem_listKeys] at h
  have hdata : b.hashes.keyDataHash.lookup key = none := AList.lookup_eq_none.2 h
  have hproviders : b.hashes.keyProvidersHash.lookup key = none :=
    AList.lookup_eq_none.2 fun hmem => h (b.hashes.declared key hmem)
  simp [typeInfoForKey, docForKey, keyDeclared, keyDeprecated, providersForKey, hdata, hproviders, h]

end InfoXmlBackend

end ContextRegistry
