import ContextKit.Registry.InfoXmlBackend

/-!
# How the declarations of a registry combine

A key may be declared in the core file and in any number of files of the directory, and more than
once in one of them.  `filesRead` are the files in the order in which they are read, and
`registry_combines` says what the backend answers once it has read them: a key has the type, the
documentation and the deprecation of its first declaration, and the providers of all of them.
-/

namespace ContextRegistry
open ContextKit

/-! ### What a file declares -/

/-- The namespace is none, or the supported one. -/
def Document.Accepted (d : Document) : Prop :=
  d.namespaceUri = "" ∨ d.namespaceUri = compatibilityNamespace

/-- The tree of one provider: the root of the document, or one of several in it. -/
def Document.IsProvider (d : Document) (providerTree : AssocTree) : Prop :=
  if d.name = "provider" ∨ d.name = "properties" then providerTree = .node d.name d.nodes
  else providerTree ∈ d.nodes ∧ providerTree.name = "provider"

/-- The file could be parsed, is of the supported version, and has the `key` tree in the tree of a
provider. -/
def Declares (f : File) (p : Declaration) : Prop :=
  ∃ d, f = some d ∧ d.Accepted ∧ d.IsProvider p.2 ∧ p.1 ∈ p.2.nodes ∧ p.1.name = "key"

/-- The name that is declared; without one it is empty. -/
def keyName (p : Declaration) : String := textOf (p.1.valueOf "name")

/-- The provider of a declaration, if it names one: a plugin with its construction string, or a
service on a bus. -/
def namedProvider (p : Declaration) : Option ContextProviderInfo :=
  let plugin := textOf (p.2.valueOf "plugin")
  let bus := textOf (p.2.valueOf "bus")
  let service := textOf (p.2.valueOf "service")
  if plugin ≠ "" then some ⟨plugin, textOf (p.2.valueOf "constructionString")⟩
  else if bus ≠ "" ∧ service ≠ "" then some ⟨"contextkit-dbus", bus ++ ":" ++ service⟩
  else none

theorem mem_declarationsOf {providerTree : AssocTree} {p : Declaration} :
    p ∈ declarationsOf providerTree ↔
      p.2 = providerTree ∧ p.1 ∈ providerTree.nodes ∧ p.1.name = "key" := by
  obtain ⟨keyTree, q⟩ := p
  simp only [declarationsOf, List.mem_map, List.mem_filter, decide_eq_true_eq, Prod.mk.injEq]
  constructor
  · rintro ⟨k, hk, rfl, rfl⟩
    exact ⟨rfl, hk⟩
  · rintro ⟨rfl, hk⟩
    exact ⟨keyTree, hk, rfl, rfl⟩

theorem mem_declarations {f : File} {p : Declaration} : p ∈ declarations f ↔ Declares f p := by
  cases f with
  | none => simp [declarations, Declares]
  | some d =>
    simp only [declarations, Declares, Option.some.injEq, exists_eq_left', Document.IsProvider]
    by_cases hversion : d.Accepted
    · have hkept : ¬ (d.namespaceUri ≠ "" ∧ d.namespaceUri ≠ compatibilityNamespace) := fun h =>
        not_or.2 h hversion
      rw [if_neg hkept, and_iff_right hversion]
      split_ifs
      · rw [mem_declarationsOf]
        refine and_congr_right fun hp => ?_
        rw [hp]
      · simp only [List.mem_flatMap, List.mem_filter, decide_eq_true_eq, mem_declarationsOf]
        constructor
        · rintro ⟨q, hq, hp, hk⟩
          rw [hp]
          exact ⟨hq, hk⟩
        · rintro ⟨hq, hk⟩
          exact ⟨p.2, hq, rfl, hk⟩
    · rw [if_pos (not_or.1 hversion)]
      simp [hversion]

/-- `parseKey` adds no provider exactly if none is named. -/
theorem namedProvider_eq (p : Declaration) :
    namedProvider p =
      if (providerInfo p.2).plugin ≠ "" then some (providerInfo p.2) else none := by
  unfold namedProvider providerInfo
  dsimp only
  by_cases hplugin : textOf (p.2.valueOf "plugin") = ""
  · by_cases hold : textOf (p.2.valueOf "bus") ≠ "" ∧ textOf (p.2.valueOf "service") ≠ ""
    · simp [hplugin, hold]
    · simp [hplugin, if_neg hold]
  · simp [hplugin]

/-! ### What the hashes hold, by declaration -/

theorem firstData_eq (l : List Declaration) (key : String) :
    firstData l key = (l.find? fun p => keyName p = key).map fun p => keyData p.1 := by
  rw [firstData, List.find?_map]
  rfl

theorem allProviders_eq (l : List Declaration) (key : String) :
    allProviders l key = (l.filter fun p => keyName p = key).filterMap namedProvider := by
  have hnamed : namedProvider = fun p =>
      if (providerInfo p.2).plugin ≠ "" then some (providerInfo p.2) else none :=
    funext namedProvider_eq
  rw [hnamed, allProviders]
  show (((l.filter fun p => keyName p = key).map fun p => providerInfo p.2).filter _) = _
  induction l.filter fun p => keyName p = key with
  | nil => rfl
  | cons p l ih =>
    rw [List.map_cons, List.filter_cons, List.filterMap_cons, ih]
    by_cases hplugin : (providerInfo p.2).plugin = ""
    · simp [hplugin]
    · simp [hplugin]

/-! ### The files in the order in which they are read -/

/-- The core file, and the files of the directory in the order of `QDir`. -/
def filesRead (o : DirOrder) (core : Option File) (dir : Option Directory) : List File :=
  core.toList ++ dir.elim [] fun dir =>
    (entryInfoList o dir).map fun name => (dir.lookup name).join

/-- The files are the core file and after it those of the directory that are named `*.context` and
not hidden, each once. -/
def FilesOf (core : Option File) (dir : Option Directory) (files : List File) : Prop :=
  ∃ names : List String, names.Nodup ∧
    (∀ name, name ∈ names ↔ isContext name = true ∧ ∃ d ∈ dir, name ∈ d) ∧
    files = core.toList ++ names.map fun name => (dir.bind fun d => d.lookup name).join

theorem filesOf_filesRead (o : DirOrder) (core : Option File) (dir : Option Directory) :
    FilesOf core dir (filesRead o core dir) := by
  cases dir with
  | none => exact ⟨[], List.nodup_nil, by simp, rfl⟩
  | some dir =>
    refine ⟨entryInfoList o dir, o.nodup _, fun name => ?_, rfl⟩
    rw [entryInfoList, o.mem_list, contextFiles, Finset.mem_filter, Finmap.mem_keys]
    simp [and_comm]

theorem allDeclarations_eq (o : DirOrder) (core : Option File) (dir : Option Directory) :
    InfoXmlBackend.allDeclarations o core dir = (filesRead o core dir).flatMap declarations := by
  rw [InfoXmlBackend.allDeclarations, filesRead, List.flatMap_append]
  congr 1
  · cases core with
    | none => rfl
    | some f => exact (List.append_nil _).symm
  · cases dir with
    | none => rfl
    | some dir => exact (List.flatMap_map ..).symm

/-- A name for the file at each place of a list. -/
def fileName (i : ℕ) : String := String.ofList (List.replicate (i + 1) 'a' ++ ".context".toList)

theorem fileName_injective : Function.Injective fileName := by
  intro i j h
  have hlength := congrArg (fun s => s.toList.length) h
  simp only [fileName, String.toList_ofList, List.length_append, List.length_replicate] at hlength
  omega

theorem isContext_fileName (i : ℕ) : isContext (fileName i) = true := by
  have hlower : ".context".toList.map Char.toLower = ".context".toList := by decide
  simp only [isContext, fileName, String.toList_ofList, List.map_append, hlower, Bool.and_eq_true,
    decide_eq_true_eq, List.isSuffixOf_iff_suffix, List.suffix_append, and_true]
  simp [List.replicate_succ]

/-- An order in which these names are listed so. -/
def DirOrder.listing (l : List String) (hl : l.Nodup) : DirOrder where
  list names := if names = l.toFinset then l else DirOrder.byName.list names
  nodup names := by
    split_ifs
    · exact hl
    · exact DirOrder.byName.nodup names
  mem_list names name := by
    split_ifs with hnames
    · rw [hnames, List.mem_toFinset]
    · exact DirOrder.byName.mem_list names name

/-- **Every list of files** is read, in its order, from some directory. -/
theorem exists_filesRead (files : List File) :
    ∃ o dir, ∀ core, filesRead o core (some dir) = core.toList ++ files := by
  let entries : List (Sigma fun _ : String => File) :=
    files.zipIdx.map fun f => ⟨fileName f.2, f.1⟩
  have hkeys : entries.keys = (List.range' 0 files.length).map fileName := by
    rw [← List.zipIdx_map_snd 0 files, List.map_map, List.keys, List.map_map]
    rfl
  have hnodup : entries.keys.Nodup := by
    rw [hkeys]
    exact (List.nodup_range' (s := 0) (n := files.length)).map fileName_injective
  have hcontext : contextFiles entries.toFinmap = entries.keys.toFinset := by
    ext name
    simp only [contextFiles, Finset.mem_filter, Finmap.mem_keys, Finmap.mem_list_toFinmap,
      List.mem_toFinset, List.mem_keys, and_iff_left_iff_imp]
    rintro ⟨f, hf⟩
    obtain ⟨g, -, hg⟩ := List.mem_map.1 hf
    obtain ⟨rfl, -⟩ := Sigma.mk.inj hg
    exact isContext_fileName g.2
  refine ⟨.listing entries.keys hnodup, entries.toFinmap, fun core => ?_⟩
  have hlist : entryInfoList (.listing entries.keys hnodup) entries.toFinmap = entries.keys := by
    rw [entryInfoList, hcontext]
    exact if_pos rfl
  have hfiles : files = entries.map fun e => e.2 := by
    rw [List.map_map]
    exact (List.zipIdx_map_fst 0 files).symm
  rw [filesRead]
  congr 1
  show (entryInfoList _ _).map _ = files
  rw [hlist, List.keys, List.map_map]
  refine Eq.trans (List.map_congr_left fun e he => ?_) hfiles.symm
  rw [Function.comp_apply, Finmap.dlookup_list_toFinmap, List.mem_dlookup hnodup he]
  rfl

/-! ### What the backend answers -/

section

variable (o : DirOrder) (core : Option File) (dir : Option Directory) (key : String)

/-- The data of a key is that of its first declaration. -/
theorem lookup_regenerate :
    (InfoXmlBackend.regenerateKeyDataList o core dir).hashes.keyDataHash.lookup key =
      (((filesRead o core dir).flatMap declarations).find? fun p => keyName p = key).map
        fun p => keyData p.1 := by
  rw [InfoXmlBackend.hashes_regenerate, lookup_parseAll, allDeclarations_eq, firstData_eq]
  exact Option.none_or

theorem providersForKey_regenerate :
    (InfoXmlBackend.regenerateKeyDataList o core dir).providersForKey key =
      (((filesRead o core dir).flatMap declarations).filter fun p => keyName p = key).filterMap
        namedProvider := by
  rw [InfoXmlBackend.providersForKey, InfoXmlBackend.hashes_regenerate, providers_parseAll,
    allDeclarations_eq, allProviders_eq]
  rfl

theorem mem_listKeys_regenerate :
    key ∈ (InfoXmlBackend.regenerateKeyDataList o core dir).listKeys ↔
      ∃ f ∈ filesRead o core dir, ∃ p, Declares f p ∧ keyName p = key := by
  rw [InfoXmlBackend.mem_listKeys, ← AList.lookup_isSome, lookup_regenerate, Option.isSome_map,
    List.find?_isSome]
  simp only [List.mem_flatMap, mem_declarations, decide_eq_true_eq]
  constructor
  · rintro ⟨p, ⟨f, hf, hp⟩, hkey⟩
    exact ⟨f, hf, p, hp, hkey⟩
  · rintro ⟨f, hf, p, hp, hkey⟩
    exact ⟨p, ⟨f, hf, hp⟩, hkey⟩

end

/-- **Declarations combine.**  Whatever the files and the order of the directory: the keys are the
names declared in the files that are accepted; the type, the documentation and the deprecation of a
key are those of its first declaration; and it has the providers of all its declarations that name
one, in the order in which they are read.  Any files in any order may be those of a directory. -/
theorem registry_combines :
    (∀ (o : DirOrder) (core : Option File) (dir : Option Directory),
      let b := InfoXmlBackend.regenerateKeyDataList o core dir
      let read := (filesRead o core dir).flatMap declarations
      FilesOf core dir (filesRead o core dir) ∧ b.listKeys.Nodup ∧
        (∀ key, key ∈ b.listKeys ↔
          ∃ f ∈ filesRead o core dir, ∃ p, Declares f p ∧ keyName p = key) ∧
        (∀ key, b.keyDeclared key = true ↔ key ∈ b.listKeys) ∧
        (∀ key, let first := read.find? fun p => keyName p = key
          b.typeInfoForKey key =
              (first.bind fun p => ensureNewTypes (p.1.valueOf "type")).elim .invalid .ofTree ∧
            b.docForKey key = first.elim "" (fun p => textOf (p.1.valueOf "doc")) ∧
            b.keyDeprecated key =
              first.any fun p => (AssocTree.firstNode "deprecated" p.1.nodes).isSome) ∧
        ∀ key, b.providersForKey key =
          (read.filter fun p => keyName p = key).filterMap namedProvider) ∧
    ∀ files, ∃ o dir, ∀ core, filesRead o core (some dir) = core.toList ++ files := by
  refine ⟨fun o core dir => ?_, exists_filesRead⟩
  intro b read
  refine ⟨filesOf_filesRead o core dir, b.nodup_listKeys, mem_listKeys_regenerate o core dir,
    fun key => ?_, fun key => ?_, providersForKey_regenerate o core dir⟩
  · rw [b.mem_listKeys, InfoXmlBackend.keyDeclared, decide_eq_true_iff]
  have hdata : b.hashes.keyDataHash.lookup key =
      (read.find? fun p => keyName p = key).map fun p => keyData p.1 :=
    lookup_regenerate o core dir key
  rw [InfoXmlBackend.typeInfoForKey, InfoXmlBackend.docForKey, InfoXmlBackend.keyDeprecated, hdata]
  cases read.find? fun p => keyName p = key with
  | none => exact ⟨rfl, rfl, rfl⟩
  | some p => exact ⟨rfl, rfl, rfl⟩

end ContextRegistry
