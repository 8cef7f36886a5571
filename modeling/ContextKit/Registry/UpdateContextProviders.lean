import ContextKit.Registry.ContextPropertyInfo
import ContextKit.Registry.InfoCdbBackend
import ContextKit.Registry.InfoXmlBackend

/-!
# `update-contextkit-providers`: compiling the registry

The tool writes what the XML backend answers into the database that the other backend reads.  It
asks through a `ContextPropertyInfo` for every listed key, so nothing but the deprecation is written
for the empty key.

The entries of a key stand under the key with one of four suffixes.  A key may itself contain colons
or end like a suffix; still no two keys meet, because the suffixes end with different letters
(`append_suffix_inj`).
-/

namespace ContextRegistry
open ContextKit

def suffixes : List String := [":KEYTYPEINFO", ":KEYDOC", ":KEYDEPRECATED", ":PROVIDERS"]

def providerData (info : ContextProviderInfo) : Data :=
  .hash [("plugin", .string info.plugin), ("constructionString", .string info.constructionString)]

/-- One turn of the loop over the keys. -/
def writeKey (backend : InfoBackend) (writer : Database) (key : String) : Database :=
  let keyInfo := ContextPropertyInfo.create backend key
  let writer := writer.add "KEYS" (.string key)
  let writer := writer.replace (key ++ ":KEYTYPEINFO") keyInfo.cachedTypeInfo
  let writer := writer.replace (key ++ ":KEYDOC") (.string keyInfo.cachedDoc)
  let writer := writer.replace (key ++ ":KEYDEPRECATED") (.bool (keyInfo.deprecated backend))
  writer.add (key ++ ":PROVIDERS") (.list (keyInfo.cachedProviders.map providerData))

/-- The database written from a backend that lists its keys in this order. -/
def writeDatabase (backend : InfoBackend) (keys : List String) : Database :=
  keys.foldl (writeKey backend) (Multimap.add [] "VERSION" (.string compatibilityNamespace))

/-! ### The keys of the database -/

theorem append_suffix_inj {i j s t : String} (hs : s ∈ suffixes) (ht : t ∈ suffixes)
    (h : i ++ s = j ++ t) : i = j ∧ s = t := by
  have hlast : ∀ (k : String) {u : String}, u ∈ suffixes →
      (k ++ u).toList.getLast? = u.toList.getLast? := by
    intro k u hu
    simp only [suffixes, List.mem_cons, List.not_mem_nil, or_false] at hu
    rcases hu with rfl | rfl | rfl | rfl <;> simp
  -- The suffixes end with `O`, `C`, `D` and `S`.
  have hst : s = t := by
    have heq : s.toList.getLast? = t.toList.getLast? := by
      rw [← hlast i hs, ← hlast j ht, h]
    simp only [suffixes, List.mem_cons, List.not_mem_nil, or_false] at hs ht
    rcases hs with rfl | rfl | rfl | rfl <;> rcases ht with rfl | rfl | rfl | rfl <;>
      first | rfl | exact absurd heq (by decide)
  subst hst
  exact ⟨(String.append_left_inj s).1 h, rfl⟩

theorem append_suffix_ne {s t : String} (hs : s ∈ suffixes) (ht : ':' ∉ t.toList) (key : String) :
    key ++ s ≠ t := by
  rintro rfl
  apply ht
  rw [String.toList_append]
  simp only [suffixes, List.mem_cons, List.not_mem_nil, or_false] at hs
  rcases hs with rfl | rfl | rfl | rfl <;> simp

variable (backend : InfoBackend) (m : Database)

/-- What is written under the four keys of a turn is not seen under another one. -/
theorem values_writeKey {key k : String} (hne : ∀ s ∈ suffixes, k ≠ key ++ s) :
    (writeKey backend m key).values k = (m.add "KEYS" (.string key)).values k := by
  unfold writeKey
  dsimp only
  rw [Multimap.values_add_of_ne _ _ (hne _ (by simp [suffixes])),
    Multimap.values_replace_of_ne _ _ (hne _ (by simp [suffixes])),
    Multimap.values_replace_of_ne _ _ (hne _ (by simp [suffixes])),
    Multimap.values_replace_of_ne _ _ (hne _ (by simp [suffixes]))]

/-- One turn writes under no other key of the database than `KEYS` and its own four. -/
theorem values_writeKey_frame {key k : String} (hkeys : k ≠ "KEYS")
    (hne : ∀ s ∈ suffixes, k ≠ key ++ s) :
    (writeKey backend m key).values k = m.values k := by
  rw [values_writeKey backend m hne, Multimap.values_add_of_ne _ _ hkeys]

theorem values_writeKey_of_ne {i key s : String} (hs : s ∈ suffixes) (h : i ≠ key) :
    (writeKey backend m i).values (key ++ s) = m.values (key ++ s) := by
  apply values_writeKey_frame backend m (append_suffix_ne hs (by decide) key)
  intro t ht heq
  exact h (append_suffix_inj hs ht heq).1.symm

theorem values_writeKey_keys (key : String) :
    (writeKey backend m key).values "KEYS" = m.values "KEYS" ++ [.string key] := by
  have hne : ∀ s ∈ suffixes, "KEYS" ≠ key ++ s := fun s hs =>
    (append_suffix_ne hs (by decide) key).symm
  rw [values_writeKey backend m hne, Multimap.values_add_self]

/-- What stands under a key with a suffix after its turn, if nothing stood there before. -/
def written (key s : String) : Data :=
  let keyInfo := ContextPropertyInfo.create backend key
  if s = ":KEYTYPEINFO" then keyInfo.cachedTypeInfo
  else if s = ":KEYDOC" then .string keyInfo.cachedDoc
  else if s = ":KEYDEPRECATED" then .bool (keyInfo.deprecated backend)
  else .list (keyInfo.cachedProviders.map providerData)

theorem values_writeKey_self {key s : String} (hs : s ∈ suffixes)
    (hm : m.values (key ++ s) = []) :
    (writeKey backend m key).values (key ++ s) = [written backend key s] := by
  have hne : ∀ t ∈ suffixes, s ≠ t → key ++ s ≠ key ++ t := fun t ht hst heq =>
    hst (append_suffix_inj hs ht heq).2
  have hkeys : key ++ s ≠ "KEYS" := append_suffix_ne hs (by decide) key
  unfold writeKey
  dsimp only
  simp only [suffixes, List.mem_cons, List.not_mem_nil, or_false] at hs
  -- In each case the writes that come later are undone one by one.
  rcases hs with rfl | rfl | rfl | rfl
  · rw [Multimap.values_add_of_ne _ _ (hne _ (by simp [suffixes]) (by decide)),
      Multimap.values_replace_of_ne _ _ (hne _ (by simp [suffixes]) (by decide)),
      Multimap.values_replace_of_ne _ _ (hne _ (by simp [suffixes]) (by decide)),
      Multimap.values_replace_self]
    rfl
  · rw [Multimap.values_add_of_ne _ _ (hne _ (by simp [suffixes]) (by decide)),
      Multimap.values_replace_of_ne _ _ (hne _ (by simp [suffixes]) (by decide)),
      Multimap.values_replace_self]
    rfl
  · rw [Multimap.values_add_of_ne _ _ (hne _ (by simp [suffixes]) (by decide)),
      Multimap.values_replace_self]
    rfl
  · rw [Multimap.values_add_self,
      Multimap.values_replace_of_ne _ _ (hne _ (by simp [suffixes]) (by decide)),
      Multimap.values_replace_of_ne _ _ (hne _ (by simp [suffixes]) (by decide)),
      Multimap.values_replace_of_ne _ _ (hne _ (by simp [suffixes]) (by decide)),
      Multimap.values_add_of_ne _ _ hkeys, hm]
    rfl

/-! ### The database as a whole -/

theorem values_writeDatabase_keys (keys : List String) :
    (writeDatabase backend keys).values "KEYS" = keys.map .string := by
  suffices h : ∀ m : Database, (keys.foldl (writeKey backend) m).values "KEYS" =
      m.values "KEYS" ++ keys.map .string by
    rw [writeDatabase, h, Multimap.values_add_of_ne _ _ (by decide)]
    rfl
  induction keys with
  | nil => simp
  | cons key keys ih =>
    intro m
    rw [List.foldl_cons, ih, values_writeKey_keys, List.append_assoc]
    rfl

theorem values_writeDatabase_version (keys : List String) :
    (writeDatabase backend keys).values "VERSION" = [.string compatibilityNamespace] := by
  rw [writeDatabase, Multimap.values_foldl, Multimap.values_add_self, Multimap.values_nil,
    List.nil_append]
  intro m key _
  apply values_writeKey_frame backend m (by decide)
  intro s hs
  exact (append_suffix_ne hs (by decide) key).symm

/-- **Under a key and a suffix** there is what was written for this key, and nothing for a key that
is not listed. -/
theorem values_writeDatabase {keys : List String} (hnodup : keys.Nodup) (key : String) {s : String}
    (hs : s ∈ suffixes) :
    (writeDatabase backend keys).values (key ++ s) =
      if key ∈ keys then [written backend key s] else [] := by
  have hstart : (Multimap.add [] "VERSION" (.string compatibilityNamespace) : Database).values
      (key ++ s) = [] :=
    Multimap.values_add_of_ne _ _ (append_suffix_ne hs (by decide) key)
  split_ifs with hkey
  · obtain ⟨n, hn, hfold⟩ := Multimap.values_foldl_owner
      (Multimap.add [] "VERSION" (.string compatibilityNamespace) : Database)
      (fun m i hi => values_writeKey_of_ne backend m hs hi) hnodup hkey
    exact hfold.trans (values_writeKey_self backend n hs (hn.trans hstart))
  · refine (Multimap.values_foldl _ fun m i hi => ?_).trans hstart
    apply values_writeKey_of_ne backend m hs
    rintro rfl
    exact hkey hi

/-! ### Reading it back -/

/-- The backend over a database file that can be read. -/
def cdbOver (path : List Char) (inode : ℕ) (db : Database) : InfoCdbBackend :=
  .create path (some ⟨inode, .reading db⟩)

theorem compatible_writeDatabase (path : List Char) (inode : ℕ) (keys : List String) :
    (cdbOver path inode (writeDatabase backend keys)).databaseCompatible = true := by
  show InfoCdbBackend.checkCompatibility (.reading (writeDatabase backend keys)) = true
  simp [InfoCdbBackend.checkCompatibility, CDBReader.isReadable, CDBReader.valueForKey,
    CDBReader.valuesForKey, values_writeDatabase_version, Data.toString]

theorem valueForKey_writeDatabase {keys : List String} (hnodup : keys.Nodup) (key : String)
    {s : String} (hs : s ∈ suffixes) :
    (CDBReader.reading (writeDatabase backend keys)).valueForKey (key ++ s) =
      if key ∈ keys then written backend key s else .invalid := by
  rw [CDBReader.valueForKey, CDBReader.valuesForKey, values_writeDatabase backend hnodup key hs]
  split_ifs <;> rfl

theorem providers_providerData (l : List ContextProviderInfo) :
    (l.map providerData).map (fun v => (⟨(v.value "plugin").toString,
      (v.value "constructionString").toString⟩ : ContextProviderInfo)) = l := by
  rw [List.map_map, ← List.map_id l, List.map_map]
  apply List.map_congr_left
  intro info _
  rfl

variable {b : InfoXmlBackend} {keys : List String} (path : List Char) (inode : ℕ)

/-- The database of an XML backend, whatever its order of the keys, and that backend agree. -/
theorem agree_writeDatabase (hkeys : keys.Perm b.listKeys) :
    (cdbOver path inode (writeDatabase b.toInfoBackend keys)).toInfoBackend.Agree
      b.toInfoBackend := by
  have hcompatible := compatible_writeDatabase b.toInfoBackend path inode keys
  have hvalue : ∀ key {s : String}, s ∈ suffixes →
      (cdbOver path inode (writeDatabase b.toInfoBackend keys)).reader.valueForKey (key ++ s) =
        if key ∈ keys then written b.toInfoBackend key s else .invalid := fun key _ hs =>
    valueForKey_writeDatabase b.toInfoBackend (hkeys.nodup_iff.2 b.nodup_listKeys) key hs
  have hlisted :
      (cdbOver path inode (writeDatabase b.toInfoBackend keys)).reader.valuesForKey "KEYS" =
        keys.map .string := values_writeDatabase_keys b.toInfoBackend keys
  -- A key that is not listed has no entry, and the XML backend answers nothing about it.
  have hnot : ∀ key, key ∉ keys → key ∉ b.listKeys := fun key hkey hmem =>
    hkey (hkeys.mem_iff.2 hmem)
  constructor
  case listKeys =>
    intro key
    show key ∈ InfoCdbBackend.listKeys _ ↔ key ∈ b.listKeys
    rw [InfoCdbBackend.listKeys, if_pos hcompatible, hlisted, ← hkeys.mem_iff]
    simp [Data.toString]
  case typeInfoForKey =>
    intro key hkey
    refine (hvalue key (s := ":KEYTYPEINFO") (by simp [suffixes])).trans ?_
    split_ifs with hmem
    · rw [written, ContextPropertyInfo.create_of_ne _ hkey]
      rfl
    · exact (b.answers_of_notMem (hnot key hmem)).1.symm
  case docForKey =>
    intro key hkey
    show InfoCdbBackend.docForKey _ key = b.docForKey key
    rw [InfoCdbBackend.docForKey, if_pos hcompatible, hvalue key (by simp [suffixes])]
    split_ifs with hmem
    · rw [written, ContextPropertyInfo.create_of_ne _ hkey]
      rfl
    · exact (b.answers_of_notMem (hnot key hmem)).2.1.symm
  case keyDeclared =>
    intro key _
    show InfoCdbBackend.keyDeclared _ key = b.keyDeclared key
    have hmem : (keys.map Data.string).any (Data.isString key) = decide (key ∈ keys) := by
      rw [Bool.eq_iff_iff]
      simp [Data.isString]
    rw [InfoCdbBackend.keyDeclared, if_pos hcompatible, hlisted, hmem, InfoXmlBackend.keyDeclared]
    simp only [hkeys.mem_iff, b.mem_listKeys]
  case keyDeprecated =>
    intro key _
    show InfoCdbBackend.keyDeprecated _ key = b.keyDeprecated key
    rw [InfoCdbBackend.keyDeprecated, if_pos hcompatible, hvalue key (by simp [suffixes])]
    split_ifs with hmem
    · show b.keyDeprecated (ContextPropertyInfo.create _ key).keyName = _
      rw [ContextPropertyInfo.keyName_create]
    · exact (b.answers_of_notMem (hnot key hmem)).2.2.2.1.symm
  case providersForKey =>
    intro key hkey
    show InfoCdbBackend.providersForKey _ key = b.providersForKey key
    rw [InfoCdbBackend.providersForKey, if_pos hcompatible, hvalue key (by simp [suffixes])]
    split_ifs with hmem
    · rw [written, ContextPropertyInfo.create_of_ne _ hkey]
      exact providers_providerData (b.providersForKey key)
    · exact (b.answers_of_notMem (hnot key hmem)).2.2.2.2.symm

/-- **The compiled registry equals the XML registry**: for all files of the registry and in whatever
order their keys are listed, the backend over the database written from the XML backend agrees with
it. -/
theorem compiled_registry_agrees (o : DirOrder) (core : Option File) (dir : Option Directory)
    (hkeys : keys.Perm (InfoXmlBackend.regenerateKeyDataList o core dir).listKeys) :
    let xml := (InfoXmlBackend.regenerateKeyDataList o core dir).toInfoBackend
    (cdbOver path inode (writeDatabase xml keys)).toInfoBackend.Agree xml :=
  agree_writeDatabase path inode hkeys

theorem compiled_registry_agrees_example :
    let core : File := some ⟨"", "properties",
      [.node "key" [.node "name" [.str "A:KEYDOC"], .node "type" [.str "TRUTH"]]]⟩
    let file : File := some ⟨compatibilityNamespace, "provider",
      [.node "service" [.str "org.example"], .node "bus" [.str "session"],
        .node "key" [.node "name" [.str "A"], .node "doc" [.str "a key"]],
        .node "key" [.node "name" [.str "A:KEYDOC"], .node "type" [.str "INT"]]]⟩
    let dir : Directory := Finmap.insert "a.context" file ∅
    let xml := (InfoXmlBackend.regenerateKeyDataList .byName core (some dir)).toInfoBackend
    (cdbOver "/cache.cdb".toList 7 (writeDatabase xml ["A:KEYDOC", "A"])).toInfoBackend.Agree xml :=
  compiled_registry_agrees _ 7 _ _ _ (by decide)

end ContextRegistry
