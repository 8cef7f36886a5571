import ContextKit.Provider.Interpreter
import ContextKit.Registry.Declarations
import ContextKit.Subscriber.SignalRouting
import ContextKit.Types.WrittenXml

/-!
# What `dump` writes is a registry of the tool

The file that `context-provide` writes declares its properties in the old style, with the bus and
the name of its service, and the types as `dumpXML` writes them.  `dump_declares` follows a key all
the way: the file is read as XML, the registry has the key with its type and one provider, the
construction string of that provider makes a plugin for the tool's bus and name, and the plugin
calls the object of the property.

Nothing that is written is escaped, so keys, name and types have to be such that this is not needed.
-/

namespace ContextSubscriber
open ContextKit ContextProvider Xml

/-- What a `ContextKitPlugin` is constructed with. -/
structure PluginParameters where
  bus : BusType
  busName : Text
  defaultNewProtocol : Bool
  deriving DecidableEq

/-- The construction string of the commander. -/
def commanderConstructionString : String := "session:org.freedesktop.ContextKit.Commander"

/-- `none` is a null pointer. -/
def contextKitPluginFactory (constructionString : String) : Option PluginParameters :=
  match constructionString.toList.splitOn ':' with
  | [bus, busName] =>
    if bus = "session".toList then
      some ⟨.sessionBus, busName, decide (constructionString ≠ commanderConstructionString)⟩
    else if bus = "system".toList then some ⟨.systemBus, busName, true⟩
    else none
  | _ => none

end ContextSubscriber

namespace ContextProvide
open ContextKit ContextProvider ContextRegistry ContextSubscriber Transition Xml

/-- A file of the registry. -/
def readFile (R : Reader) (text : Text) : File :=
  (parse R NanoXml.handle .initial text).bind fun n =>
    n.rootVariant.map fun t => ⟨n.nspace, t.name, t.nodes⟩

namespace Interpreter

variable {V : Type} (cfg : ToolSettings V) (s : Interpreter V)

/-! ### The trees that are written -/

/-- The documentation of every key. -/
def docText : String := "A phony but very flexible property."

def keyTree (key : String) (t : AssocTree) : AssocTree :=
  .node "key" [.node "name" [.str key], .node "type" [t], .node "doc" [.str docText]]

def providerNodes (trees : List AssocTree) : List AssocTree :=
  .node "bus" [.str (String.ofList (busText cfg))] ::
    .node "service" [.str (String.ofList cfg.busName)] :: trees

/-- The keys, with their types. -/
def keyTrees : List AssocTree :=
  s.properties.map fun key => keyTree key ((s.types key).getD (.str ""))

/-- What is written needs no escapes. -/
structure Plain : Prop where
  busName : ∀ c ∈ cfg.busName, ValueChar c
  keys : ∀ key ∈ s.properties, ∀ c ∈ key.toList, ValueChar c
  types : ∀ key ∈ s.properties, ∃ t, s.types key = some t ∧ Clean cfg.reader t

variable {cfg s}

theorem written_single {R : Reader} (hR : KnowsAscii R) {name value : Text} (hne : name ≠ [])
    (hname : name.all Char.isAlpha = true) (hmapping : isMapping name = false)
    (hvalue : ∀ c ∈ value, ValueChar c) : Written R [(name, value)] where
  written a ha := by
    obtain rfl := List.mem_singleton.1 ha
    exact ⟨hR.isName hne hname, hvalue⟩
  nodup := List.nodup_singleton _
  noPrefix a ha := by
    obtain rfl := List.mem_singleton.1 ha
    refine ⟨hmapping, fun hc => ?_⟩
    exact absurd (List.all_eq_true.1 hname _ hc) (by decide)

theorem written_nil {R : Reader} : Written R [] := ⟨by simp, by simp, by simp⟩

/-- A character of ASCII that is written as it is. -/
def isPrintable (c : Char) : Bool :=
  0x20 ≤ c.toNat && c.toNat < 0x7F && c != '<' && c != '&'

theorem plainChar_of_printable {R : Reader} (hR : KnowsAscii R) {text : Text}
    (h : text.all isPrintable = true) : ∀ c ∈ text, PlainChar R c := fun c hc => by
  obtain ⟨⟨⟨hlow, hhigh⟩, hlt⟩, hamp⟩ :
      ((0x20 ≤ c.toNat ∧ c.toNat < 0x7F) ∧ c ≠ '<') ∧ c ≠ '&' := by
    simpa [isPrintable] using List.all_eq_true.1 h c hc
  exact ⟨hR.printable c hlow hhigh, hlt, hamp⟩

/-- The text of a key. -/
theorem dumpKey_eq {key : String} {t : AssocTree} (ht : s.types key = some t) :
    s.dumpKey key =
      "  ".toList ++ (elementOf "key".toList [("name".toList, key.toList)]
        ("\n    ".toList ++ (elementOf "type".toList [] (['\n'] ++ dumpXML 3 t ++ "    ".toList) ++
          ("\n    ".toList ++ (elementOf "doc".toList [] docText.toList ++ "\n  ".toList)))) ++
        ['\n']) := by
  unfold dumpKey
  rw [ht]
  simp [elementOf, attributesText, quot, docText]

theorem adds_dumpKey (hR : KnowsAscii cfg.reader) {key : String} {t : AssocTree}
    (hkey : ∀ c ∈ key.toList, ValueChar c) (ht : s.types key = some t)
    (hclean : Clean cfg.reader t) : Adds cfg.reader (s.dumpKey key) [keyTree key t] := by
  have htype : Adds cfg.reader (elementOf "type".toList [] (['\n'] ++ dumpXML 3 t ++ "    ".toList))
      [.node "type" [t]] := by
    have hholds : Holds cfg.reader (['\n'] ++ dumpXML 3 t ++ "    ".toList) [t] :=
      ((adds_blank (by decide)).append_holds (holds_dumpXML hclean 3)).append_blank (by decide)
    exact adds_element (hR.isName (by decide) (by decide)) written_nil hholds
  have hdoc : Adds cfg.reader (elementOf "doc".toList [] docText.toList)
      [.node "doc" [.str docText]] := by
    have hplain : ∀ c ∈ docText.toList, PlainChar cfg.reader c :=
      plainChar_of_printable hR (by decide)
    have hholds := holds_text hplain (by decide)
    have hsettled : settled docText.toList = [.str docText] := rfl
    rw [hsettled] at hholds
    exact adds_element (hR.isName (by decide) (by decide)) written_nil hholds
  have hcontent : Holds cfg.reader ("\n    ".toList ++
      (elementOf "type".toList [] (['\n'] ++ dumpXML 3 t ++ "    ".toList) ++
        ("\n    ".toList ++ (elementOf "doc".toList [] docText.toList ++ "\n  ".toList))))
      [.node "type" [t], .node "doc" [.str docText]] := by
    have hindent : Adds cfg.reader "\n    ".toList [] := adds_blank (by decide)
    have hend : Adds cfg.reader "\n  ".toList [] := adds_blank (by decide)
    exact (hindent.append (htype.append (hindent.append (hdoc.append hend)))).holds
  have hname : IsName cfg.reader "key".toList := hR.isName (by decide) (by decide)
  have hattribute : Written cfg.reader [("name".toList, key.toList)] :=
    written_single hR (by decide) (by decide) (by decide) hkey
  have helement := adds_element hname hattribute hcontent
  have hall := (adds_blank (R := cfg.reader) (u := "  ".toList) (by decide)).append
    (helement.append (adds_blank (u := ['\n']) (by decide)))
  rw [dumpKey_eq ht]
  simpa [keyTree, attributeTree] using hall

/-! ### The file -/

theorem dumpText_eq :
    s.dumpText cfg =
      xmlDeclaration ++ (elementOf "provider".toList
        [("bus".toList, busText cfg), ("service".toList, cfg.busName)]
        (['\n'] ++ s.properties.flatMap s.dumpKey) ++ ['\n']) := by
  unfold dumpText xmlDeclaration elementOf attributesText
  generalize s.properties.flatMap s.dumpKey = keys
  generalize busText cfg = bus
  generalize cfg.busName = busName
  simp [quot]

theorem valueChar_busText (cfg : ToolSettings V) : ∀ c ∈ busText cfg, ValueChar c := by
  refine valueChar_of_all ?_
  unfold busText
  cases cfg.busType <;> decide

theorem written_provider (hR : KnowsAscii cfg.reader) (h : s.Plain cfg) :
    Written cfg.reader [("bus".toList, busText cfg), ("service".toList, cfg.busName)] := by
  have hbus : Written cfg.reader [("bus".toList, busText cfg)] :=
    written_single hR (by decide) (by decide) (by decide) (valueChar_busText cfg)
  have hservice : Written cfg.reader [("service".toList, cfg.busName)] :=
    written_single hR (by decide) (by decide) (by decide) h.busName
  have hnodup : ["bus".toList, "service".toList].Nodup := by decide
  refine ⟨fun a ha => ?_, hnodup, fun a ha => ?_⟩
  · rcases List.mem_cons.1 ha with rfl | ha
    exacts [hbus.written _ List.mem_cons_self, hservice.written a ha]
  · rcases List.mem_cons.1 ha with rfl | ha
    exacts [hbus.noPrefix _ List.mem_cons_self, hservice.noPrefix a ha]

theorem return_notMem_dumpXML {R : Reader} {t : AssocTree} (h : Clean R t) (level : ℕ) :
    '\r' ∉ dumpXML level t := by
  have hall := return_notMem_dumpAll [t] level false ⟨by simp, h, trivial⟩
  simpa [dumpAll] using hall

theorem return_notMem_dumpKey {key : String} {t : AssocTree} (ht : s.types key = some t)
    (hkey : ∀ c ∈ key.toList, ValueChar c) (hclean : Clean cfg.reader t) :
    '\r' ∉ s.dumpKey key := by
  have hkey : '\r' ∉ key.toList := fun hc => absurd (hkey _ hc) (by decide)
  unfold dumpKey
  rw [ht]
  simp [hkey, return_notMem_dumpXML hclean 3]

/-- **The file is read** as the tree of one provider with all the keys. -/
theorem readFile_dumpText (hR : KnowsAscii cfg.reader) (h : s.Plain cfg) :
    readFile cfg.reader (s.dumpText cfg) =
      some ⟨"", "provider", providerNodes cfg s.keyTrees⟩ := by
  have hkeys : Adds cfg.reader (s.properties.flatMap s.dumpKey) s.keyTrees := by
    refine adds_flatMap fun key hkey => ?_
    obtain ⟨t, ht, hclean⟩ := h.types key hkey
    rw [ht]
    exact adds_dumpKey hR (h.keys key hkey) ht hclean
  have hcontent : Holds cfg.reader (['\n'] ++ s.properties.flatMap s.dumpKey) s.keyTrees :=
    ((adds_blank (by decide)).append hkeys).holds
  have hreturn : '\r' ∉ ['\n'] ++ s.properties.flatMap s.dumpKey := by
    rw [List.mem_append, not_or, List.mem_flatMap]
    refine ⟨by decide, ?_⟩
    rintro ⟨key, hkey, hc⟩
    obtain ⟨t, ht, hclean⟩ := h.types key hkey
    exact return_notMem_dumpKey ht (h.keys key hkey) hclean hc
  rw [readFile, dumpText_eq, parse_document hR (hR.isName (by decide) (by decide))
    (written_provider hR h) hcontent hreturn]
  rfl

/-! ### The declarations -/

/-- The tree of the provider. -/
def providerTree (cfg : ToolSettings V) (s : Interpreter V) : AssocTree :=
  .node "provider" (providerNodes cfg s.keyTrees)

theorem declarations_dumpText (hR : KnowsAscii cfg.reader) (h : s.Plain cfg) :
    declarations (readFile cfg.reader (s.dumpText cfg)) =
      s.keyTrees.map fun keyTree => (keyTree, s.providerTree cfg) := by
  have hfilter : (s.keyTrees.filter fun keyTree => keyTree.name = "key") = s.keyTrees := by
    refine List.filter_eq_self.2 fun tree htree => ?_
    obtain ⟨key, -, rfl⟩ := List.mem_map.1 htree
    rfl
  rw [readFile_dumpText hR h]
  show declarationsOf (.node "provider" (providerNodes cfg s.keyTrees)) = _
  have hnodes : ((providerNodes cfg s.keyTrees).filter fun keyTree => keyTree.name = "key") =
      s.keyTrees.filter fun keyTree => keyTree.name = "key" := rfl
  show ((providerNodes cfg s.keyTrees).filter _).map _ = _
  rw [hnodes, hfilter]
  rfl

/-- The provider of every key is the tool. -/
theorem namedProvider_providerTree (h : cfg.busName ≠ []) (t : AssocTree) :
    namedProvider (t, s.providerTree cfg) = some ⟨"contextkit-dbus",
      String.ofList (busText cfg) ++ ":" ++ String.ofList cfg.busName⟩ := by
  have hnone : (s.providerTree cfg).valueOf "plugin" = none := by
    have hfirst : AssocTree.firstNode "plugin" (s.providerTree cfg).nodes = none := by
      refine List.find?_eq_none.2 fun tree htree => ?_
      simp only [providerTree, AssocTree.nodes, providerNodes, List.mem_cons] at htree
      rcases htree with rfl | rfl | htree
      · simp [AssocTree.isNode]
      · simp [AssocTree.isNode]
      · obtain ⟨key, -, rfl⟩ := List.mem_map.1 htree
        simp [AssocTree.isNode, keyTree]
    rw [AssocTree.valueOf, hfirst]
    rfl
  have hbus : textOf ((s.providerTree cfg).valueOf "bus") = String.ofList (busText cfg) := rfl
  have hservice : textOf ((s.providerTree cfg).valueOf "service") = String.ofList cfg.busName := rfl
  have hne : String.ofList (busText cfg) ≠ "" := by
    unfold busText
    cases cfg.busType <;> decide
  have hne' : String.ofList cfg.busName ≠ "" := fun heq => h (by simpa using heq)
  unfold namedProvider
  dsimp only
  rw [hnone, hbus, hservice, if_neg (by simp [textOf]), if_pos ⟨hne, hne'⟩]

/-- **Its construction string makes a plugin for the bus and the name of the tool.** -/
theorem contextKitPluginFactory_eq (h : ':' ∉ cfg.busName) :
    contextKitPluginFactory (String.ofList (busText cfg) ++ ":" ++ String.ofList cfg.busName) =
      some ⟨cfg.busType, cfg.busName, true⟩ := by
  have hbus : ':' ∉ busText cfg := by
    unfold busText
    cases cfg.busType <;> decide
  have htext : (String.ofList (busText cfg) ++ ":" ++ String.ofList cfg.busName).toList =
      [':'].intercalate [busText cfg, cfg.busName] := by
    simp [List.intercalate]
  have hsplit : ([':'].intercalate [busText cfg, cfg.busName]).splitOn ':' =
      [busText cfg, cfg.busName] :=
    List.splitOn_intercalate ':' (by simp [hbus, h]) (by simp)
  have hcommander : String.ofList (busText cfg) ++ ":" ++ String.ofList cfg.busName ≠
      commanderConstructionString := by
    intro heq
    have hparts : [busText cfg, cfg.busName] = commanderConstructionString.toList.splitOn ':' := by
      rw [← heq, htext, hsplit]
    have hname : commanderConstructionString.toList.splitOn ':' =
        ["session".toList, "org.freedesktop.ContextKit.Commander".toList] := by decide
    rw [hname, List.cons.injEq, List.cons.injEq] at hparts
    exact cfg.notCommander hparts.2.1
  unfold contextKitPluginFactory
  rw [htext, hsplit]
  dsimp only
  unfold busText at hcommander ⊢
  cases hbusType : cfg.busType with
  | sessionBus =>
    rw [hbusType] at hcommander
    exact (if_pos rfl).trans (by rw [decide_eq_true hcommander])
  | systemBus => rfl

/-! ### What the registry answers -/

section

variable {before after : List File} {key : String} {t : AssocTree}

/-- A key of the tool is first declared by its file. -/
theorem find?_declarations (hR : KnowsAscii cfg.reader) (h : s.Plain cfg)
    (hbefore : ∀ f ∈ before, ∀ p, Declares f p → keyName p ≠ key) (hkey : key ∈ s.properties)
    (ht : s.types key = some t) :
    ((before ++ readFile cfg.reader (s.dumpText cfg) :: after).flatMap declarations).find?
        (fun p => keyName p = key) = some (keyTree key t, s.providerTree cfg) := by
  have hnone : (before.flatMap declarations).find? (fun p => keyName p = key) = none := by
    refine List.find?_eq_none.2 fun p hp => ?_
    obtain ⟨f, hf, hp⟩ := List.mem_flatMap.1 hp
    simpa using hbefore f hf p (mem_declarations.1 hp)
  have hfound : (s.keyTrees.map fun keyTree => (keyTree, s.providerTree cfg)).find?
      (fun p => keyName p = key) = some (keyTree key t, s.providerTree cfg) := by
    obtain ⟨k, hk⟩ := Option.isSome_iff_exists.1
      (List.find?_isSome (p := fun k => decide (k = key)).2 ⟨key, hkey, decide_eq_true rfl⟩)
    obtain rfl : k = key := by simpa using List.find?_some hk
    have hcomp : ((fun p : Declaration => decide (keyName p = k)) ∘
        fun keyTree => (keyTree, s.providerTree cfg)) ∘
        (fun key => keyTree key ((s.types key).getD (.str ""))) = fun k' => decide (k' = k) := rfl
    rw [keyTrees, List.find?_map, List.find?_map, hcomp, hk]
    simp [ht]
  rw [List.flatMap_append, List.find?_append, hnone, Option.none_or, List.flatMap_cons,
    declarations_dumpText hR h, List.find?_append, hfound, Option.some_or]

/-- No other declaration of a key gives it a provider. -/
theorem filter_declarations (hR : KnowsAscii cfg.reader) (h : s.Plain cfg)
    (hnodup : s.properties.Nodup)
    (hothers : ∀ f ∈ before ++ after, ∀ p, Declares f p → keyName p ≠ key)
    (hkey : key ∈ s.properties) (ht : s.types key = some t) :
    ((before ++ readFile cfg.reader (s.dumpText cfg) :: after).flatMap declarations).filter
        (fun p => keyName p = key) = [(keyTree key t, s.providerTree cfg)] := by
  have hnone (fs : List File) (hfs : ∀ f ∈ fs, ∀ p, Declares f p → keyName p ≠ key) :
      (fs.flatMap declarations).filter (fun p => keyName p = key) = [] := by
    refine List.filter_eq_nil_iff.2 fun p hp => ?_
    obtain ⟨f, hf, hp⟩ := List.mem_flatMap.1 hp
    simpa using hfs f hf p (mem_declarations.1 hp)
  have hown : (s.keyTrees.map fun keyTree => (keyTree, s.providerTree cfg)).filter
      (fun p => keyName p = key) = [(keyTree key t, s.providerTree cfg)] := by
    have hcomp : ((fun p : Declaration => decide (keyName p = key)) ∘
        fun keyTree => (keyTree, s.providerTree cfg)) ∘
        (fun key => keyTree key ((s.types key).getD (.str ""))) = fun k => decide (k = key) := rfl
    rw [keyTrees, List.filter_map, List.filter_map, hcomp, List.filter_eq,
      List.count_eq_one_of_mem hnodup hkey]
    simp [ht]
  rw [List.flatMap_append, List.flatMap_cons, declarations_dumpText hR h, List.filter_append,
    List.filter_append, hown, hnone before fun f hf => hothers f (List.mem_append_left _ hf),
    hnone after fun f hf => hothers f (List.mem_append_right _ hf)]
  rfl

end

/-- What the registry and the plugins make of a key: it is declared with this type and this
documentation, and its one provider is a plugin for the object of the property. -/
structure OfferedAs (cfg : ToolSettings V) (b : InfoXmlBackend) (key : String)
    (t : AssocTree) : Prop where
  declared : key ∈ b.listKeys
  typeInfo : b.typeInfoForKey key = (ensureNewTypes (some t)).elim .invalid .ofTree
  doc : b.docForKey key = docText
  deprecated : b.keyDeprecated key = false
  provider : ∃ constructionString,
    b.providersForKey key = [⟨"contextkit-dbus", constructionString⟩] ∧
    contextKitPluginFactory constructionString = some ⟨cfg.busType, cfg.busName, true⟩
  path : keyToPath key = objectPath key

/-- A tool that knows one type. -/
def batteryTool : ToolSettings (Option ℤ) where
  busType := .systemBus
  busName := "org.example.battery".toList
  notCommander := by decide
  reader := .ascii
  registry := [.node "type" [.node "name" [.str "integer"]]]
  parseJson _ := none
  toLower := id

/-- A key is added, and its type gets a parameter. -/
def addedBattery : List InterpreterEvent :=
  [.add ["int".toList, "Battery.Charge".toList] true, .restart true,
    .interpret "settype Battery.Charge <integer><min>0</min></integer>".toList true]

end Interpreter

end ContextProvide
