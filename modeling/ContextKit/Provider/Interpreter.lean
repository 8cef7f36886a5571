import Mathlib.Data.List.Sort
import Mathlib.Data.String.Basic
import ContextKit.Provider.ServiceBackend
import ContextKit.Types.ContextTypeInfo
import ContextKit.Types.NanoXml
import ContextKit.Variant

/-!
# The commands of `context-provide`

A `CommandWatcher` that is not the commander: what its commands do to the properties it offers, to
their types and values, and to its service, and the file that `dump` writes.

A command may be abbreviated to any beginning of it, and the first command that goes on so is run
(`dispatch`).  `Kept` is what holds after any commands: the keys are in order and none is there
twice, and each has a type of the type registry, or one that `add` has taken for an old name.
-/

namespace ContextProvide
open ContextKit ContextProvider Transition Xml

/-! ### The commands -/

inductive CommandName
  | add
  | settype
  | del
  | info
  | list
  | sleep
  | exit
  | dump
  | restart
  | unset
  deriving DecidableEq

namespace CommandName

def text : CommandName → Text
  | add => "add".toList
  | settype => "settype".toList
  | del => "del".toList
  | info => "info".toList
  | list => "list".toList
  | sleep => "sleep".toList
  | exit => "exit".toList
  | dump => "dump".toList
  | restart => "restart".toList
  | unset => "unset".toList

/-- In the order in which they are tried. -/
def all : List CommandName :=
  [add, settype, del, info, list, sleep, exit, dump, restart, unset]

end CommandName

/-- The command that is meant, if any. -/
def dispatch (commandName : Text) : Option CommandName :=
  CommandName.all.find? fun c => commandName.isPrefixOf c.text

/-- Any beginning of one command only stands for it. -/
theorem dispatch_of_unique {p : Text} {c : CommandName} (hc : p <+: c.text)
    (hunique : ∀ d : CommandName, p <+: d.text → d = c) : dispatch p = some c := by
  have hmem : c ∈ CommandName.all := by cases c <;> decide
  have hsome : (dispatch p).isSome := by
    rw [dispatch, List.find?_isSome]
    exact ⟨c, hmem, List.isPrefixOf_iff_prefix.2 hc⟩
  obtain ⟨d, hd⟩ := Option.isSome_iff_exists.1 hsome
  have hprefix : p.isPrefixOf d.text = true := by
    have hfound := List.find?_some hd
    exact hfound
  rw [hd, hunique d (List.isPrefixOf_iff_prefix.1 hprefix)]

/-! ### The state -/

/-- What a tool is started with and relies on: its bus and name, the readers of XML and JSON, the
types, and the lower case of a text.  The commander offers proxies as well. -/
structure ToolSettings (V : Type) where
  busType : BusType
  busName : Text
  notCommander : busName ≠ "org.freedesktop.ContextKit.Commander".toList
  reader : Reader
  registry : TypeRegistry
  parseJson : Text → Option V
  toLower : Text → Text

/-- The maps of a `CommandWatcher`, the values of the properties, whether the service was started
and the tool is still running, and the files that were written. -/
structure Interpreter (V : Type) where
  /-- The keys of `properties`, in the order of the map. -/
  properties : List String
  types : String → Option AssocTree
  values : String → V
  started : Bool
  running : Bool
  written : List (Text × Text)

/-- The end of a document that is not well formed does not take back what was reported. -/
def readPartly (R : Reader) : ℕ → Text → ReaderState × NanoXml → ReaderState × NanoXml
  | 0, _, s => s
  | _ + 1, [], s => s
  | fuel + 1, c :: cs, s =>
    match lexToken R (c :: cs) with
    | none => s
    | some (tok, rest) =>
      match handleToken R NanoXml.handle s tok with
      | none => s
      | some t => readPartly R fuel rest t

/-- `NanoXml::result`, whether parsing failed or not. -/
def nanoXmlResult (R : Reader) (text : Text) : Option AssocTree :=
  (readPartly R (normalize text).length (normalize text)
    (⟨[], false, []⟩, .initial)).2.rootVariant

/-- `AssocTree::name` of a tree that may be null. -/
def nameOf : Option AssocTree → String
  | none => ""
  | some t => t.name

namespace Interpreter

variable {V : Type} [QVariant V] (cfg : ToolSettings V) (s : Interpreter V)

def init : Interpreter V where
  properties := []
  types := fun _ => none
  values := fun _ => QVariant.invalid
  started := false
  running := true
  written := []

/-! ### The values -/

/-- Text without quotes is a string, and a boolean is what looks like one. -/
def valueText (keyType : String) (value : Text) : Text :=
  let value :=
    if keyType = "string" ∧ value.head? ≠ some quot then quot :: (value ++ [quot]) else value
  if keyType = "bool" then
    if cfg.toLower value = "true".toList ∨ value = "1".toList then "true".toList
    else "false".toList
  else value

def setCommand (command : Text) : Interpreter V :=
  let keyName := String.ofList (trimmed (command.takeWhile (· ≠ '=')))
  let value := trimmed ((command.dropWhile (· ≠ '=')).drop 1)
  if keyName ∈ s.properties then
    match cfg.parseJson (valueText cfg (nameOf (s.types keyName)) value) with
    | none => s
    | some v => { s with values := Function.update s.values keyName v }
  else s

def unsetCommand (args : List Text) : Interpreter V :=
  match args with
  | [] => s
  | arg :: _ =>
    let keyName := String.ofList (trimmed arg)
    if keyName ∈ s.properties then
      { s with values := Function.update s.values keyName QVariant.invalid }
    else s

/-! ### The service -/

omit [QVariant V] in
/-- The tool exits if the service cannot be started. -/
def restartCommand (starts : Bool) : Interpreter V :=
  if starts then { s with started := true } else { s with running := false }

/-! ### The properties and their types -/

/-- The old names, which need not be in the type registry. -/
def isLegacy (keyType : Text) : Bool :=
  keyType = "int".toList || keyType = "double".toList || keyType = "truth".toList

def convertLegacy (keyType : Text) : Text :=
  let keyType := if keyType = "truth".toList then "bool".toList else keyType
  let keyType := if keyType = "int".toList then "integer".toList else keyType
  if keyType = "double".toList then "number".toList else keyType

omit [QVariant V] in
/-- The key gets a type, and a property if it has none. -/
def insert (key : String) (t : AssocTree) : Interpreter V :=
  { s with
    types := Function.update s.types key (some t)
    properties :=
      if key ∈ s.properties then s.properties else s.properties.orderedInsert (· ≤ ·) key }

/-- The default value of a key, or none. -/
def setDefault (keyName : Text) (value : List Text) : Interpreter V :=
  if value = [] then s.unsetCommand [keyName]
  else s.setCommand cfg (keyName ++ '=' :: [' '].intercalate value)

def addCommand (args : List Text) (starts : Bool) : Interpreter V :=
  match args with
  | keyType :: keyName :: value =>
    let keyType := cfg.toLower keyType
    let newType := String.ofList (convertLegacy keyType)
    if ¬ isLegacy keyType ∧ typeDefinitionForName cfg.registry newType = none then s
    else
      let s := (s.insert (String.ofList keyName) (.str newType)).setDefault cfg keyName value
      if s.started then s.restartCommand starts else s
  | _ => s

/-- The XML of a type; a bare word is one without parameters. -/
def typeFragment (args : List Text) : Text :=
  let tba := trimmed ([' '].intercalate args)
  if tba.head? = some '<' then tba else '<' :: (tba ++ "/>".toList)

omit [QVariant V] in
def setTypeCommand (args : List Text) : Interpreter V :=
  match args with
  | keyName :: arg :: args =>
    let key := String.ofList keyName
    if key ∈ s.properties then
      let typeInfo := nanoXmlResult cfg.reader (typeFragment (arg :: args))
      if typeDefinitionForName cfg.registry (nameOf typeInfo) = none then s
      else { s with types := Function.update s.types key typeInfo }
    else s
  | _ => s

omit [QVariant V] in
def delCommand (args : List Text) : Interpreter V :=
  match args with
  | [] => s
  | keyName :: _ =>
    let key := String.ofList keyName
    { s with
      types := Function.update s.types key none
      properties := s.properties.filter (· ≠ key) }

/-! ### The file -/

omit [QVariant V] in
def busText : Text :=
  match cfg.busType with
  | .systemBus => "system".toList
  | .sessionBus => "session".toList

omit [QVariant V] in
/-- What is written for one key. -/
def dumpKey (key : String) : Text :=
  "  <key name=\"".toList ++ (key.toList ++ ("\">\n".toList ++ ("    <type>\n".toList ++
    ((s.types key).elim [] (dumpXML 3) ++ ("    </type>\n".toList ++
      ("    <doc>A phony but very flexible property.</doc>\n".toList ++ "  </key>\n".toList))))))

omit [QVariant V] in
def dumpText : Text :=
  "<?xml version=\"1.0\"?>\n".toList ++
    ("<provider bus=\"".toList ++ (busText cfg ++ ("\" service=\"".toList ++
      (cfg.busName ++ ("\">\n".toList ++
        (s.properties.flatMap s.dumpKey ++ "</provider>\n".toList))))))

omit [QVariant V] in
def dumpCommand (args : List Text) : Interpreter V :=
  let fileName := args.headD "context-provide.context".toList
  let fileName := if fileName.head? = some '/' then fileName else "./".toList ++ fileName
  { s with written := s.written ++ [(fileName, s.dumpText cfg)] }

/-! ### Running commands -/

/-- `interpret`.  What is only printed or waited for changes nothing. -/
def interpret (command : Text) (starts : Bool) : Interpreter V :=
  if command = [] then s
  else if '=' ∈ command then s.setCommand cfg command
  else
    match command.splitOn ' ' with
    | [] => s
    | commandName :: args =>
      match dispatch commandName with
      | some .add => s.addCommand cfg args starts
      | some .settype => s.setTypeCommand cfg args
      | some .del => s.delCommand args
      | some .exit => { s with running := false }
      | some .dump => s.dumpCommand cfg args
      | some .restart => s.restartCommand starts
      | some .unset => s.unsetCommand args
      | some .info | some .list | some .sleep | none => s

end Interpreter

/-- What a tool does: it adds the properties of its command line, starts its service, and runs the
commands that are typed.  The flag says whether the service can be started. -/
inductive InterpreterEvent
  | add (args : List Text) (starts : Bool)
  | restart (starts : Bool)
  | interpret (command : Text) (starts : Bool)

namespace Interpreter

variable {V : Type} [QVariant V] (cfg : ToolSettings V)

def step (s : Interpreter V) (e : InterpreterEvent) : Option (Interpreter V) :=
  if s.running then
    match e with
    | .add args starts => some (s.addCommand cfg args starts)
    | .restart starts => some (s.restartCommand starts)
    | .interpret command starts => some (s.interpret cfg command starts)
  else none

/-! ### What commands keep -/

/-- A type that `add` or `settype` has taken. -/
def Taken (registry : TypeRegistry) (t : Option AssocTree) : Prop :=
  typeDefinitionForName registry (nameOf t) ≠ none ∨
    t ∈ [some (.str "bool"), some (.str "integer"), some (.str "number")]

omit [QVariant V] in
/-- The keys are in order, none is there twice, and they have types; no other key has one. -/
structure Kept (registry : TypeRegistry) (s : Interpreter V) : Prop where
  sorted : s.properties.Pairwise (· ≤ ·)
  nodup : s.properties.Nodup
  taken : ∀ key ∈ s.properties, Taken registry (s.types key)
  others : ∀ key ∉ s.properties, s.types key = none

variable {registry : TypeRegistry} {s : Interpreter V}

theorem kept_init : (init : Interpreter V).Kept registry where
  sorted := .nil
  nodup := List.nodup_nil
  taken _ hkey := absurd hkey List.not_mem_nil
  others _ _ := rfl

omit [QVariant V] in
/-- The values, the service and the files do not matter. -/
theorem Kept.congr {t : Interpreter V} (h : s.Kept registry)
    (hproperties : t.properties = s.properties) (htypes : t.types = s.types) : t.Kept registry := by
  refine ⟨?_, ?_, ?_, ?_⟩ <;> rw [hproperties]
  · exact h.sorted
  · exact h.nodup
  · exact htypes ▸ h.taken
  · exact htypes ▸ h.others

omit [QVariant V] in
/-- A property has got a type. -/
theorem Kept.setType {t : Interpreter V} (h : s.Kept registry) {key : String} {u : Option AssocTree}
    (hu : Taken registry u) (hkey : key ∈ s.properties) (hproperties : t.properties = s.properties)
    (htypes : t.types = Function.update s.types key u) : t.Kept registry := by
  refine ⟨?_, ?_, ?_, ?_⟩ <;> rw [hproperties]
  · exact h.sorted
  · exact h.nodup
  · intro k hk
    rw [htypes]
    by_cases heq : k = key
    · rwa [heq, Function.update_self]
    · rw [Function.update_of_ne heq]
      exact h.taken k hk
  · intro k hk
    have hne : k ≠ key := fun heq => hk (by rwa [heq])
    rw [htypes, Function.update_of_ne hne]
    exact h.others k hk

omit [QVariant V] in
theorem Kept.insert (h : s.Kept registry) (key : String) {t : AssocTree}
    (ht : Taken registry (some t)) : (s.insert key t).Kept registry := by
  by_cases hkey : key ∈ s.properties
  · refine h.setType ht hkey ?_ rfl
    simp [Interpreter.insert, hkey]
  · have hproperties : (s.insert key t).properties = s.properties.orderedInsert (· ≤ ·) key := by
      simp [Interpreter.insert, hkey]
    have hmem (k : String) : k ∈ (s.insert key t).properties ↔ k = key ∨ k ∈ s.properties := by
      rw [hproperties, List.mem_orderedInsert]
    refine ⟨?_, ?_, fun k hk => ?_, fun k hk => ?_⟩
    · rw [hproperties]
      exact h.sorted.orderedInsert key s.properties
    · rw [hproperties, (List.perm_orderedInsert _ key s.properties).nodup_iff, List.nodup_cons]
      exact ⟨hkey, h.nodup⟩
    · show Taken registry (Function.update s.types key (some t) k)
      rcases eq_or_ne k key with rfl | hne
      · rwa [Function.update_self]
      · rw [Function.update_of_ne hne]
        exact h.taken k (((hmem k).1 hk).resolve_left hne)
    · rw [hmem, not_or] at hk
      show Function.update s.types key (some t) k = none
      rw [Function.update_of_ne hk.1]
      exact h.others k hk.2

omit [QVariant V] in
theorem Kept.delCommand (h : s.Kept registry) (args : List Text) :
    (s.delCommand args).Kept registry := by
  cases args with
  | nil => exact h
  | cons keyName args =>
    refine ⟨h.sorted.filter _, h.nodup.filter _, fun k hk => ?_, fun k hk => ?_⟩
    · obtain ⟨hk, hne⟩ := List.mem_filter.1 hk
      show Taken registry (Function.update s.types (String.ofList keyName) none k)
      rw [Function.update_of_ne (of_decide_eq_true hne)]
      exact h.taken k hk
    · show Function.update s.types (String.ofList keyName) none k = none
      rcases eq_or_ne k (String.ofList keyName) with rfl | hne
      · exact Function.update_self _ _ _
      · rw [Function.update_of_ne hne]
        exact h.others k fun hmem => hk (List.mem_filter.2 ⟨hmem, decide_eq_true hne⟩)

omit [QVariant V] in
theorem Kept.setCommand (h : s.Kept registry) (cfg : ToolSettings V) (command : Text) :
    (s.setCommand cfg command).Kept registry := by
  unfold Interpreter.setCommand
  dsimp only
  split_ifs
  · split
    · exact h
    · exact h.congr rfl rfl
  · exact h

theorem Kept.unsetCommand (h : s.Kept registry) (args : List Text) :
    (s.unsetCommand args).Kept registry := by
  unfold Interpreter.unsetCommand
  cases args with
  | nil => exact h
  | cons arg args =>
    dsimp only
    split_ifs
    · exact h.congr rfl rfl
    · exact h

theorem Kept.setDefault (h : s.Kept registry) (cfg : ToolSettings V) (keyName : Text)
    (value : List Text) :
    (s.setDefault cfg keyName value).Kept registry := by
  unfold Interpreter.setDefault
  split_ifs
  · exact h.unsetCommand _
  · exact h.setCommand cfg _

omit [QVariant V] in
theorem Kept.restartCommand (h : s.Kept registry) (starts : Bool) :
    (s.restartCommand starts).Kept registry := by
  unfold Interpreter.restartCommand
  split_ifs <;> exact h.congr rfl rfl

/-- An old name is converted to one of three. -/
theorem convertLegacy_cases {keyType : Text} (h : isLegacy keyType = true) :
    String.ofList (convertLegacy keyType) ∈ ["bool", "integer", "number"] := by
  simp only [isLegacy, Bool.or_eq_true, decide_eq_true_eq] at h
  rcases h with (rfl | rfl) | rfl <;> decide

theorem Kept.addCommand {cfg : ToolSettings V} (h : s.Kept cfg.registry) (args : List Text)
    (starts : Bool) : (s.addCommand cfg args starts).Kept cfg.registry := by
  unfold Interpreter.addCommand
  split
  · rename_i keyType keyName value
    dsimp only
    by_cases hunknown : ¬ isLegacy (cfg.toLower keyType) = true ∧ typeDefinitionForName cfg.registry
        (String.ofList (convertLegacy (cfg.toLower keyType))) = none
    · rwa [if_pos hunknown]
    · rw [if_neg hunknown]
      have htaken : Taken cfg.registry
          (some (.str (String.ofList (convertLegacy (cfg.toLower keyType))))) := by
        by_cases hlegacy : isLegacy (cfg.toLower keyType) = true
        · exact .inr (by simpa using convertLegacy_cases hlegacy)
        · exact .inl fun hnone => hunknown ⟨hlegacy, hnone⟩
      have hset := (h.insert (String.ofList keyName) htaken).setDefault cfg keyName value
      split_ifs
      · exact hset.restartCommand starts
      · exact hset
  · exact h

omit [QVariant V] in
theorem Kept.setTypeCommand {cfg : ToolSettings V} (h : s.Kept cfg.registry) (args : List Text) :
    (s.setTypeCommand cfg args).Kept cfg.registry := by
  unfold Interpreter.setTypeCommand
  split
  · dsimp only
    split_ifs with hkey hunknown
    · exact h
    · exact h.setType (.inl hunknown) hkey rfl rfl
    · exact h
  · exact h

/-- **Every command keeps the keys and types in order.** -/
theorem kept_step {cfg : ToolSettings V} {t : Interpreter V} (h : s.Kept cfg.registry)
    (e : InterpreterEvent) (hstep : s.step cfg e = some t) : t.Kept cfg.registry := by
  simp only [step, Option.ite_none_right_eq_some] at hstep
  obtain ⟨-, hstep⟩ := hstep
  cases e with
  | add args starts =>
    obtain rfl := Option.some.inj hstep
    exact h.addCommand args starts
  | restart starts =>
    obtain rfl := Option.some.inj hstep
    exact h.restartCommand starts
  | interpret command starts =>
    obtain rfl := Option.some.inj hstep
    unfold interpret
    split_ifs
    · exact h
    · exact h.setCommand cfg command
    · split
      · exact h
      · split
        · exact h.addCommand _ starts
        · exact h.setTypeCommand _
        · exact h.delCommand _
        · exact h.congr rfl rfl
        · exact h.congr rfl rfl
        · exact h.restartCommand starts
        · exact h.unsetCommand _
        all_goals exact h

theorem kept_of_run {cfg : ToolSettings V} {es : List InterpreterEvent}
    (hrun : run (step cfg) init es = some s) : s.Kept cfg.registry :=
  run_inv (fun _ e _ h hstep => kept_step h e hstep) kept_init hrun

end Interpreter

end ContextProvide
