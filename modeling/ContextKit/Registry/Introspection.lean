import ContextKit.Registry.ContextPropertyInfo
import ContextKit.Registry.InfoCdbBackend
import ContextKit.Registry.InfoXmlBackend
import ContextKit.Transition.Run

/-!
# Introspection: property infos over a changing registry

A process has one backend, of either kind, and any number of property infos.  The files of the
registry change at any time, the database at its path among them; the backend takes notice when one
of its slots runs, and tells the property infos by emitting `keyChanged`.

The XML backend always does.  The other one first looks whether anything is connected to it, and its
count of connections stays zero: `InfoBackend::connectNotify` takes a pointer, so it is not the
virtual function of this name that Qt 5 calls, whose argument is a reference.  Hence it never emits
anything (`Introspection.connectCount_eq_zero`).

## Main results

* `Introspection.coherent_step`: what keeps the caches equal to the answers;
* `Introspection.follows_iff`: in a run in which every change was taken notice of rightly so far, a
  slot does so if and only if it is not the one of the database, or finds no key listed before or
  after and no answer changed.
-/

namespace ContextRegistry
open ContextKit Transition

/-- What there is on disk. -/
structure RegistryFiles where
  core : Option File
  directory : Option Directory
  database : Option DatabaseFile

inductive Backend
  | xml (b : InfoXmlBackend)
  | cdb (b : InfoCdbBackend)

namespace Backend

def toInfoBackend : Backend → InfoBackend
  | xml b => b.toInfoBackend
  | cdb b => b.toInfoBackend

def listKeys (b : Backend) : List String := b.toInfoBackend.listKeys

end Backend

/-! ### The count of connections -/

/-- How a `connectNotify` takes the signal. -/
inductive NotifyArgument
  | reference
  | pointer
  deriving DecidableEq

/-- The virtual function that Qt 5 calls for a connection. -/
def notifiedByQt : NotifyArgument := .reference

/-- The function that `InfoBackend` defines. -/
def definedByInfoBackend : NotifyArgument := .pointer

/-- `connectCount` after a connection: counted if Qt calls the function that counts. -/
def connectNotify (connectCount : ℤ) : ℤ :=
  if definedByInfoBackend = notifiedByQt then connectCount + 1 else connectCount

def disconnectNotify (connectCount : ℤ) : ℤ :=
  if definedByInfoBackend = notifiedByQt then connectCount - 1 else connectCount

/-! ### The process -/

structure Introspection where
  files : RegistryFiles
  backend : Backend
  connectCount : ℤ
  /-- The live property infos. -/
  infos : List ContextPropertyInfo
  /-- The keys for which `keyChanged` was emitted in the last step. -/
  emitted : List String

namespace Introspection

inductive Slot
  | onFileChanged
  | onDirectoryChanged
  | onDatabaseDirectoryChanged

inductive Event
  /-- The files change. -/
  | change (files : RegistryFiles)
  /-- A property info is made, for a key that is not empty. -/
  | create (key : String)
  /-- A property info is deleted. -/
  | delete (i : ℕ)
  /-- Something else connects to a signal of the backend, or disconnects. -/
  | connect
  | disconnect
  | slot (slot : Slot)

/-- The backend after one of its slots, and the keys emitted; a slot of the other backend does not
run. -/
def runSlot (o : DirOrder) (path : List Char) (w : Introspection) (slot : Slot) :
    Option (Backend × List String) :=
  match w.backend, slot with
  | .xml b, .onFileChanged =>
    let (b', keys) := b.onFileChanged o w.files.core w.files.directory
    some (.xml b', keys)
  | .xml b, .onDirectoryChanged =>
    let (b', keys) := b.onDirectoryChanged o w.files.core w.files.directory
    some (.xml b', keys)
  | .cdb b, .onDatabaseDirectoryChanged =>
    let (b', keys) := b.onDatabaseDirectoryChanged path w.files.database w.connectCount
    some (.cdb b', keys)
  | _, _ => none

/-- Every property info gets every emission. -/
def notify (backend : Backend) (keys : List String) (infos : List ContextPropertyInfo) :
    List ContextPropertyInfo :=
  infos.map fun info => keys.foldl (fun info key => info.onKeyChanged backend.toInfoBackend key) info

def step (o : DirOrder) (path : List Char) (w : Introspection) : Event → Option Introspection
  | .change files => some { w with files := files, emitted := [] }
  | .create key =>
    if key = "" then none
    else
      some
        { w with
          connectCount := connectNotify w.connectCount
          infos := w.infos ++ [.create w.backend.toInfoBackend key]
          emitted := [] }
  | .delete i =>
    if i < w.infos.length then
      some
        { w with
          connectCount := disconnectNotify w.connectCount
          infos := w.infos.eraseIdx i
          emitted := [] }
    else none
  | .connect => some { w with connectCount := connectNotify w.connectCount, emitted := [] }
  | .disconnect => some { w with connectCount := disconnectNotify w.connectCount, emitted := [] }
  | .slot slot =>
    (runSlot o path w slot).map fun r =>
      { w with
        backend := r.1
        infos := notify r.1 r.2 w.infos
        emitted := r.2 }

/-- The backend has just been made. -/
def start (files : RegistryFiles) (backend : Backend) : Introspection where
  files := files
  backend := backend
  connectCount := 0
  infos := []
  emitted := []

def startCdb (path : List Char) (files : RegistryFiles) : Introspection :=
  start files (.cdb (.create path files.database))

/-! ### What a slot has to do -/

/-- The caches equal the answers of the backend. -/
def Coherent (w : Introspection) : Prop :=
  ∀ info ∈ w.infos, info = .updated w.backend.toInfoBackend info.keyName

/-- The slot does not find that there is nothing to do: the number of files, or the inode of the
database, is another one. -/
def Handles (o : DirOrder) (path : List Char) (w : Introspection) : Slot → Prop
  | .onFileChanged => True
  | .onDirectoryChanged =>
    match w.backend with
    | .xml b => InfoXmlBackend.countOfFiles o w.files.directory ≠ b.countOfFilesInLastParse
    | .cdb _ => False
  | .onDatabaseDirectoryChanged =>
    match w.backend with
    | .xml _ => False
    | .cdb b => b.lastInode ≠ stat path w.files.database

/-- After the slot the caches equal the answers, and a change that it handled was emitted once for
every key listed before or after. -/
def Follows (o : DirOrder) (path : List Char) (w : Introspection) (slot : Slot)
    (w' : Introspection) : Prop :=
  Coherent w' ∧
    (Handles o path w slot → w'.emitted.Nodup ∧
      ∀ key, key ∈ w'.emitted ↔ key ∈ w.backend.listKeys ∨ key ∈ w'.backend.listKeys)

/-- The databases before and after list no key, and say the same about the keys in use. -/
def SameDatabase (path : List Char) (w : Introspection) (b : InfoCdbBackend) : Prop :=
  b.listKeys = [] ∧ (b.reopened path w.files.database).listKeys = [] ∧
    ∀ info ∈ w.infos,
      ContextPropertyInfo.updated b.toInfoBackend info.keyName =
        .updated (b.reopened path w.files.database).toInfoBackend info.keyName

/-- The condition for a slot to do what it has to. -/
def Quiet (path : List Char) (w : Introspection) : Slot → Prop
  | .onDatabaseDirectoryChanged =>
    match w.backend with
    | .xml _ => True
    | .cdb b => b.lastInode ≠ stat path w.files.database → SameDatabase path w b
  | _ => True

def QuietEvent (path : List Char) (w : Introspection) : Event → Prop
  | .slot slot => Quiet path w slot
  | _ => True

/-! ### The connections are not counted -/

@[simp] theorem connectNotify_eq (connectCount : ℤ) : connectNotify connectCount = connectCount := rfl

@[simp] theorem disconnectNotify_eq (connectCount : ℤ) :
    disconnectNotify connectCount = connectCount := rfl

theorem connectCount_step {o : DirOrder} {path : List Char} {w w' : Introspection} {e : Event}
    (h : step o path w e = some w') : w'.connectCount = w.connectCount := by
  unfold step at h
  cases e with
  | change files => cases h; rfl
  | create key =>
    dsimp only at h
    split_ifs at h
    cases h
    rfl
  | delete i =>
    dsimp only at h
    split_ifs at h
    cases h
    rfl
  | connect => cases h; rfl
  | disconnect => cases h; rfl
  | slot slot =>
    obtain ⟨r, -, rfl⟩ := Option.map_eq_some_iff.1 h
    rfl

/-! ### The caches after emissions -/

variable {o : DirOrder} {path : List Char} {w w' : Introspection}

theorem mem_notify {backend : Backend} {keys : List String} {infos : List ContextPropertyInfo}
    {info : ContextPropertyInfo} :
    info ∈ notify backend keys infos ↔ ∃ old ∈ infos, info =
      if old.keyName ∈ keys then .updated backend.toInfoBackend old.keyName else old := by
  simp only [notify, List.mem_map, ContextPropertyInfo.foldl_onKeyChanged, eq_comm]

@[simp] theorem notify_nil (backend : Backend) (infos : List ContextPropertyInfo) :
    notify backend [] infos = infos := List.map_id infos

/-- Caches are right if what is not emitted did not change. -/
theorem coherent_notify {backend : Backend} {keys : List String} (h : Coherent w)
    (hsame : ∀ info ∈ w.infos, info.keyName ∉ keys →
      ContextPropertyInfo.updated w.backend.toInfoBackend info.keyName =
        .updated backend.toInfoBackend info.keyName) :
    Coherent { w with backend := backend, infos := notify backend keys w.infos, emitted := keys } := by
  intro info hinfo
  obtain ⟨old, hold, rfl⟩ := mem_notify.1 hinfo
  split_ifs with hkey
  · rfl
  · exact (h old hold).trans (hsame old hold hkey)

/-- About keys that are not listed the XML backend always answers the same. -/
theorem updated_of_notMem {b b' : InfoXmlBackend} {key : String}
    (h : key ∉ checkAndEmitKeyChanged b'.listKeys b.listKeys) :
    ContextPropertyInfo.updated b.toInfoBackend key = .updated b'.toInfoBackend key := by
  rw [mem_checkAndEmitKeyChanged, not_or] at h
  obtain ⟨htype, hdoc, hdeclared, -, hproviders⟩ := b.answers_of_notMem h.1
  obtain ⟨htype', hdoc', hdeclared', -, hproviders'⟩ := b'.answers_of_notMem h.2
  simp only [ContextPropertyInfo.updated, InfoXmlBackend.toInfoBackend, htype, htype', hdoc, hdoc',
    hdeclared, hdeclared', hproviders, hproviders']

/-- **The XML backend** emits every key of before and after, so the caches follow. -/
theorem follows_xml {b b' : InfoXmlBackend} (slot : Slot) (h : Coherent w)
    (hb : w.backend = .xml b) :
    Follows o path w slot
      { w with
        backend := .xml b'
        infos := notify (.xml b') (checkAndEmitKeyChanged b'.listKeys b.listKeys) w.infos
        emitted := checkAndEmitKeyChanged b'.listKeys b.listKeys } := by
  constructor
  · apply coherent_notify h
    intro info _ hkey
    rw [hb]
    exact updated_of_notMem hkey
  · intro _
    refine ⟨nodup_checkAndEmitKeyChanged b'.nodup_listKeys b.nodup_listKeys, fun key => ?_⟩
    rw [hb]
    exact mem_checkAndEmitKeyChanged _ _

/-- **The database backend** emits nothing, so the caches stay right only if there is nothing to
emit. -/
theorem follows_cdb_iff {b : InfoCdbBackend} (h : Coherent w) (hb : w.backend = .cdb b)
    (hinode : b.lastInode ≠ stat path w.files.database) :
    Follows o path w .onDatabaseDirectoryChanged
        { w with
          backend := .cdb (b.reopened path w.files.database)
          infos := notify (.cdb (b.reopened path w.files.database)) [] w.infos
          emitted := [] } ↔
      SameDatabase path w b := by
  rw [notify_nil]
  have hhandles : Handles o path w .onDatabaseDirectoryChanged := by
    unfold Handles
    rw [hb]
    exact hinode
  have hold : ∀ info ∈ w.infos, info = .updated b.toInfoBackend info.keyName := by
    intro info hinfo
    have hcached := h info hinfo
    rwa [hb] at hcached
  constructor
  · -- the empty list of emissions has to have every key listed before or after
    rintro ⟨hcoherent, hemitted⟩
    obtain ⟨-, hkeys⟩ := hemitted hhandles
    refine ⟨List.eq_nil_iff_forall_not_mem.2 fun key hkey => ?_,
      List.eq_nil_iff_forall_not_mem.2 fun key hkey => ?_, fun info hinfo => ?_⟩
    · have hmem := (hkeys key).2 (Or.inl (by rw [hb]; exact hkey))
      cases hmem
    · have hmem := (hkeys key).2 (Or.inr hkey)
      cases hmem
    · exact (hold info hinfo).symm.trans (hcoherent info hinfo)
  · rintro ⟨hbefore, hafter, hsame⟩
    refine ⟨fun info hinfo => (hold info hinfo).trans (hsame info hinfo), fun _ => ?_⟩
    refine ⟨List.nodup_nil, fun key => ?_⟩
    have hnow : w.backend.listKeys = [] := by rw [hb]; exact hbefore
    have hthen : (Backend.cdb (b.reopened path w.files.database)).listKeys = [] := hafter
    rw [hnow, hthen]
    simp

/-! ### Runs -/

/-- A slot that finds nothing to do changes nothing. -/
theorem follows_unchanged {slot : Slot} (h : Coherent w) (hhandles : ¬ Handles o path w slot) :
    Follows o path w slot { w with infos := notify w.backend [] w.infos, emitted := [] } := by
  rw [notify_nil]
  exact ⟨h, fun hyes => absurd hyes hhandles⟩

/-- **One slot**, from right caches. -/
theorem follows_iff_quiet {slot : Slot} (h : Coherent w) (hcount : w.connectCount = 0)
    (hslot : step o path w (.slot slot) = some w') :
    Follows o path w slot w' ↔ Quiet path w slot := by
  obtain ⟨r, hr, rfl⟩ := Option.map_eq_some_iff.1 hslot
  obtain ⟨files, backend, connectCount, infos, emitted⟩ := w
  subst hcount
  cases backend with
  | xml b =>
    cases slot with
    | onFileChanged =>
      cases hr
      exact iff_of_true (follows_xml _ h rfl) trivial
    | onDirectoryChanged =>
      simp only [runSlot, InfoXmlBackend.onDirectoryChanged, Option.some.injEq] at hr
      subst hr
      split_ifs with hsize
      · exact iff_of_true (follows_unchanged h fun hne => hne hsize) trivial
      · exact iff_of_true (follows_xml _ h rfl) trivial
    | onDatabaseDirectoryChanged => cases hr
  | cdb b =>
    cases slot with
    | onFileChanged => cases hr
    | onDirectoryChanged => cases hr
    | onDatabaseDirectoryChanged =>
      simp only [runSlot, InfoCdbBackend.onDatabaseDirectoryChanged, Option.some.injEq] at hr
      subst hr
      by_cases hinode : b.lastInode = stat path files.database
      · rw [if_neg (not_not.2 hinode)]
        exact iff_of_true (follows_unchanged h fun hne => hne hinode)
          fun hne => absurd hinode hne
      · rw [if_pos hinode, if_pos trivial]
        exact (follows_cdb_iff h rfl hinode).trans ⟨fun hsame _ => hsame, fun hq => hq hinode⟩

/-- **Right caches stay right** through every event but a slot that misses a change. -/
theorem coherent_step {e : Event} (h : Coherent w) (hcount : w.connectCount = 0)
    (hquiet : QuietEvent path w e) (hstep : step o path w e = some w') : Coherent w' := by
  cases e with
  | change files => cases hstep; exact h
  | create key =>
    unfold step at hstep
    dsimp only at hstep
    split_ifs at hstep with hkey
    cases hstep
    intro info hinfo
    rcases List.mem_append.1 hinfo with hinfo | hinfo
    · exact h info hinfo
    · rw [List.mem_singleton.1 hinfo, ContextPropertyInfo.create_of_ne _ hkey]
      rfl
  | delete i =>
    unfold step at hstep
    dsimp only at hstep
    split_ifs at hstep
    cases hstep
    exact fun info hinfo => h info (List.mem_of_mem_eraseIdx hinfo)
  | connect => cases hstep; exact h
  | disconnect => cases hstep; exact h
  | slot slot => exact ((follows_iff_quiet h hcount hstep).2 hquiet).1

/-- **The caches follow the registry exactly as long as the database backend has nothing to emit**:
with either backend, after any changes of the files and any property infos made or deleted, if every
slot so far met the condition, the next one does what it has to if and only if it meets it. -/
theorem follows_iff {files : RegistryFiles} {backend : Backend} {es : List Event} {slot : Slot}
    (hquiet : Along (step o path) (QuietEvent path) (start files backend) es)
    (hrun : run (step o path) (start files backend) es = some w)
    (hslot : step o path w (.slot slot) = some w') :
    Follows o path w slot w' ↔ Quiet path w slot := by
  have hinv : Coherent w ∧ w.connectCount = 0 := by
    apply run_inv_along (P := fun w => Coherent w ∧ w.connectCount = 0) ?_ ?_ hquiet hrun
    · intro s e t hs he hstep
      exact ⟨coherent_step hs.1 hs.2 he hstep, (connectCount_step hstep).trans hs.2⟩
    · exact ⟨nofun, rfl⟩
  exact follows_iff_quiet hinv.1 hinv.2 hslot

/-- A property info for a key that neither database declares, and the slot of the database. -/
theorem follows_iff_example :
    let path := "/cache.cdb".toList
    ∃ w w', run (step .byName path) (startCdb path ⟨none, none, some ⟨1, .reading []⟩⟩)
        [.create "A", .change ⟨none, none, some ⟨2, .reading [("VERSION", .string "0.2")]⟩⟩] =
          some w ∧
      step .byName path w (.slot .onDatabaseDirectoryChanged) = some w' ∧
      Handles .byName path w .onDatabaseDirectoryChanged ∧
      (Follows .byName path w .onDatabaseDirectoryChanged w' ↔
        Quiet path w .onDatabaseDirectoryChanged) := by
  intro path
  have hquiet : Along (step .byName path) (QuietEvent path)
      (startCdb path ⟨none, none, some ⟨1, .reading []⟩⟩)
      [.create "A", .change ⟨none, none, some ⟨2, .reading [("VERSION", .string "0.2")]⟩⟩] :=
    ⟨trivial, fun _ _ => ⟨trivial, fun _ _ => trivial⟩⟩
  exact ⟨_, _, rfl, rfl, show (1 : ℕ) ≠ 2 by decide, follows_iff hquiet rfl rfl⟩

/-- **A change that is missed**: a property info waits for its key, the database is replaced by one
that declares it, and the slot runs. -/
theorem exists_change_missed :
    let path := "/cache.cdb".toList
    let db : Database := [("KEYS", .string "A"),
      ("A:PROVIDERS", .list [.hash [("plugin", .string "p"), ("constructionString", .string "")]])]
    ∃ w w', run (step .byName path) (startCdb path ⟨none, none, some ⟨1, .reading []⟩⟩)
        [.create "A", .change ⟨none, none, some ⟨2, .reading db⟩⟩] = some w ∧
      step .byName path w (.slot .onDatabaseDirectoryChanged) = some w' ∧
      w'.backend.toInfoBackend.providersForKey "A" = [⟨"p", ""⟩] ∧
      w'.infos.map (fun info => info.cachedProviders) = [[]] ∧
      ¬ Follows .byName path w .onDatabaseDirectoryChanged w' := by
  intro path db
  refine ⟨_, _, rfl, rfl, by decide, by decide, fun h => ?_⟩
  have hemitted := (h.2 (show (1 : ℕ) ≠ 2 by decide)).2 "A"
  exact absurd (hemitted.2 (Or.inr (by decide))) (by decide)

end Introspection

end ContextRegistry
