import ContextKit.Registry.InfoXmlBackend
import ContextKit.Transition.Run

/-!
# Watching the registry directory

The XML backend hears of changes from a `QFileSystemWatcher`, which watches the directory and every
file that was parsed.  A file that is added, removed or replaced makes it queue `directoryChanged`; a
watched file that is modified, removed or replaced makes it queue `fileChanged`, and is not watched
any longer if it was removed or replaced.  What is queued is delivered later, in any order, and the
slots run then.

`onDirectoryChanged` only compares the number of `.context` files with that of the last time they
were parsed.  `Synced` says why that is enough: as long as no `fileChanged` is queued, the files
that were parsed are all there and as they were, so files can only have been added.

## Main results

* `WatchedRegistry.synced_step`: every change of a file and every slot keeps `Synced`;
* `WatchedRegistry.no_change_missed`: when nothing is queued, the backend holds what parsing the
  directory now would give.
-/

namespace ContextRegistry
open ContextKit Transition

inductive Notification
  | directoryChanged
  | fileChanged (name : String)
  deriving DecidableEq

/-- The directory, the backend with its watcher, and the notifications not yet delivered. -/
structure WatchedRegistry where
  dir : Directory
  backend : InfoXmlBackend
  queue : List Notification

namespace WatchedRegistry

/-- Changes of the directory, and the delivery of a notification. -/
inductive Event
  | add (name : String) (file : File)
  | remove (name : String)
  | modify (name : String) (file : File)
  | replace (name : String) (file : File)
  | deliver (n : Notification)

/-- The notification of a change of this file, if the file is watched. -/
def fileNotification (s : WatchedRegistry) (name : String) : List Notification :=
  if name ∈ s.backend.watchedFiles then [.fileChanged name] else []

/-- The watcher drops a file. -/
def unwatch (b : InfoXmlBackend) (name : String) : InfoXmlBackend :=
  { b with watchedFiles := b.watchedFiles.filter fun n => n ≠ name }

/-- The slot connected to a notification. -/
def handle (o : DirOrder) (core : Option File) (dir : Directory) (b : InfoXmlBackend) :
    Notification → InfoXmlBackend
  | .directoryChanged => (b.onDirectoryChanged o core (some dir)).1
  | .fileChanged _ => (b.onFileChanged o core (some dir)).1

def step (o : DirOrder) (core : Option File) (s : WatchedRegistry) : Event → Option WatchedRegistry
  | .add name file =>
    if name ∈ s.dir then none
    else
      some
        { s with
          dir := s.dir.insert name file
          queue := s.queue ++ [.directoryChanged] }
  | .remove name =>
    if name ∈ s.dir then
      some
        { dir := s.dir.erase name
          backend := unwatch s.backend name
          queue := s.queue ++ [.directoryChanged] ++ s.fileNotification name }
    else none
  | .modify name file =>
    if name ∈ s.dir then
      some
        { s with
          dir := s.dir.insert name file
          queue := s.queue ++ s.fileNotification name }
    else none
  | .replace name file =>
    if name ∈ s.dir then
      some
        { dir := s.dir.insert name file
          backend := unwatch s.backend name
          queue := s.queue ++ [.directoryChanged] ++ s.fileNotification name }
    else none
  | .deliver n =>
    if n ∈ s.queue then
      some
        { s with
          backend := handle o core s.dir s.backend n
          queue := s.queue.erase n }
    else none

/-- The constructor of the backend has parsed the directory and watches it. -/
def start (o : DirOrder) (core : Option File) (dir : Directory) : WatchedRegistry where
  dir := dir
  backend := .regenerateKeyDataList o core (some dir)
  queue := []

variable (o : DirOrder) (core : Option File)

/-- The backend has parsed `d₀`.  Unless a `fileChanged` is queued, the `.context` files of `d₀` are
still there unchanged and watched, and new ones are announced by a `directoryChanged`. -/
structure SyncedWith (s : WatchedRegistry) (d₀ : Directory) : Prop where
  hashes : s.backend.hashes = (InfoXmlBackend.regenerateKeyDataList o core (some d₀)).hashes
  count : s.backend.countOfFilesInLastParse = (contextFiles d₀).card
  kept : (∀ name, .fileChanged name ∉ s.queue) → ∀ name ∈ contextFiles d₀,
    s.dir.lookup name = d₀.lookup name ∧ name ∈ s.backend.watchedFiles
  announced : (∀ name, .fileChanged name ∉ s.queue) →
    .directoryChanged ∈ s.queue ∨ contextFiles s.dir = contextFiles d₀

/-- The invariant. -/
def Synced (s : WatchedRegistry) : Prop := ∃ d₀, SyncedWith o core s d₀

variable {o core}

theorem mem_contextFiles {dir : Directory} {name : String} :
    name ∈ contextFiles dir ↔ name ∈ dir ∧ isContext name := by
  rw [contextFiles, Finset.mem_filter, Finmap.mem_keys]

theorem SyncedWith.mem_dir {s : WatchedRegistry} {d₀ : Directory} (hs : SyncedWith o core s d₀)
    (hnone : ∀ name, .fileChanged name ∉ s.queue) {name : String} (h : name ∈ contextFiles d₀) :
    name ∈ s.dir := by
  rw [← Finmap.lookup_isSome, (hs.kept hnone name h).1, Finmap.lookup_isSome]
  exact (mem_contextFiles.1 h).1

/-- Parsed just now. -/
theorem synced_regenerate (dir : Directory) (queue : List Notification) :
    Synced o core ⟨dir, .regenerateKeyDataList o core (some dir), queue⟩ := by
  refine ⟨dir, rfl, InfoXmlBackend.count_regenerate o core dir, ?_, fun _ => Or.inr rfl⟩
  intro _ name hname
  exact ⟨rfl, (InfoXmlBackend.mem_watched_regenerate o core dir name).2 hname⟩

/-- A change of one file, announced if it is watched or if the set of `.context` files changes. -/
theorem synced_change {s t : WatchedRegistry} (h : Synced o core s) (name : String)
    (hhashes : t.backend.hashes = s.backend.hashes)
    (hcount : t.backend.countOfFilesInLastParse = s.backend.countOfFilesInLastParse)
    (hlookup : ∀ n ≠ name, t.dir.lookup n = s.dir.lookup n)
    (hwatched : ∀ n ≠ name, n ∈ s.backend.watchedFiles → n ∈ t.backend.watchedFiles)
    (hqueue : ∀ n ∈ s.queue, n ∈ t.queue)
    (hfile : name ∈ s.backend.watchedFiles → .fileChanged name ∈ t.queue)
    (hdir : .directoryChanged ∈ t.queue ∨ contextFiles t.dir = contextFiles s.dir) :
    Synced o core t := by
  obtain ⟨d₀, hs⟩ := h
  refine ⟨d₀, hhashes.trans hs.hashes, hcount.trans hs.count, ?_, ?_⟩
  · intro hnone n hn
    have hbefore : ∀ m, .fileChanged m ∉ s.queue := fun m hm => hnone m (hqueue _ hm)
    obtain ⟨hkept, hwatch⟩ := hs.kept hbefore n hn
    -- the changed file is none of those that were parsed, since they are all watched
    have hne : n ≠ name := by
      rintro rfl
      exact hnone n (hfile hwatch)
    exact ⟨(hlookup n hne).trans hkept, hwatched n hne hwatch⟩
  · intro hnone
    have hbefore : ∀ m, .fileChanged m ∉ s.queue := fun m hm => hnone m (hqueue _ hm)
    rcases hdir with hdir | hdir
    · exact Or.inl hdir
    · rw [hdir]
      exact (hs.announced hbefore).imp_left (hqueue _)

/-- A new file was not parsed: one that was parsed and is not there any more has been announced by a
`fileChanged`. -/
theorem synced_add {s : WatchedRegistry} (h : Synced o core s) {name : String} (file : File)
    (hnew : name ∉ s.dir) :
    Synced o core ⟨s.dir.insert name file, s.backend, s.queue ++ [.directoryChanged]⟩ := by
  obtain ⟨d₀, hs⟩ := h
  refine ⟨d₀, hs.hashes, hs.count, ?_, fun _ => Or.inl (by simp)⟩
  intro hnone n hn
  have hbefore : ∀ m, .fileChanged m ∉ s.queue := fun m hm => hnone m (by simp [hm])
  obtain ⟨hkept, hwatch⟩ := hs.kept hbefore n hn
  have hne : n ≠ name := by
    rintro rfl
    exact hnew (hs.mem_dir hbefore hn)
  exact ⟨(Finmap.lookup_insert_of_ne _ hne).trans hkept, hwatch⟩

/-- **The shortcut of `onDirectoryChanged`**: it returns early only if no `.context` file is new, or a
`fileChanged` is still queued. -/
theorem synced_directoryChanged {s : WatchedRegistry} (h : Synced o core s) :
    Synced o core ⟨s.dir, (s.backend.onDirectoryChanged o core (some s.dir)).1,
      s.queue.erase .directoryChanged⟩ := by
  unfold InfoXmlBackend.onDirectoryChanged
  split_ifs with hsize
  · obtain ⟨d₀, hs⟩ := h
    have hbefore : (∀ n, .fileChanged n ∉ s.queue.erase .directoryChanged) →
        ∀ n, .fileChanged n ∉ s.queue := fun hnone n hn =>
      hnone n ((List.mem_erase_of_ne (by simp)).2 hn)
    refine ⟨d₀, hs.hashes, hs.count, fun hnone => hs.kept (hbefore hnone), fun hnone => ?_⟩
    right
    have hsubset : contextFiles d₀ ⊆ contextFiles s.dir := by
      intro n hn
      have hcontext := (mem_contextFiles.1 hn).2
      exact mem_contextFiles.2 ⟨hs.mem_dir (hbefore hnone) hn, hcontext⟩
    have hcard : (contextFiles s.dir).card = (contextFiles d₀).card := by
      rw [← hs.count, ← hsize]
      exact (o.length_list _).symm
    exact (Finset.eq_of_subset_of_card_le hsubset hcard.le).symm
  · exact synced_regenerate s.dir _

theorem contextFiles_insert {dir : Directory} {name : String} (file : File) (h : name ∈ dir) :
    contextFiles (dir.insert name file) = contextFiles dir := by
  ext n
  rw [mem_contextFiles, mem_contextFiles, Finmap.mem_insert]
  refine and_congr_left fun _ => ⟨?_, Or.inr⟩
  rintro (rfl | hn)
  exacts [h, hn]

theorem mem_unwatch {b : InfoXmlBackend} {name n : String} (hne : n ≠ name)
    (h : n ∈ b.watchedFiles) : n ∈ (unwatch b name).watchedFiles :=
  List.mem_filter.2 ⟨h, by simpa using hne⟩

theorem mem_fileNotification {s : WatchedRegistry} {name : String}
    (h : name ∈ s.backend.watchedFiles) : .fileChanged name ∈ s.fileNotification name := by
  simp [fileNotification, h]

/-- **The step lemma.** -/
theorem synced_step {s t : WatchedRegistry} {e : Event} (h : Synced o core s)
    (hstep : step o core s e = some t) : Synced o core t := by
  cases e with
  | add name file =>
    obtain ⟨hnew, hstep⟩ := Option.ite_none_left_eq_some.1 hstep
    cases hstep
    exact synced_add h file hnew
  | remove name =>
    obtain ⟨hmem, hstep⟩ := Option.ite_none_right_eq_some.1 hstep
    cases hstep
    refine synced_change h name rfl rfl (fun n hn => Finmap.lookup_erase_ne hn)
      (fun n hn => mem_unwatch hn) (fun n hn => ?_) (fun hn => ?_) (Or.inl ?_)
    · simp [hn]
    · exact List.mem_append_right _ (mem_fileNotification hn)
    · simp
  | modify name file =>
    obtain ⟨hmem, hstep⟩ := Option.ite_none_right_eq_some.1 hstep
    cases hstep
    refine synced_change h name rfl rfl (fun n hn => Finmap.lookup_insert_of_ne _ hn)
      (fun n _ hn => hn) (fun n hn => List.mem_append_left _ hn) (fun hn => ?_)
      (Or.inr (contextFiles_insert file hmem))
    exact List.mem_append_right _ (mem_fileNotification hn)
  | replace name file =>
    obtain ⟨hmem, hstep⟩ := Option.ite_none_right_eq_some.1 hstep
    cases hstep
    refine synced_change h name rfl rfl (fun n hn => Finmap.lookup_insert_of_ne _ hn)
      (fun n hn => mem_unwatch hn) (fun n hn => ?_) (fun hn => ?_) (Or.inl ?_)
    · simp [hn]
    · exact List.mem_append_right _ (mem_fileNotification hn)
    · simp
  | deliver n =>
    obtain ⟨hqueued, hstep⟩ := Option.ite_none_right_eq_some.1 hstep
    cases hstep
    cases n with
    | directoryChanged => exact synced_directoryChanged h
    | fileChanged name => exact synced_regenerate s.dir _

/-- Directories with the same `.context` files are parsed alike. -/
theorem allDeclarations_congr {dir dir' : Directory} (hnames : contextFiles dir = contextFiles dir')
    (hlookup : ∀ name ∈ contextFiles dir', dir.lookup name = dir'.lookup name) :
    InfoXmlBackend.allDeclarations o core (some dir) =
      InfoXmlBackend.allDeclarations o core (some dir') := by
  unfold InfoXmlBackend.allDeclarations
  congr 1
  show (entryInfoList o dir).flatMap _ = (entryInfoList o dir').flatMap _
  rw [entryInfoList, entryInfoList, hnames]
  apply List.flatMap_congr
  intro name hname
  rw [hlookup name ((o.mem_list _ name).1 hname)]

/-- **No change of the registry is missed**: from a directory that was parsed and is watched, through
changes of files and deliveries in any order, whenever no notification is queued, the hashes are
those that parsing the directory now gives. -/
theorem no_change_missed {dir : Directory} {s : WatchedRegistry} {es : List Event}
    (hrun : run (step o core) (start o core dir) es = some s) (hqueue : s.queue = []) :
    s.backend.hashes = (InfoXmlBackend.regenerateKeyDataList o core (some s.dir)).hashes := by
  obtain ⟨d₀, hs⟩ : Synced o core s :=
    run_inv (fun s e t h hstep => synced_step h hstep) (synced_regenerate dir []) hrun
  have hnone : ∀ name, Notification.fileChanged name ∉ s.queue := by simp [hqueue]
  have hnames : contextFiles s.dir = contextFiles d₀ := by
    rcases hs.announced hnone with hdir | hnames
    · simp [hqueue] at hdir
    · exact hnames
  rw [hs.hashes, InfoXmlBackend.hashes_regenerate, InfoXmlBackend.hashes_regenerate,
    allDeclarations_congr hnames fun name hname => (hs.kept hnone name hname).1]

/-- One file is removed and another one added, so both `directoryChanged` come to the same number of
files, and the `fileChanged` of the removed file comes last. -/
theorem no_change_missed_run :
    let file (key : String) : File := some ⟨"", "provider",
      [.node "plugin" [.str "p"], .node "key" [.node "name" [.str key]]]⟩
    let ran := run (step .byName none) (start .byName none (Finmap.insert "a.context" (file "A") ∅))
      [.remove "a.context", .add "b.context" (file "B"), .deliver .directoryChanged,
        .deliver .directoryChanged, .deliver (.fileChanged "a.context")]
    ran.map (fun s => (s.queue, s.backend.listKeys)) = some ([], ["B"]) ∧
      ∀ s, ran = some s →
        s.backend.hashes =
          (InfoXmlBackend.regenerateKeyDataList .byName none (some s.dir)).hashes := by
  intro file ran
  have hran : ran.map (fun s => (s.queue, s.backend.listKeys)) = some ([], ["B"]) := by decide
  refine ⟨hran, fun s hs => no_change_missed hs ?_⟩
  rw [hs] at hran
  exact congrArg Prod.fst (Option.some.inj hran)

end WatchedRegistry

end ContextRegistry
