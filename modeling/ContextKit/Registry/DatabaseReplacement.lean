import ContextKit.Registry.InfoCdbBackend
import ContextKit.Transition.Run

/-!
# Replacing the database while it is opened

`update-contextkit-providers` writes a new database and renames it to `cache.cdb`, at any time.  The
backend takes several steps to open the file: its constructor opens it, adds the watch and asks for
the inode; the slot asks for the inode and, if it is not the one remembered, opens the file again.
Here a replacement can come between any two of them.

The inode is remembered in place of the file that is open.  `missed_of_not_timely` and
`upToDate_of_timely` say when this goes wrong: if the file is replaced before the constructor has
asked for the inode of the one it opened, or by a file for which `stat` gives what is remembered.
The latter is not impossible.  The slot may open a later file than the one whose inode it remembers,
which is then gone, and its inode free; and where `stat` finds no file, it gives 0 every time.

## Main results

* `ReplacedDatabase.sound_step`: a timely replacement, and every step of the backend, keeps `Sound`;
* `ReplacedDatabase.upToDate_iff_timely`: every replacement is picked up if and only if each is
  timely.
-/

namespace ContextRegistry
open Transition

/-- Where the backend is. -/
inductive BackendPhase
  | allocated
  | opened
  | watched
  | idle
  | reopening
  deriving DecidableEq

/-- The file at the path; the file that the reader has open; the inode remembered; and the number of
notifications queued. -/
structure ReplacedDatabase where
  file : Option DatabaseFile
  reader : Option DatabaseFile
  lastInode : ℕ
  phase : BackendPhase
  queue : ℕ

namespace ReplacedDatabase

/-- A new file is renamed to the path, or another one of the directory changes; the steps of the
constructor; those of the slot. -/
inductive Event
  | renamed (file : DatabaseFile)
  | otherChanged
  | openReader
  | addPath
  | statInode
  | directoryChanged
  | reopenReader

/-- The backend does it, not somebody else. -/
def Event.IsInternal : Event → Prop
  | .renamed _ | .otherChanged => False
  | _ => True

/-- What is queued once something has changed in the directory. -/
def notified (s : ReplacedDatabase) : ℕ :=
  if s.phase = .allocated ∨ s.phase = .opened then s.queue else s.queue + 1

/-- A new file has an inode that neither the file at the path nor the one that is open has; 0 is
none. -/
def step (path : List Char) (s : ReplacedDatabase) : Event → Option ReplacedDatabase
  | .renamed file =>
    if file.inode = 0 ∨ file.inode = inodeOf s.file ∨ file.inode = inodeOf s.reader then none
    else some { s with file := some file, queue := s.notified }
  | .otherChanged => some { s with queue := s.notified }
  | .openReader =>
    if s.phase = .allocated then some { s with reader := s.file, phase := .opened } else none
  | .addPath => if s.phase = .opened then some { s with phase := .watched } else none
  | .statInode =>
    if s.phase = .watched then some { s with lastInode := stat path s.file, phase := .idle }
    else none
  | .directoryChanged =>
    if s.phase = .idle ∧ s.queue ≠ 0 then
      if s.lastInode ≠ stat path s.file then
        some
          { s with
            lastInode := stat path s.file
            phase := .reopening
            queue := s.queue - 1 }
      else some { s with queue := s.queue - 1 }
    else none
  | .reopenReader =>
    if s.phase = .reopening then some { s with reader := s.file, phase := .idle } else none

/-- The constructor has not begun. -/
def start (file : Option DatabaseFile) : ReplacedDatabase where
  file := file
  reader := none
  lastInode := 0
  phase := .allocated
  queue := 0

/-- The constructor has finished, and no notification is queued or handled. -/
def Settled (s : ReplacedDatabase) : Prop := s.phase = .idle ∧ s.queue = 0

variable {path : List Char}

/-! ### With nothing in between -/

/-- The steps of the constructor come to `create`. -/
theorem run_constructor (file : Option DatabaseFile) :
    ∃ t, run (step path) (start file) [.openReader, .addPath, .statInode] = some t ∧ Settled t ∧
      reopen t.reader = (InfoCdbBackend.create path file).reader ∧
      t.lastInode = (InfoCdbBackend.create path file).lastInode :=
  ⟨_, rfl, ⟨rfl, rfl⟩, rfl, rfl⟩

/-- Those of the slot come to `onDatabaseDirectoryChanged`. -/
theorem run_slot {s : ReplacedDatabase} (hphase : s.phase = .idle) (hqueue : s.queue ≠ 0)
    (b : InfoCdbBackend) (hreader : b.reader = reopen s.reader) (hlast : b.lastInode = s.lastInode)
    (connectCount : ℤ) :
    ∃ es t, run (step path) s es = some t ∧ t.phase = .idle ∧ t.file = s.file ∧
      t.queue = s.queue - 1 ∧
      (b.onDatabaseDirectoryChanged path s.file connectCount).1.reader = reopen t.reader ∧
      (b.onDatabaseDirectoryChanged path s.file connectCount).1.lastInode = t.lastInode := by
  by_cases hinode : s.lastInode = stat path s.file
  · refine ⟨[.directoryChanged], { s with queue := s.queue - 1 }, ?_, hphase, rfl, rfl, ?_⟩
    · simp [run_cons, step, hphase, hqueue, hinode]
    · simp [InfoCdbBackend.onDatabaseDirectoryChanged, hlast, hinode, hreader]
  · refine ⟨[.directoryChanged, .reopenReader],
      { s with reader := s.file, lastInode := stat path s.file, queue := s.queue - 1 }, ?_,
      hphase, rfl, rfl, ?_⟩
    · simp [run_cons, step, hphase, hqueue, hinode]
    · rw [InfoCdbBackend.onDatabaseDirectoryChanged, hlast, if_pos hinode]
      dsimp only
      split <;> exact ⟨rfl, rfl⟩

/-! ### Replacements that are picked up -/

/-- The file is not replaced while the constructor has opened it but not asked for its inode, and,
while the backend is idle, not by a file with the inode remembered. -/
def Timely (path : List Char) (s : ReplacedDatabase) : Event → Prop
  | .renamed file =>
    s.phase ≠ .opened ∧ s.phase ≠ .watched ∧
      (s.phase = .idle → stat path (some file) ≠ s.lastInode)
  | _ => True

/-- The reader is up to date once it is open, unless a notification is queued that will tell, or it
is about to be opened again. -/
structure Sound (path : List Char) (s : ReplacedDatabase) : Prop where
  opened : s.phase = .opened ∨ s.phase = .watched → s.reader = s.file
  idle : s.phase = .idle → s.reader = s.file ∨ s.queue ≠ 0 ∧ stat path s.file ≠ s.lastInode

theorem sound_start (file : Option DatabaseFile) : Sound path (start file) :=
  ⟨fun h => by simp [start] at h, fun h => by simp [start] at h⟩

/-- A change elsewhere only queues a notification. -/
theorem Sound.notified {s : ReplacedDatabase} (hs : Sound path s) :
    Sound path { s with queue := s.notified } := by
  refine ⟨hs.opened, fun hphase => (hs.idle hphase).imp_right fun h => ⟨?_, h.2⟩⟩
  simp [ReplacedDatabase.notified, show s.phase = .idle from hphase]

theorem sound_step {s t : ReplacedDatabase} {e : Event} (hs : Sound path s)
    (htimely : Timely path s e) (h : step path s e = some t) : Sound path t := by
  cases e with
  | renamed file =>
    obtain ⟨-, ht⟩ := Option.ite_none_left_eq_some.1 h
    cases ht
    obtain ⟨hopened, hwatched, hidle⟩ := htimely
    refine ⟨fun hphase => ?_, fun hphase => .inr ⟨?_, hidle hphase⟩⟩
    · exact absurd hphase (not_or.2 ⟨hopened, hwatched⟩)
    · simp [ReplacedDatabase.notified, show s.phase = .idle from hphase]
  | otherChanged =>
    cases h
    exact hs.notified
  | openReader =>
    obtain ⟨-, ht⟩ := Option.ite_none_right_eq_some.1 h
    cases ht
    exact ⟨fun _ => rfl, fun hphase => by cases hphase⟩
  | addPath =>
    obtain ⟨hphase, ht⟩ := Option.ite_none_right_eq_some.1 h
    cases ht
    exact ⟨fun _ => hs.opened (.inl hphase), fun hphase => by cases hphase⟩
  | statInode =>
    obtain ⟨hphase, ht⟩ := Option.ite_none_right_eq_some.1 h
    cases ht
    exact ⟨fun hphase => by simp at hphase, fun _ => .inl (hs.opened (.inr hphase))⟩
  | directoryChanged =>
    obtain ⟨⟨hphase, -⟩, ht⟩ := Option.ite_none_right_eq_some.1 h
    split at ht
    · cases ht
      exact ⟨fun hphase => by simp at hphase, fun hphase => by cases hphase⟩
    · rename_i hinode
      cases ht
      -- A notification is dropped only if it tells nothing.
      refine ⟨hs.opened, fun _ => .inl ?_⟩
      exact (hs.idle hphase).resolve_right fun hqueued => hinode hqueued.2.symm
  | reopenReader =>
    obtain ⟨-, ht⟩ := Option.ite_none_right_eq_some.1 h
    cases ht
    exact ⟨fun _ => rfl, fun _ => .inl rfl⟩

theorem Sound.upToDate {s : ReplacedDatabase} (hs : Sound path s) (hsettled : Settled s) :
    s.reader = s.file :=
  (hs.idle hsettled.1).resolve_right fun hqueued => hqueued.1 hsettled.2

theorem upToDate_of_timely {file : Option DatabaseFile} {es : List Event} {s : ReplacedDatabase}
    (htimely : Along (step path) (Timely path) (start file) es)
    (h : run (step path) (start file) es = some s) (hsettled : Settled s) : s.reader = s.file :=
  (run_inv_along (fun _ _ _ => sound_step) (sound_start file) htimely h).upToDate hsettled

/-! ### Replacements that are not -/

/-- The reader has another file open, and asking for the inode will not tell. -/
structure Missed (path : List Char) (s : ReplacedDatabase) : Prop where
  stale : s.reader ≠ s.file
  phase : s.phase = .opened ∨ s.phase = .watched ∨
    s.phase = .idle ∧ s.lastInode = stat path s.file

theorem missed_of_not_timely {s t : ReplacedDatabase} {e : Event} (h : step path s e = some t)
    (hlate : ¬ Timely path s e) : Missed path t := by
  cases e with
  | renamed file =>
    obtain ⟨hfresh, ht⟩ := Option.ite_none_left_eq_some.1 h
    cases ht
    refine ⟨fun heq => hfresh (.inr (.inr ?_)), ?_⟩
    · rw [show s.reader = some file from heq]
      rfl
    · by_contra hphase
      apply hlate
      simp only [not_or, not_and] at hphase
      exact ⟨hphase.1, hphase.2.1, fun hidle => Ne.symm (hphase.2.2 hidle)⟩
  | otherChanged | openReader | addPath | statInode | directoryChanged | reopenReader =>
    exact absurd trivial hlate

/-- What is queued is handled, and nothing comes of it. -/
theorem Missed.settle_idle {s : ReplacedDatabase} (hs : Missed path s) (hphase : s.phase = .idle) :
    ∃ ds u, (∀ d ∈ ds, d.IsInternal) ∧ run (step path) s ds = some u ∧ Settled u ∧
      u.reader ≠ u.file := by
  have hinode : s.lastInode = stat path s.file := by
    simpa [hphase] using hs.phase
  generalize hqueue : s.queue = n
  induction n generalizing s with
  | zero => exact ⟨[], s, by simp, rfl, ⟨hphase, hqueue⟩, hs.stale⟩
  | succ n ih =>
    have hstep : step path s .directoryChanged = some { s with queue := n } := by
      simp [step, hphase, hqueue, hinode]
    obtain ⟨ds, u, hds, hrun, hu⟩ := @ih { s with queue := n }
      ⟨hs.stale, .inr (.inr ⟨hphase, hinode⟩)⟩ hphase hinode rfl
    refine ⟨.directoryChanged :: ds, u, ?_, ?_, hu⟩
    · simpa [Event.IsInternal] using hds
    · rw [run_cons, hstep]
      exact hrun

theorem Missed.settle {s : ReplacedDatabase} (hs : Missed path s) :
    ∃ ds u, (∀ d ∈ ds, d.IsInternal) ∧ run (step path) s ds = some u ∧ Settled u ∧
      u.reader ≠ u.file := by
  -- The constructor comes to its end first.
  have hwatched {t : ReplacedDatabase} (hstale : t.reader ≠ t.file) (hphase : t.phase = .watched) :
      ∃ ds u, (∀ d ∈ ds, d.IsInternal) ∧ run (step path) t ds = some u ∧ Settled u ∧
        u.reader ≠ u.file := by
    have hmissed : Missed path { t with lastInode := stat path t.file, phase := .idle } :=
      ⟨hstale, .inr (.inr ⟨rfl, rfl⟩)⟩
    obtain ⟨ds, u, hds, hrun, hu⟩ := hmissed.settle_idle rfl
    refine ⟨.statInode :: ds, u, ?_, ?_, hu⟩
    · simpa [Event.IsInternal] using hds
    · rw [run_cons, step, if_pos hphase]
      exact hrun
  rcases hs.phase with hphase | hphase | ⟨hphase, -⟩
  · obtain ⟨ds, u, hds, hrun, hu⟩ :=
      hwatched (t := { s with phase := .watched }) hs.stale rfl
    refine ⟨.addPath :: ds, u, ?_, ?_, hu⟩
    · simpa [Event.IsInternal] using hds
    · rw [run_cons, step, if_pos hphase]
      exact hrun
  · exact hwatched hs.stale hphase
  · exact hs.settle_idle hphase

/-! ### Every replacement -/

theorem timely_of_isInternal {s : ReplacedDatabase} {ds : List Event} (h : ∀ d ∈ ds, d.IsInternal) :
    Along (step path) (Timely path) s ds := by
  apply Along.of_inv (P := fun _ => True) (fun _ _ _ _ _ _ => trivial) _ trivial (along_of_forall h)
  intro s e _ hinternal
  cases e with
  | renamed file => exact hinternal.elim
  | _ => trivial

theorem timely_of_upToDate {s w : ReplacedDatabase} {es : List Event}
    (h : run (step path) s es = some w)
    (hupToDate : ∀ pre ds u, pre <+: es → (∀ d ∈ ds, d.IsInternal) →
      run (step path) s (pre ++ ds) = some u → Settled u → u.reader = u.file) :
    Along (step path) (Timely path) s es := by
  induction es generalizing s with
  | nil => trivial
  | cons e es ih =>
    obtain ⟨t, ht, hrun⟩ := run_cons_eq_some.1 h
    have htimely : Timely path s e := by
      by_contra hlate
      obtain ⟨ds, u, hds, hu, hsettled, hstale⟩ := (missed_of_not_timely ht hlate).settle
      apply hstale
      refine hupToDate [e] ds u ?_ hds ?_ hsettled
      · rw [List.cons_prefix_cons]
        exact ⟨rfl, List.nil_prefix⟩
      · rw [List.cons_append, run_cons, ht]
        exact hu
    refine .cons htimely ht (ih hrun fun pre ds u hpre hds hu => ?_)
    refine hupToDate (e :: pre) ds u ?_ hds ?_
    · rw [List.cons_prefix_cons]
      exact ⟨rfl, hpre⟩
    · rw [List.cons_append, run_cons, ht]
      exact hu

/-- **Whenever the backend is settled**, now or after handling what is queued, the reader reads the
file at the path: this is so all along a run if and only if its replacements are timely. -/
theorem upToDate_iff_timely {file : Option DatabaseFile} {es : List Event} {w : ReplacedDatabase}
    (h : run (step path) (start file) es = some w) :
    (∀ pre ds s, pre <+: es → (∀ d ∈ ds, d.IsInternal) →
      run (step path) (start file) (pre ++ ds) = some s → Settled s → s.reader = s.file) ↔
      Along (step path) (Timely path) (start file) es := by
  refine ⟨timely_of_upToDate h, ?_⟩
  rintro htimely pre ds s ⟨post, rfl⟩ hds hs
  rw [run_append, Option.bind_eq_some_iff] at h
  obtain ⟨t, ht, -⟩ := h
  have hpre := ((along_append ht).1 htimely).1
  exact upToDate_of_timely (hpre.append ht (timely_of_isInternal hds)) hs

/-- The file is replaced while the backend is idle, and once more before it is opened again. -/
def replacedTwice : List Event :=
  [.openReader, .addPath, .statInode, .renamed ⟨8, .invalid⟩, .directoryChanged,
    .renamed ⟨9, .invalid⟩, .reopenReader]

theorem upToDate_iff_timely_twice :
    ∃ s, run (step "/usr/cache.cdb".toList) (start (some ⟨7, .invalid⟩))
      (replacedTwice ++ [.directoryChanged, .reopenReader]) = some s ∧ Settled s ∧
      s.reader = s.file := by
  refine ⟨_, rfl, ⟨rfl, rfl⟩, ?_⟩
  have hrun : ∃ w, run (step "/usr/cache.cdb".toList) (start (some ⟨7, .invalid⟩)) replacedTwice =
      some w := ⟨_, rfl⟩
  obtain ⟨w, hw⟩ := hrun
  refine (upToDate_iff_timely hw).2 ?_ replacedTwice [.directoryChanged, .reopenReader] _
    (List.prefix_refl _) (by simp [Event.IsInternal]) rfl ⟨rfl, rfl⟩
  simp [replacedTwice, Along, Timely, step, start, stat, inodeOf]

/-- A replacement is missed before the directory is watched, and one by a file with the inode of the
last but one. -/
theorem exists_replacement_missed :
    (∃ s, run (step "/usr/cache.cdb".toList) (start (some ⟨7, .invalid⟩))
      [.openReader, .renamed ⟨8, .invalid⟩, .addPath, .statInode] = some s ∧ Settled s ∧
      s.reader ≠ s.file) ∧
    ∃ s, run (step "/usr/cache.cdb".toList) (start (some ⟨7, .invalid⟩))
      (replacedTwice ++ [.renamed ⟨8, .invalid⟩, .directoryChanged, .directoryChanged]) = some s ∧
      Settled s ∧ s.reader ≠ s.file := by
  refine ⟨⟨_, rfl, ⟨rfl, rfl⟩, ?_⟩, ⟨_, rfl, ⟨rfl, rfl⟩, ?_⟩⟩
  · simp [start]
  · simp

end ReplacedDatabase

end ContextRegistry
