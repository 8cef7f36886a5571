import ContextKit.Subscriber.Provider
import ContextKit.Transition.Run
import Mathlib.Data.Multiset.Count

/-!
# `QueuedInvoker`: every statement of `queueOnce` and of `onQueuedCall`

`queueOnce` may be called by any thread at any time; the events it posts are taken by the object's
own thread, which runs `onQueuedCall` for each.  `callQueueLock` makes the statements of one of them
between the lock and the unlock exclude those of another, and nothing else does: a thread may wait
for the lock while the other statements of the other threads go on, and an invoked method may call
`queueOnce` again and may run an event loop of its own.

* `queued_once`: a method is in `callQueue` if and only if there is an event for it that
  `onQueuedCall` has not removed it for, and there is one such event at most; and after a call of
  `queueOnce` the method is invoked again;
* `exists_run_delivered`: what is queued can always be delivered;
* `exists_provider`: with the statements under the lock taken together, `queueOnce` and
  `onQueuedCall` are those of `Provider`.
-/

namespace ContextSubscriber
open Transition

/-- The threads: the one of the object, and the others. -/
inductive Thread (C : Type)
  | own
  | other (c : C)
  deriving DecidableEq

/-- Where a call of `queueOnce` that holds the lock is: it has it; the signal has been emitted; it
is about to leave. -/
inductive QueueOncePoint
  | entered
  | emitted
  | leaving
  deriving DecidableEq

/-- The call that holds `callQueueLock`.  `onQueuedCall` has it until the method is removed and for
a moment after. -/
inductive LockHolder (C M : Type)
  | queueOnce (t : Thread C) (method : M) (point : QueueOncePoint)
  | onQueuedCall (method : M) (removed : Bool)
  deriving DecidableEq

/-- `onQueuedCall` outside of the lock: it has yet to get it; it is about to invoke the method. -/
inductive OnQueuedCall (M : Type)
  | locking (method : M)
  | invoking (method : M)
  deriving DecidableEq

/-- The object, the posted events that are not taken yet, the threads that wait for the lock in
`queueOnce`, the methods that are running, innermost first, and how often each has been invoked. -/
structure QueuedInvoker (C M : Type) where
  callQueue : Finset M
  callQueueLock : Option (LockHolder C M)
  events : Multiset M
  waiting : Thread C → Option M
  slot : Option (OnQueuedCall M)
  running : List M
  begun : M → ℕ

/-- A call of `queueOnce`; it gets the lock; its next statement; an event is taken; the next
statement of `onQueuedCall`; the innermost method returns. -/
inductive InvokerEvent (C M : Type)
  | call (t : Thread C) (method : M)
  | lock (t : Thread C)
  | queueOnce
  | deliver (method : M)
  | onQueuedCall
  | returned

/-- The thread of the call. -/
def LockHolder.thread {C M : Type} : LockHolder C M → Thread C
  | .queueOnce t _ _ => t
  | .onQueuedCall _ _ => .own

namespace QueuedInvoker

variable {C M : Type} [DecidableEq C] [DecidableEq M]

def init : QueuedInvoker C M where
  callQueue := ∅
  callQueueLock := none
  events := 0
  waiting := fun _ => none
  slot := none
  running := []
  begun := fun _ => 0

/-- The thread is neither in `queueOnce` nor in `onQueuedCall`, a method it is running apart. -/
def Idle (s : QueuedInvoker C M) (t : Thread C) : Prop :=
  s.waiting t = none ∧ s.callQueueLock.map LockHolder.thread ≠ some t ∧ (t = .own → s.slot = none)

instance (s : QueuedInvoker C M) (t : Thread C) : Decidable (s.Idle t) :=
  inferInstanceAs (Decidable (_ ∧ _ ∧ _))

/-- One event. -/
def step (s : QueuedInvoker C M) : InvokerEvent C M → Option (QueuedInvoker C M)
  | .call t method =>
    if s.Idle t then some { s with waiting := Function.update s.waiting t (some method) } else none
  | .lock t =>
    match s.waiting t, s.callQueueLock with
    | some method, none => some
      { s with
        waiting := Function.update s.waiting t none
        callQueueLock := some (.queueOnce t method .entered) }
    | _, _ => none
  | .queueOnce =>
    match s.callQueueLock with
    | some (.queueOnce t method .entered) =>
      if method ∉ s.callQueue then some
        { s with
          events := method ::ₘ s.events
          callQueueLock := some (.queueOnce t method .emitted) }
      else some { s with callQueueLock := some (.queueOnce t method .leaving) }
    | some (.queueOnce t method .emitted) => some
      { s with
        callQueue := insert method s.callQueue
        callQueueLock := some (.queueOnce t method .leaving) }
    | some (.queueOnce _ _ .leaving) => some { s with callQueueLock := none }
    | _ => none
  | .deliver method =>
    if method ∈ s.events ∧ s.Idle .own then some
      { s with events := s.events.erase method, slot := some (.locking method) }
    else none
  | .onQueuedCall =>
    match s.slot, s.callQueueLock with
    | some (.locking method), none => some
      { s with slot := none, callQueueLock := some (.onQueuedCall method false) }
    | none, some (.onQueuedCall method false) => some
      { s with
        callQueue := s.callQueue.erase method
        callQueueLock := some (.onQueuedCall method true) }
    | none, some (.onQueuedCall method true) => some
      { s with slot := some (.invoking method), callQueueLock := none }
    | some (.invoking method), _ => some
      { s with
        slot := none
        running := method :: s.running
        begun := Function.update s.begun method (s.begun method + 1) }
    | _, _ => none
  | .returned =>
    match s.running with
    | _ :: running => if s.Idle .own then some { s with running := running } else none
    | [] => none

/-- What one event can do. -/
inductive Moves (s : QueuedInvoker C M) : QueuedInvoker C M → Prop
  | call (t : Thread C) (m : M) (hidle : s.Idle t) :
    Moves s { s with waiting := Function.update s.waiting t (some m) }
  | lock (t : Thread C) (m : M) (hwaiting : s.waiting t = some m) (hlock : s.callQueueLock = none) :
    Moves s { s with
      waiting := Function.update s.waiting t none
      callQueueLock := some (.queueOnce t m .entered) }
  | emit (t : Thread C) (m : M) (hlock : s.callQueueLock = some (.queueOnce t m .entered))
      (hm : m ∉ s.callQueue) :
    Moves s { s with
      events := m ::ₘ s.events
      callQueueLock := some (.queueOnce t m .emitted) }
  | skip (t : Thread C) (m : M) (hlock : s.callQueueLock = some (.queueOnce t m .entered))
      (hm : m ∈ s.callQueue) :
    Moves s { s with callQueueLock := some (.queueOnce t m .leaving) }
  | insert (t : Thread C) (m : M) (hlock : s.callQueueLock = some (.queueOnce t m .emitted)) :
    Moves s { s with
      callQueue := insert m s.callQueue
      callQueueLock := some (.queueOnce t m .leaving) }
  | leave (t : Thread C) (m : M) (hlock : s.callQueueLock = some (.queueOnce t m .leaving)) :
    Moves s { s with callQueueLock := none }
  | deliver (m : M) (hm : m ∈ s.events) (hidle : s.Idle .own) :
    Moves s { s with events := s.events.erase m, slot := some (.locking m) }
  | lockSlot (m : M) (hslot : s.slot = some (.locking m)) (hlock : s.callQueueLock = none) :
    Moves s { s with slot := none, callQueueLock := some (.onQueuedCall m false) }
  | remove (m : M) (hslot : s.slot = none)
      (hlock : s.callQueueLock = some (.onQueuedCall m false)) :
    Moves s { s with
      callQueue := s.callQueue.erase m
      callQueueLock := some (.onQueuedCall m true) }
  | unlock (m : M) (hslot : s.slot = none)
      (hlock : s.callQueueLock = some (.onQueuedCall m true)) :
    Moves s { s with slot := some (.invoking m), callQueueLock := none }
  | invoke (m : M) (hslot : s.slot = some (.invoking m)) :
    Moves s { s with
      slot := none
      running := m :: s.running
      begun := Function.update s.begun m (s.begun m + 1) }
  | returned (m : M) (running : List M) (hrunning : s.running = m :: running)
      (hidle : s.Idle .own) :
    Moves s { s with running := running }

variable {s t u : QueuedInvoker C M}

theorem Moves.of_step {e : InvokerEvent C M} (h : step s e = some t) : s.Moves t := by
  cases e with
  | call c m =>
    obtain ⟨hidle, h⟩ := Option.ite_none_right_eq_some.1 h
    cases h
    exact .call c m hidle
  | lock c =>
    rw [step] at h
    split at h
    · cases h
      exact .lock c _ ‹_› ‹_›
    · cases h
  | queueOnce =>
    rw [step] at h
    split at h
    · split_ifs at h with hm
      · cases h
        exact .skip _ _ ‹_› hm
      · cases h
        exact .emit _ _ ‹_› hm
    · cases h
      exact .insert _ _ ‹_›
    · cases h
      exact .leave _ _ ‹_›
    · cases h
  | deliver m =>
    obtain ⟨⟨hm, hidle⟩, h⟩ := Option.ite_none_right_eq_some.1 h
    cases h
    exact .deliver m hm hidle
  | onQueuedCall =>
    rw [step] at h
    split at h
    · cases h
      exact .lockSlot _ ‹_› ‹_›
    · cases h
      exact .remove _ ‹_› ‹_›
    · cases h
      exact .unlock _ ‹_› ‹_›
    · cases h
      exact .invoke _ ‹_›
    · cases h
  | returned =>
    rw [step] at h
    split at h
    · obtain ⟨hidle, h⟩ := Option.ite_none_right_eq_some.1 h
      cases h
      exact .returned _ _ ‹_› hidle
    · cases h

theorem Moves.exists_step (h : s.Moves t) : ∃ e, step s e = some t := by
  cases h with
  | call c m hidle => exact ⟨.call c m, if_pos hidle⟩
  | lock c m hwaiting hlock => exact ⟨.lock c, by rw [step, hwaiting, hlock]⟩
  | emit c m hlock hm => exact ⟨.queueOnce, by simp only [step, hlock]; exact if_pos hm⟩
  | skip c m hlock hm => exact ⟨.queueOnce, by simp only [step, hlock]; exact if_neg (not_not.2 hm)⟩
  | insert c m hlock | leave c m hlock => exact ⟨.queueOnce, by simp only [step, hlock]⟩
  | deliver m hm hidle => exact ⟨.deliver m, if_pos ⟨hm, hidle⟩⟩
  | lockSlot m hslot hlock | remove m hslot hlock | unlock m hslot hlock =>
    exact ⟨.onQueuedCall, by simp only [step, hslot, hlock]⟩
  | invoke m hslot => exact ⟨.onQueuedCall, by simp only [step, hslot]⟩
  | returned m running hrunning hidle =>
    exact ⟨.returned, by simp only [step, hrunning]; exact if_pos hidle⟩

/-! ### One event for each queued method -/

/-- The events of the method for which `onQueuedCall` has not removed it yet. -/
def undelivered (s : QueuedInvoker C M) (m : M) : ℕ :=
  s.events.count m + (if s.slot = some (.locking m) then 1 else 0) +
    if s.callQueueLock = some (.onQueuedCall m false) then 1 else 0

/-- The invocations of the method that `onQueuedCall` has removed it for and is about to begin. -/
def toInvoke (s : QueuedInvoker C M) (m : M) : ℕ :=
  (if s.slot = some (.invoking m) then 1 else 0) +
    if s.callQueueLock = some (.onQueuedCall m true) then 1 else 0

/-- The method that `queueOnce`, with the lock, has emitted the signal for and inserts next. -/
def inserting (s : QueuedInvoker C M) : Option M :=
  match s.callQueueLock with
  | some (.queueOnce _ m .emitted) => some m
  | _ => none

/-- `callQueue`, and with it the method that is about to be inserted. -/
def pending (s : QueuedInvoker C M) : Finset M :=
  match s.inserting with
  | some m => insert m s.callQueue
  | none => s.callQueue

/-- A method is pending if and only if there is an event for it, and then there is one. -/
structure Queued (s : QueuedInvoker C M) : Prop where
  undelivered_eq : ∀ m, s.undelivered m = if m ∈ s.pending then 1 else 0
  notMem_callQueue : ∀ m, s.inserting = some m → m ∉ s.callQueue
  slot_eq_none : ∀ m removed, s.callQueueLock = some (.onQueuedCall m removed) → s.slot = none

/-- What an event does to the pending methods, and to what has been and is to be done for them. -/
inductive Account (s t : QueuedInvoker C M) : Prop
  | same (hpending : t.pending = s.pending) (hundelivered : ∀ k, t.undelivered k = s.undelivered k)
      (hinvoke : ∀ k, t.begun k + t.toInvoke k = s.begun k + s.toInvoke k)
  | queued (m : M) (hm : m ∉ s.pending) (hpending : t.pending = insert m s.pending)
      (hundelivered : ∀ k, t.undelivered k = s.undelivered k + if k = m then 1 else 0)
      (hinvoke : ∀ k, t.begun k + t.toInvoke k = s.begun k + s.toInvoke k)
  | removed (m : M) (hm : m ∈ s.pending) (hpending : t.pending = s.pending.erase m)
      (hundelivered : ∀ k, t.undelivered k + (if k = m then 1 else 0) = s.undelivered k)
      (hinvoke : ∀ k, t.begun k + t.toInvoke k =
        s.begun k + s.toInvoke k + if k = m then 1 else 0)

theorem Queued.account (h : s.Queued) (hmove : s.Moves t) : s.Account t := by
  cases hmove with
  | call c m hidle => exact .same rfl (fun _ => rfl) fun _ => rfl
  | emit c m hlock hm =>
    refine .queued m ?_ ?_ (fun k => ?_) fun k => ?_
    · simpa [pending, inserting, hlock] using hm
    · simp [pending, inserting, hlock]
    · simp [undelivered, hlock, Multiset.count_cons, Nat.add_right_comm]
    · simp [toInvoke, hlock]
  | lock c m hwaiting hlock | skip c m hlock | insert c m hlock | leave c m hlock =>
    refine .same ?_ (fun k => ?_) fun k => ?_ <;>
      simp [pending, inserting, undelivered, toInvoke, hlock]
  | deliver m hm hidle =>
    have hslot : s.slot = none := hidle.2.2 rfl
    refine .same rfl (fun k => ?_) fun k => ?_
    · have hcount : s.events.count k = (s.events.erase m).count k + if k = m then 1 else 0 := by
        rw [← Multiset.count_cons, Multiset.cons_erase hm]
      simp [undelivered, hslot, hcount, eq_comm]
    · simp [toInvoke, hslot]
  | remove m hslot hlock =>
    have hm : m ∈ s.pending := by
      by_contra hm
      have hund := h.undelivered_eq m
      rw [if_neg hm] at hund
      simp [undelivered, hlock] at hund
    refine .removed m hm ?_ (fun k => ?_) fun k => ?_
    · simp [pending, inserting, hlock]
    · simp [undelivered, hslot, hlock, eq_comm]
    · simp [toInvoke, hslot, hlock, eq_comm]
  | lockSlot m hslot hlock | unlock m hslot hlock =>
    refine .same ?_ (fun k => ?_) fun k => ?_ <;>
      simp [pending, inserting, undelivered, toInvoke, hslot, hlock]
  | invoke m hslot =>
    refine .same rfl (fun k => ?_) fun k => ?_
    · simp [undelivered, hslot]
    · rcases eq_or_ne k m with rfl | hne
      · simp only [toInvoke, hslot, Function.update_self, reduceIte, reduceCtorEq, Nat.zero_add]
        omega
      · simp [toInvoke, hslot, Function.update_of_ne hne, hne.symm]
  | returned m running hrunning hidle => exact .same rfl (fun _ => rfl) fun _ => rfl

theorem queued_init : (init : QueuedInvoker C M).Queued where
  undelivered_eq _ := by simp [undelivered, pending, inserting, init]
  notMem_callQueue _ h := by cases h
  slot_eq_none _ _ h := by cases h

/-- **One event.** -/
theorem Queued.moves (h : s.Queued) (hmove : s.Moves t) : t.Queued where
  undelivered_eq k := by
    have hundelivered := h.undelivered_eq k
    cases h.account hmove with
    | same hpending hsame => rw [hsame, hpending, hundelivered]
    | queued m hm hpending hmore =>
      rw [hmore, hpending, hundelivered]
      rcases eq_or_ne k m with rfl | hne
      · simp [hm]
      · simp [hne]
    | removed m hm hpending hless =>
      rw [← hless] at hundelivered
      rw [hpending]
      rcases eq_or_ne k m with rfl | hne
      · simpa [hm] using hundelivered
      · simpa [hne] using hundelivered
  notMem_callQueue k hk := by
    cases hmove with
    | call | deliver | invoke | returned => exact h.notMem_callQueue k hk
    | emit c m hlock hm =>
      cases hk
      exact hm
    | lock | skip | insert | leave | lockSlot | remove | unlock => cases hk
  slot_eq_none m removed hlock := by
    cases hmove with
    | call | returned => exact h.slot_eq_none m removed hlock
    | deliver k hk hidle =>
      have hthread := hidle.2.1
      rw [hlock] at hthread
      exact absurd rfl hthread
    | lockSlot | invoke => rfl
    | remove k hslot => exact hslot
    | lock | emit | skip | insert | leave | unlock => cases hlock

theorem Queued.run {es : List (InvokerEvent C M)} (hs : s.Queued)
    (h : Transition.run step s es = some t) : t.Queued :=
  run_inv (fun _ _ _ hs ht => hs.moves (.of_step ht)) hs h

/-! ### No call is lost -/

/-- Every event for the method has been delivered: the method has been removed for it, and then
invoked. -/
def Delivered (s : QueuedInvoker C M) (m : M) : Prop := s.undelivered m = 0 ∧ s.toInvoke m = 0

/-- The thread is in `queueOnce`, before the method is looked up. -/
def Calling (s : QueuedInvoker C M) (c : Thread C) (m : M) : Prop :=
  s.waiting c = some m ∨ s.callQueueLock = some (.queueOnce c m .entered)

/-- The invocations of the method that have begun, and those to come. -/
def total (s : QueuedInvoker C M) (m : M) : ℕ := s.begun m + s.toInvoke m + s.undelivered m

theorem Queued.total_le (h : s.Queued) (hmove : s.Moves t) (m : M) : s.total m ≤ t.total m := by
  rw [total, total]
  cases h.account hmove with
  | same hpending hundelivered hinvoke => rw [hundelivered, hinvoke]
  | queued k hk hpending hundelivered hinvoke =>
    rw [hundelivered, hinvoke]
    omega
  | removed k hk hpending hundelivered hinvoke =>
    rw [hinvoke, ← hundelivered]
    omega

theorem Moves.begun_le (hmove : s.Moves t) (m : M) : s.begun m ≤ t.begun m := by
  cases hmove with
  | invoke k =>
    rcases eq_or_ne m k with rfl | hne
    · simp
    · simp [Function.update_of_ne hne]
  | _ => exact le_rfl

theorem Queued.mem_pending_iff (h : s.Queued) {m : M} : m ∈ s.pending ↔ s.undelivered m = 1 := by
  rw [h.undelivered_eq m]
  split_ifs with hm <;> simp [hm]

omit [DecidableEq C] in
theorem mem_pending {m : M} : m ∈ s.pending ↔ m ∈ s.callQueue ∨ s.inserting = some m := by
  rw [pending]
  cases s.inserting with
  | none => simp
  | some k => simp [or_comm, eq_comm]

/-- With the lock, the method is looked up: if it is not there, it is about to be inserted, and its
event is posted. -/
theorem Moves.calling (hmove : s.Moves t) {c : Thread C} {m : M} (hcalling : s.Calling c m) :
    t.Calling c m ∨ m ∈ t.pending := by
  rcases hcalling with hwaiting | hlock
  · cases hmove with
    | call c' k hidle =>
      have hne : c ≠ c' := by
        rintro rfl
        rw [hidle.1] at hwaiting
        cases hwaiting
      exact .inl (.inl ((Function.update_of_ne hne _ _).trans hwaiting))
    | lock c' k hk =>
      rcases eq_or_ne c c' with rfl | hne
      · obtain rfl : k = m := Option.some.inj (hk.symm.trans hwaiting)
        exact .inl (.inr rfl)
      · exact .inl (.inl ((Function.update_of_ne hne _ _).trans hwaiting))
    | _ => exact .inl (.inl hwaiting)
  · cases hmove with
    | call | deliver | invoke | returned => exact .inl (.inr hlock)
    | emit c' k hk =>
      rw [hlock] at hk
      cases hk
      exact .inr (mem_pending.2 (.inr rfl))
    | skip c' k hk hmem =>
      rw [hlock] at hk
      cases hk
      exact .inr (mem_pending.2 (.inl hmem))
    | lock c' k hk hnone | lockSlot k hk hnone =>
      rw [hlock] at hnone
      cases hnone
    | insert c' k hk | leave c' k hk =>
      rw [hlock] at hk
      cases hk
    | remove k hslot hk | unlock k hslot hk =>
      rw [hlock] at hk
      cases hk

/-- Until the method has been looked up, no more invocations have to have begun than there had when
the call was made; from then on there is one more, begun or to come. -/
theorem Queued.calling_run {c : Thread C} {m : M} {n : ℕ} {es : List (InvokerEvent C M)}
    (hs : s.Queued) (hcalling : s.Calling c m) (hn : n ≤ s.begun m)
    (h : Transition.run step s es = some t) : t.Calling c m ∨ n < t.total m := by
  have hinv : t.Calling c m ∧ n ≤ t.begun m ∨ n < t.total m := by
    refine run_inv_over (P := Queued)
      (Q := fun u => u.Calling c m ∧ n ≤ u.begun m ∨ n < u.total m)
      (fun _ _ _ hu hstep => hu.moves (.of_step hstep)) (fun u e v hu hnext hstep => ?_) hs
      (.inl ⟨hcalling, hn⟩) h
    have hmove : u.Moves v := .of_step hstep
    rcases hnext with ⟨hcalling, hn⟩ | hn
    · have hbegun : n ≤ v.begun m := hn.trans (hmove.begun_le m)
      rcases hmove.calling hcalling with hcalling | hpending
      · exact .inl ⟨hcalling, hbegun⟩
      · have hundelivered : v.undelivered m = 1 := (hu.moves hmove).mem_pending_iff.1 hpending
        right
        rw [total, hundelivered]
        omega
    · exact .inr (hn.trans_le (hu.total_le hmove m))
  exact hinv.imp And.left id

theorem Queued.total_run {es : List (InvokerEvent C M)} (hs : s.Queued)
    (h : Transition.run step s es = some t) (m : M) : s.total m ≤ t.total m :=
  run_inv_over (Q := fun u => s.total m ≤ u.total m)
    (fun _ _ _ hu hstep => hu.moves (.of_step hstep))
    (fun _ _ _ hu hle hstep => hle.trans (hu.total_le (.of_step hstep) m)) hs le_rfl h

omit [DecidableEq C] [DecidableEq M] in
theorem not_calling_of_idle {c : Thread C} {m : M} (h : s.Idle c) : ¬ s.Calling c m := by
  rintro (hwaiting | hlock)
  · rw [h.1] at hwaiting
    cases hwaiting
  · have hthread := h.2.1
    rw [hlock] at hthread
    exact hthread rfl

/-- **Queued at most once, and never lost.**  In every state that is reached, a method is in
`callQueue` if and only if one event for it is undelivered, and there is no second one; only
`queueOnce` itself, with the lock, sees the method with its event and not inserted yet.  And from
a call of `queueOnce` by any thread that has returned, when all events for the method have been
delivered, an invocation has begun that had not when the call was made. -/
theorem queued_once {es : List (InvokerEvent C M)} (h : run step init es = some s) :
    (∀ m, s.undelivered m ≤ 1 ∧
      (s.inserting ≠ some m → (m ∈ s.callQueue ↔ s.undelivered m = 1)) ∧
      (s.inserting = some m → m ∉ s.callQueue ∧ s.undelivered m = 1)) ∧
    ∀ c m s' fs t gs u, step s (.call c m) = some s' → run step s' fs = some t → t.Idle c →
      run step t gs = some u → u.Delivered m → s.begun m < u.begun m := by
  have hs : s.Queued := queued_init.run h
  refine ⟨fun m => ⟨?_, fun hinserting => ?_, fun hinserting =>
      ⟨hs.notMem_callQueue m hinserting, ?_⟩⟩,
    fun c m s' fs t gs u hcall hreturned hidle hrun hdelivered => ?_⟩
  · rw [hs.undelivered_eq m]
    split_ifs <;> decide
  · rw [← hs.mem_pending_iff, mem_pending]
    exact (or_iff_left hinserting).symm
  · exact hs.mem_pending_iff.1 (mem_pending.2 (.inr hinserting))
  · have hs' : s'.Queued := hs.moves (.of_step hcall)
    have hbegun : s.begun m ≤ s'.begun m := (Moves.of_step hcall).begun_le m
    have hcalling : s'.Calling c m := by
      obtain ⟨-, hcall⟩ := Option.ite_none_right_eq_some.1 hcall
      cases hcall
      exact .inl (Function.update_self ..)
    have hmore : s.begun m < t.total m :=
      (hs'.calling_run hcalling hbegun hreturned).resolve_left (not_calling_of_idle hidle)
    have htotal : t.total m ≤ u.total m := (hs'.run hreturned).total_run hrun m
    calc s.begun m < u.total m := hmore.trans_le htotal
      _ = u.begun m := by rw [total, hdelivered.1, hdelivered.2]; rfl

/-- A thread calls `queueOnce` while `handleSubscribes` is taken off the queue and before it is
invoked; the event it posts is delivered, to a loop that `handleSubscribes` runs. -/
theorem queued_once_reentered :
    let es : List (InvokerEvent Unit Method) :=
      [.call .own .handleSubscribes, .lock .own, .queueOnce, .queueOnce, .queueOnce,
        .deliver .handleSubscribes, .onQueuedCall, .onQueuedCall]
    let fs : List (InvokerEvent Unit Method) :=
      [.onQueuedCall, .lock (.other ()), .queueOnce, .onQueuedCall, .queueOnce, .queueOnce]
    let gs : List (InvokerEvent Unit Method) :=
      [.deliver .handleSubscribes, .onQueuedCall, .onQueuedCall, .onQueuedCall, .onQueuedCall]
    ∃ s s' t u, run step init es = some s ∧
      step s (.call (.other ()) .handleSubscribes) = some s' ∧ run step s' fs = some t ∧
      run step t gs = some u ∧ u.running = [.handleSubscribes, .handleSubscribes] ∧
      s.begun .handleSubscribes < u.begun .handleSubscribes := by
  intro es fs gs
  refine ⟨_, _, _, _, rfl, rfl, rfl, rfl, rfl, ?_⟩
  have hrun : run step init es = some _ := rfl
  exact (queued_once hrun).2 (.other ()) .handleSubscribes _ fs _ gs _ rfl rfl (by decide) rfl
    ⟨by decide, by decide⟩

/-! ### What is queued can be delivered -/

/-- How many statements a call that has the lock, and the delivery of its event, take at most. -/
def holderWeight : LockHolder C M → ℕ
  | .queueOnce _ _ .entered => 10
  | .queueOnce _ _ .emitted => 2
  | .queueOnce _ _ .leaving => 1
  | .onQueuedCall _ false => 4
  | .onQueuedCall _ true => 3

def slotWeight : OnQueuedCall M → ℕ
  | .locking _ => 5
  | .invoking _ => 2

def weight (s : QueuedInvoker C M) : ℕ :=
  7 * s.events.card + s.callQueueLock.elim 0 holderWeight + s.slot.elim 0 slotWeight +
    (s.waiting .own).elim 0 fun _ => 11

/-- Whoever has the lock can go on, and so can the thread of the object if nobody has it. -/
theorem Queued.exists_moves (h : s.Queued) :
    (∀ m, s.Delivered m) ∨ ∃ t, s.Moves t ∧ t.weight < s.weight := by
  cases hlock : s.callQueueLock with
  | some holder =>
    right
    cases holder with
    | queueOnce c m point =>
      cases point with
      | entered =>
        by_cases hm : m ∈ s.callQueue
        · exact ⟨_, .skip c m hlock hm, by simp [weight, hlock, holderWeight]⟩
        · refine ⟨_, .emit c m hlock hm, ?_⟩
          simp only [weight, hlock, holderWeight, Multiset.card_cons, Option.elim_some]
          omega
      | emitted => exact ⟨_, .insert c m hlock, by simp [weight, hlock, holderWeight]⟩
      | leaving => exact ⟨_, .leave c m hlock, by simp [weight, hlock, holderWeight]⟩
    | onQueuedCall m removed =>
      have hslot : s.slot = none := h.slot_eq_none m removed hlock
      cases removed with
      | false => exact ⟨_, .remove m hslot hlock, by simp [weight, hlock, holderWeight]⟩
      | true =>
        exact ⟨_, .unlock m hslot hlock, by simp [weight, hlock, hslot, holderWeight, slotWeight]⟩
  | none =>
    cases hslot : s.slot with
    | some slot =>
      right
      cases slot with
      | locking m =>
        exact ⟨_, .lockSlot m hslot hlock,
          by simp [weight, hlock, hslot, holderWeight, slotWeight]⟩
      | invoking m => exact ⟨_, .invoke m hslot, by simp [weight, hslot, slotWeight]⟩
    | none =>
      cases hwaiting : s.waiting .own with
      | some m =>
        right
        refine ⟨_, .lock .own m hwaiting hlock, ?_⟩
        simp only [weight, hlock, hwaiting, holderWeight, Function.update_self, Option.elim_some,
          Option.elim_none]
        omega
      | none =>
        rcases Multiset.empty_or_exists_mem s.events with hevents | ⟨m, hm⟩
        · left
          intro m
          simp [Delivered, undelivered, toInvoke, hlock, hslot, hevents]
        · right
          refine ⟨_, .deliver m hm ⟨hwaiting, by simp [hlock], fun _ => hslot⟩, ?_⟩
          have hcard : s.events.card = (s.events.erase m).card + 1 := by
            rw [← Multiset.card_cons m, Multiset.cons_erase hm]
          simp only [weight, hslot, hcard, slotWeight, Option.elim_some, Option.elim_none]
          omega

/-- **Everything can be delivered.**  From every state that is reached, without a further call. -/
theorem exists_run_delivered {es : List (InvokerEvent C M)} (h : run step init es = some s) :
    ∃ fs t, run step s fs = some t ∧ ∀ m, t.Delivered m := by
  have hs : s.Queued := queued_init.run h
  clear h
  induction hweight : s.weight using Nat.strong_induction_on generalizing s with
  | _ n ih =>
    rcases hs.exists_moves with hdelivered | ⟨t, hmove, hlt⟩
    · exact ⟨[], s, rfl, hdelivered⟩
    · obtain ⟨fs, u, hrun, hdelivered⟩ := ih t.weight (hweight ▸ hlt) (hs.moves hmove) rfl
      obtain ⟨e, hstep⟩ := hmove.exists_step
      exact ⟨e :: fs, u, run_cons_eq_some.2 ⟨t, hstep, hrun⟩, hdelivered⟩

/-! ### The queue of a `Provider` -/

variable {K V : Type}

/-- `queueOnce` and `dequeue`. -/
def QueueStep (p q : Provider K V) : Prop :=
  (∃ m, q = p.queueOnce m) ∨ ∃ m ∈ p.callQueue, q = p.dequeue m

/-- The statements under the lock are one step of the provider, at the one that posts the event and
at the one that removes the method. -/
theorem Queued.provider {s t : QueuedInvoker C Method} (h : s.Queued) (hmove : s.Moves t)
    (p : Provider K V) (hp : p.callQueue = s.pending) :
    ∃ q, Relation.ReflGen QueueStep p q ∧ q.callQueue = t.pending := by
  cases h.account hmove with
  | same hpending => exact ⟨p, .refl, hp.trans hpending.symm⟩
  | queued m hm hpending =>
    refine ⟨p.queueOnce m, .single (.inl ⟨m, rfl⟩), ?_⟩
    rw [hpending, ← hp, Provider.queueOnce]
  | removed m hm hpending =>
    refine ⟨p.dequeue m, .single (.inr ⟨m, hp ▸ hm, rfl⟩), ?_⟩
    rw [hpending, ← hp, Provider.dequeue]

/-- **The queue of a provider is that of its `QueuedInvoker`**, along every run. -/
theorem exists_provider {s : QueuedInvoker C Method} {es : List (InvokerEvent C Method)}
    (h : run step init es = some s) (p : Provider K V) (hp : p.callQueue = ∅) :
    ∃ q, Relation.ReflTransGen QueueStep p q ∧ q.callQueue = s.pending := by
  refine run_inv_over (P := Queued)
    (Q := fun s => ∃ q, Relation.ReflTransGen QueueStep p q ∧ q.callQueue = s.pending)
    (fun _ _ _ hu hstep => hu.moves (.of_step hstep)) (fun u e v hu hq hstep => ?_) queued_init
    ⟨p, .refl, hp⟩ h
  obtain ⟨q, hq, hqueue⟩ := hq
  obtain ⟨q', hq', hqueue'⟩ := hu.provider (.of_step hstep) q hqueue
  exact ⟨q', hq.trans hq'.to_reflTransGen, hqueue'⟩

end QueuedInvoker

end ContextSubscriber
