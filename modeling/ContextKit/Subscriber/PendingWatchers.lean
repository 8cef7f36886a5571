import ContextKit.Subscriber.LinkMoves

/-!
# The watchers of `Subscribe` calls, from the call to their deletion

`newSubscribe` makes a watcher for its call and puts it under the key, in the place of an older
one.  When the reply has come, the watcher emits `finished`: `onFinished` tells the plugin, which
takes away whatever is stored under the key, and `deleteLater` schedules the deletion.  The calls
for one key may overlap and be replied to in any order.

The slots of `finished` are steps of their own here, and anything may happen between them, so that
slots which call the plugin again are covered as well; and what comes while `blockUntilSubscribed`
waits for a watcher is an event like any other.  `pendingWatchers_unfinished` says that the watcher
which is stored under a key has not finished.
-/

namespace ContextSubscriber
open ContextKit Transition

/-- What `onFinished` does, one after the other. -/
inductive WatcherSlot
  | valueChanged
  | subscribeFinished
  | subscribeFailed
  | removePendingWatcher
  deriving DecidableEq

/-- Where a watcher is: its call has no reply yet; the reply is there, and `finished` will be
emitted; it is being emitted, and this is left of `onFinished`; `deleteLater` has been called; it is
deleted. -/
inductive WatcherPhase
  | calling
  | replied (isError : Bool)
  | finishing (slots : List WatcherSlot)
  | deleteScheduled
  | deleted
  deriving DecidableEq

namespace WatcherPhase

/-- `PendingSubscribeWatcher::onFinished`.  `removePendingWatcher` is connected to either of the two
signals after the signal of the plugin. -/
def onFinished (isError : Bool) : List WatcherSlot :=
  if isError then [.subscribeFailed, .removePendingWatcher]
  else [.valueChanged, .subscribeFinished, .removePendingWatcher]

/-- `finished` has not been emitted. -/
def Waiting : WatcherPhase → Prop
  | calling | replied _ => True
  | _ => False

/-- `finished` is being emitted. -/
def IsFinishing : WatcherPhase → Prop
  | finishing _ => True
  | _ => False

/-- `finished` has been emitted and has come to the plugin. -/
def Finished : WatcherPhase → Prop
  | calling | replied _ => False
  | finishing slots => .removePendingWatcher ∉ slots
  | deleteScheduled | deleted => True

end WatcherPhase

/-- The plugin, and where each of its watchers is. -/
structure WatchedPlugin where
  plugin : ContextKitPlugin
  phase : ℕ → WatcherPhase

/-- The calls of the plugin; a reply to a call; what the watcher does then. -/
inductive WatcherEvent
  | setDefaultNewProtocol (s : Bool)
  | reset
  | useNewProtocol
  | subscribe (keys : Finset String)
  | unsubscribe (keys : Finset String)
  | newSubscribe (key : String)
  | blockUntilSubscribed (key : String) (order : List String)
  | reply (id : ℕ) (isError : Bool)
  | finished (id : ℕ)
  | slot (id : ℕ)
  | delete (id : ℕ)

namespace WatchedPlugin

def init : WatchedPlugin where
  plugin := ContextKitPlugin.init
  phase := fun _ => .calling

/-- The watcher gets to `ph`. -/
def setPhase (s : WatchedPlugin) (id : ℕ) (ph : WatcherPhase) : WatchedPlugin :=
  { s with phase := Function.update s.phase id ph }

/-- A slot of the watcher of `key` is called. -/
def call (s : WatchedPlugin) (key : String) : WatcherSlot → WatchedPlugin
  | .removePendingWatcher => { s with plugin := s.plugin.removePendingWatcher key }
  | .valueChanged | .subscribeFinished | .subscribeFailed => s

/-- One event.  `blockUntilSubscribed` then waits for the watcher under its key. -/
def step (s : WatchedPlugin) : WatcherEvent → Option WatchedPlugin
  | .setDefaultNewProtocol b => some { s with plugin := { s.plugin with defaultNewProtocol := b } }
  | .reset => some { s with plugin := s.plugin.reset }
  | .useNewProtocol => some { s with plugin := { s.plugin with newProtocol := true } }
  | .subscribe keys => some { s with plugin := s.plugin.subscribe keys }
  | .unsubscribe keys => some { s with plugin := s.plugin.unsubscribe keys }
  | .newSubscribe key =>
    if key ∈ s.plugin.queued then some { s with plugin := s.plugin.deliverNewSubscribe key }
    else none
  | .blockUntilSubscribed _ order =>
    if order.Nodup ∧ order.toFinset = s.plugin.pendingKeys then
      some { s with plugin := s.plugin.flush order }
    else none
  | .reply id isError =>
    if id < s.plugin.watchers.length ∧ s.phase id = .calling then
      some
        ({ s with plugin := { s.plugin with unfinished := s.plugin.unfinished.erase id } }.setPhase
          id (.replied isError))
    else none
  | .finished id =>
    match s.phase id with
    | .replied isError => some (s.setPhase id (.finishing (WatcherPhase.onFinished isError)))
    | _ => none
  | .slot id =>
    match s.phase id, s.plugin.watchers[id]? with
    | .finishing (slot :: slots), some key =>
      some ((s.call key slot).setPhase id (.finishing slots))
    | .finishing [], _ => some (s.setPhase id .deleteScheduled)
    | _, _ => none
  | .delete id =>
    if s.phase id = .deleteScheduled then some (s.setPhase id .deleted) else none

/-- Every watcher that is stored is one of a call for its key and has not finished, and a number
that no call has yet is that of no watcher. -/
structure Unfinished (s : WatchedPlugin) : Prop where
  watcher : s.plugin.WatchersMatch
  fresh : ∀ id, s.plugin.watchers.length ≤ id → s.phase id = .calling
  unfinished : ∀ key id, s.plugin.pendingWatchers key = some id → ¬ (s.phase id).Finished

variable {s t : WatchedPlugin}

theorem unfinished_init : init.Unfinished where
  watcher := by simp [ContextKitPlugin.WatchersMatch, init, ContextKitPlugin.init]
  fresh _ _ := rfl
  unfinished _ _ h := by cases h

/-! ### What the plugin does on its own -/

/-- What leaves the calls and the stored watchers alone. -/
theorem Unfinished.of_eq (h : s.Unfinished) {p : ContextKitPlugin}
    (hwatchers : p.watchers = s.plugin.watchers)
    (hpending : p.pendingWatchers = s.plugin.pendingWatchers) :
    Unfinished { s with plugin := p } where
  watcher key id hid := by
    rw [hpending] at hid
    rw [hwatchers]
    exact h.watcher key id hid
  fresh id hid := by
    rw [hwatchers] at hid
    exact h.fresh id hid
  unfinished key id hid := by
    rw [hpending] at hid
    exact h.unfinished key id hid

theorem Unfinished.subscribe (h : s.Unfinished) (keys : Finset String) :
    Unfinished { s with plugin := s.plugin.subscribe keys } := by
  cases hprotocol : s.plugin.newProtocol with
  | true =>
    rw [s.plugin.subscribe_of_newProtocol hprotocol]
    exact h.of_eq rfl rfl
  | false =>
    rw [ContextKitPlugin.subscribe, hprotocol]
    exact h.of_eq rfl rfl

theorem Unfinished.unsubscribe (h : s.Unfinished) (keys : Finset String) :
    Unfinished { s with plugin := s.plugin.unsubscribe keys } := by
  cases hprotocol : s.plugin.newProtocol with
  | true =>
    rw [s.plugin.unsubscribe_of_newProtocol hprotocol]
    exact h.of_eq rfl rfl
  | false =>
    rw [ContextKitPlugin.unsubscribe, hprotocol]
    exact h.of_eq rfl rfl

/-- The new watcher takes the place of an older one of its key. -/
theorem Unfinished.newSubscribe (h : s.Unfinished) (key : String) :
    Unfinished { s with plugin := s.plugin.newSubscribe key } := by
  by_cases hkey : key ∈ s.plugin.pendingKeys
  · refine ⟨h.watcher.newSubscribe key, ?_, ?_⟩
    · intro id hid
      rw [ContextKitPlugin.newSubscribe_watchers, if_pos hkey, List.length_append] at hid
      exact h.fresh id (le_trans (Nat.le_add_right _ _) hid)
    · intro k id hid
      rw [ContextKitPlugin.newSubscribe, if_pos hkey] at hid
      dsimp only at hid ⊢
      rcases eq_or_ne k key with rfl | hne
      · rw [Function.update_self, Option.some.injEq] at hid
        rw [h.fresh id hid.le]
        exact not_false
      · rw [Function.update_of_ne hne] at hid
        exact h.unfinished k id hid
  · rw [s.plugin.newSubscribe_of_notMem hkey]
    exact h

theorem Unfinished.flush (h : s.Unfinished) (order : List String) :
    Unfinished { s with plugin := s.plugin.flush order } := by
  unfold ContextKitPlugin.flush
  split_ifs with hprotocol
  · clear hprotocol
    induction order generalizing s with
    | nil => exact h
    | cons key order ih => exact ih (h.newSubscribe key)
  · exact h

/-! ### What a watcher does -/

/-- A watcher may get to any phase in which it has not finished, and to any other if it is not
stored. -/
theorem Unfinished.setPhase (h : s.Unfinished) {id : ℕ} (hid : id < s.plugin.watchers.length)
    {ph : WatcherPhase} (hph : ∀ key, s.plugin.pendingWatchers key = some id → ¬ ph.Finished) :
    (s.setPhase id ph).Unfinished where
  watcher := h.watcher
  fresh i hi := by
    have hne : i ≠ id := by
      rintro rfl
      exact absurd hid (not_lt.2 hi)
    exact (Function.update_of_ne hne _ _).trans (h.fresh i hi)
  unfinished key i hi := by
    show ¬ (Function.update s.phase id ph i).Finished
    rcases eq_or_ne i id with rfl | hne
    · rw [Function.update_self]
      exact hph key hi
    · rw [Function.update_of_ne hne]
      exact h.unfinished key i hi

/-- A watcher that is past its call is one of the plugin's. -/
theorem Unfinished.lt_length (h : s.Unfinished) {id : ℕ} (hid : s.phase id ≠ .calling) :
    id < s.plugin.watchers.length := by
  by_contra hle
  exact hid (h.fresh id (not_lt.1 hle))

/-- Whatever is stored under the key of a watcher is taken away, and with it the watcher. -/
theorem Unfinished.removePendingWatcher (h : s.Unfinished) {key : String} {id : ℕ}
    (hkey : s.plugin.watchers[id]? = some key) :
    (s.call key .removePendingWatcher).Unfinished ∧
      ∀ k, (s.call key .removePendingWatcher).plugin.pendingWatchers k ≠ some id := by
  have hold : ∀ k i, Function.update s.plugin.pendingWatchers key none k = some i →
      k ≠ key ∧ s.plugin.pendingWatchers k = some i := by
    intro k i hi
    rcases eq_or_ne k key with rfl | hne
    · rw [Function.update_self] at hi
      cases hi
    · rw [Function.update_of_ne hne] at hi
      exact ⟨hne, hi⟩
  refine ⟨⟨fun k i hi => h.watcher k i (hold k i hi).2, h.fresh,
    fun k i hi => h.unfinished k i (hold k i hi).2⟩, ?_⟩
  intro k hk
  obtain ⟨hne, hk⟩ := hold k id hk
  have hsame := h.watcher k id hk
  rw [hkey] at hsame
  exact hne (Option.some.inj hsame).symm

/-- The next slot of `finished` is called, or all have been and `deleteLater` is. -/
theorem step_slot {id : ℕ} (hstep : step s (.slot id) = some t) :
    (∃ slot slots key, s.phase id = .finishing (slot :: slots) ∧
      s.plugin.watchers[id]? = some key ∧ t = (s.call key slot).setPhase id (.finishing slots)) ∨
    s.phase id = .finishing [] ∧ t = s.setPhase id .deleteScheduled := by
  rw [step] at hstep
  cases hphase : s.phase id with
  | finishing slots =>
    rw [hphase] at hstep
    cases slots with
    | nil => exact .inr ⟨rfl, (Option.some.inj hstep).symm⟩
    | cons slot slots =>
      cases hkey : s.plugin.watchers[id]? with
      | none =>
        rw [hkey] at hstep
        cases hstep
      | some key =>
        rw [hkey] at hstep
        exact .inl ⟨slot, slots, key, rfl, rfl, (Option.some.inj hstep).symm⟩
  | calling | replied | deleteScheduled | deleted =>
    rw [hphase] at hstep
    cases hstep

/-- A slot of `finished`: up to `removePendingWatcher` the watcher may be stored, and with it the
watcher is no more. -/
theorem Unfinished.slot (h : s.Unfinished) {id : ℕ} (hstep : step s (.slot id) = some t) :
    t.Unfinished := by
  have hlength : s.phase id ≠ .calling → id < s.plugin.watchers.length := h.lt_length
  rcases step_slot hstep with ⟨slot, slots, key, hphase, hkey, rfl⟩ | ⟨hphase, rfl⟩
  · have hid : id < s.plugin.watchers.length := hlength (by simp [hphase])
    cases slot with
    | removePendingWatcher =>
      obtain ⟨hcall, hgone⟩ := h.removePendingWatcher hkey
      exact hcall.setPhase hid fun k hk => absurd hk (hgone k)
    | valueChanged | subscribeFinished | subscribeFailed =>
      refine h.setPhase hid fun k hk hfinished => h.unfinished k id hk ?_
      rw [hphase]
      exact fun hmem => hfinished (List.mem_of_ne_of_mem (by decide) hmem)
  · refine h.setPhase (hlength (by simp [hphase])) fun k hk => ?_
    have hunfinished := h.unfinished k id hk
    rw [hphase] at hunfinished
    exact absurd List.not_mem_nil hunfinished

/-- **One event.** -/
theorem unfinished_step {e : WatcherEvent} (h : s.Unfinished) (hstep : step s e = some t) :
    t.Unfinished := by
  cases e with
  | setDefaultNewProtocol | reset | useNewProtocol =>
    cases hstep
    exact h.of_eq rfl rfl
  | subscribe keys =>
    cases hstep
    exact h.subscribe keys
  | unsubscribe keys =>
    cases hstep
    exact h.unsubscribe keys
  | newSubscribe key =>
    obtain ⟨-, hstep⟩ := Option.ite_none_right_eq_some.1 hstep
    cases hstep
    have hqueued : Unfinished
        { s with plugin := { s.plugin with queued := s.plugin.queued.erase key } } :=
      h.of_eq rfl rfl
    exact hqueued.newSubscribe key
  | blockUntilSubscribed key order =>
    obtain ⟨-, hstep⟩ := Option.ite_none_right_eq_some.1 hstep
    cases hstep
    exact h.flush order
  | reply id isError =>
    obtain ⟨⟨hid, -⟩, hstep⟩ := Option.ite_none_right_eq_some.1 hstep
    cases hstep
    have hreplied : Unfinished
        { s with plugin := { s.plugin with unfinished := s.plugin.unfinished.erase id } } :=
      h.of_eq rfl rfl
    exact hreplied.setPhase hid fun _ _ hfinished => hfinished
  | finished id =>
    rw [step] at hstep
    cases hphase : s.phase id with
    | replied isError =>
      rw [hphase] at hstep
      cases hstep
      refine h.setPhase (h.lt_length (by simp [hphase])) fun _ _ hfinished => hfinished ?_
      cases isError <;> decide
    | calling | finishing | deleteScheduled | deleted =>
      rw [hphase] at hstep
      cases hstep
  | slot id => exact h.slot hstep
  | delete id =>
    obtain ⟨hphase, hstep⟩ := Option.ite_none_right_eq_some.1 hstep
    cases hstep
    refine h.setPhase (h.lt_length (by simp [hphase])) fun key hkey => ?_
    have hfinished := h.unfinished key id hkey
    rw [hphase] at hfinished
    exact hfinished

/-- The watcher that `blockUntilSubscribed` waits for, once it has made the calls put off. -/
def waitedFor (s : WatchedPlugin) : WatcherEvent → Option ℕ
  | .blockUntilSubscribed key order => (s.plugin.flush order).pendingWatchers key
  | _ => none

/-- **No finished watcher is stored.**  Whatever has been called and replied to, in any order: a
watcher that is stored has not finished, and while none is finishing it has not emitted `finished`;
so `blockUntilSubscribed` never waits for a watcher whose deletion is scheduled. -/
theorem pendingWatchers_unfinished {es : List WatcherEvent} (h : run step init es = some s) :
    (∀ key id, s.plugin.pendingWatchers key = some id →
      ¬ (s.phase id).Finished ∧ ((∀ i, ¬ (s.phase i).IsFinishing) → (s.phase id).Waiting)) ∧
    ∀ e id, (step s e).isSome → s.waitedFor e = some id → ¬ (s.phase id).Finished := by
  have hs : s.Unfinished := run_inv (fun _ _ _ hs ht => unfinished_step hs ht) unfinished_init h
  refine ⟨fun key id hid => ⟨hs.unfinished key id hid, fun hquiet => ?_⟩, fun e id _ hid => ?_⟩
  · have hunfinished := hs.unfinished key id hid
    have hfinishing := hquiet id
    cases hphase : s.phase id with
    | calling | replied => trivial
    | finishing slots =>
      rw [hphase] at hfinishing
      exact hfinishing trivial
    | deleteScheduled | deleted =>
      rw [hphase] at hunfinished
      exact hunfinished trivial
  · cases e with
    | blockUntilSubscribed key order => exact (hs.flush order).unfinished key id hid
    | _ => cases hid

/-- Two calls for one key overlap: the reply to the older one takes the newer watcher away, and a
third call makes the only watcher there is to wait for. -/
theorem pendingWatchers_unfinished_overlap :
    let es : List WatcherEvent := [.subscribe {"Screen.TopEdge"}, .newSubscribe "Screen.TopEdge",
      .subscribe {"Screen.TopEdge"}, .newSubscribe "Screen.TopEdge", .reply 0 true, .finished 0,
      .slot 0, .slot 0, .slot 0, .delete 0, .subscribe {"Screen.TopEdge"}]
    ∃ s, run step init es = some s ∧
      s.waitedFor (.blockUntilSubscribed "Screen.TopEdge" ["Screen.TopEdge"]) = some 2 ∧
      ¬ (s.phase 2).Finished := by
  intro es
  let e : WatcherEvent := .blockUntilSubscribed "Screen.TopEdge" ["Screen.TopEdge"]
  have hruns : (run step init es).isSome := by decide +kernel
  have hsteps : ((run step init es).bind (step · e)).isSome := by decide +kernel
  have hwaits : (run step init es).bind (waitedFor · e) = some 2 := by decide +kernel
  obtain ⟨s, hrun⟩ := Option.isSome_iff_exists.1 hruns
  rw [hrun] at hsteps hwaits
  exact ⟨s, hrun, hwaits, (pendingWatchers_unfinished hrun).2 e 2 hsteps hwaits⟩

/-! ### The steps of one reply together -/

/-- The reply to the call of a watcher, and all that the watcher does then. -/
def answer (id : ℕ) (isError : Bool) : List WatcherEvent :=
  .reply id isError :: .finished id ::
    ((WatcherPhase.onFinished isError).map (fun _ => .slot id) ++ [.slot id])

@[simp] theorem setPhase_setPhase (s : WatchedPlugin) (id : ℕ) (ph ph' : WatcherPhase) :
    (s.setPhase id ph).setPhase id ph' = s.setPhase id ph' :=
  congrArg (WatchedPlugin.mk s.plugin) (Function.update_idem ..)

theorem setPhase_phase_self (s : WatchedPlugin) (id : ℕ) (ph : WatcherPhase) :
    (s.setPhase id ph).phase id = ph :=
  Function.update_self ..

/-- The slots that are left, and then `deleteLater`. -/
theorem run_slots {id : ℕ} {key : String} (slots : List WatcherSlot)
    (hkey : s.plugin.watchers[id]? = some key) :
    run step (s.setPhase id (.finishing slots)) (slots.map (fun _ => .slot id) ++ [.slot id]) =
      some ((slots.foldl (call · key) s).setPhase id .deleteScheduled) := by
  induction slots generalizing s with
  | nil =>
    have hstep : step (s.setPhase id (.finishing [])) (.slot id) =
        some (s.setPhase id .deleteScheduled) := by
      simp only [step, setPhase_phase_self, setPhase_setPhase]
    exact run_cons_eq_some.2 ⟨_, hstep, rfl⟩
  | cons slot slots ih =>
    have hcall : (s.setPhase id (.finishing (slot :: slots))).call key slot =
        (s.call key slot).setPhase id (.finishing (slot :: slots)) := by
      cases slot <;> rfl
    have hwatchers : (s.call key slot).plugin.watchers = s.plugin.watchers := by
      cases slot <;> rfl
    have hstep : step (s.setPhase id (.finishing (slot :: slots))) (.slot id) =
        some ((s.call key slot).setPhase id (.finishing slots)) := by
      have hkey' : (s.setPhase id (.finishing (slot :: slots))).plugin.watchers[id]? = some key :=
        hkey
      simp only [step, setPhase_phase_self, hkey', hcall, setPhase_setPhase]
    exact run_cons_eq_some.2 ⟨_, hstep, ih (by rw [hwatchers, hkey])⟩

/-- With nothing in between, they are `onFinished` of the plugin, and the watcher is to be
deleted. -/
theorem run_answer {id : ℕ} {key : String} (isError : Bool) (hphase : s.phase id = .calling)
    (hkey : s.plugin.watchers[id]? = some key) :
    run step s (answer id isError) =
      some ({ s with plugin := s.plugin.onFinished id }.setPhase id .deleteScheduled) := by
  let r : WatchedPlugin :=
    { s with plugin := { s.plugin with unfinished := s.plugin.unfinished.erase id } }
  have hid : id < s.plugin.watchers.length := (List.getElem?_eq_some_iff.1 hkey).1
  have hreply : step s (.reply id isError) = some (r.setPhase id (.replied isError)) :=
    if_pos ⟨hid, hphase⟩
  have hfinished : step (r.setPhase id (.replied isError)) (.finished id) =
      some (r.setPhase id (.finishing (WatcherPhase.onFinished isError))) := by
    simp only [step, setPhase_phase_self, setPhase_setPhase]
  have hslots : (WatcherPhase.onFinished isError).foldl (call · key) r =
      { s with plugin := s.plugin.onFinished id } := by
    rw [ContextKitPlugin.onFinished, hkey]
    cases isError <;> rfl
  refine run_cons_eq_some.2 ⟨_, hreply, run_cons_eq_some.2 ⟨_, hfinished, ?_⟩⟩
  have hkey' : r.plugin.watchers[id]? = some key := hkey
  rw [run_slots _ hkey', hslots]

/-- The call of `blockUntilSubscribed` and the steps it waits for are `blockUntilSubscribed` of the
plugin. -/
theorem run_blockUntilSubscribed (h : s.Unfinished) {key : String} {order : List String} {id : ℕ}
    (isError : Bool) (horder : order.Nodup ∧ order.toFinset = s.plugin.pendingKeys)
    (hid : (s.plugin.flush order).pendingWatchers key = some id)
    (hphase : s.phase id = .calling) :
    run step s (.blockUntilSubscribed key order :: answer id isError) =
      some ({ s with plugin := s.plugin.blockUntilSubscribed key order }.setPhase
        id .deleteScheduled) := by
  have hstep : step s (.blockUntilSubscribed key order) =
      some { s with plugin := s.plugin.flush order } := if_pos horder
  rw [run_cons, hstep, Option.bind_some, ContextKitPlugin.blockUntilSubscribed, hid]
  exact run_answer isError hphase ((h.flush order).watcher key id hid)

end WatchedPlugin

end ContextSubscriber
