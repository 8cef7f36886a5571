import ContextKit.Subscriber.LinkMoves

/-!
# `Provider::blockUntilSubscribed`

The call makes the plugin ready, has it make the `Subscribe` calls that were put off, and waits for
the one whose watcher belongs to the key.  A key that is only scheduled gets to the plugin if the
plugin was not ready before: then `ready` hands over all the keys.  A plugin that was ready already
is not heard when it emits `ready` again, and the schedule stays where it is.

`answeredSince_iff` tells from the state before the call whether a `Subscribe` call of the key, made
since the key was subscribed to, has its answer after it.
-/

namespace ContextSubscriber
open ContextKit Transition

/-! ### The calls that were put off -/

namespace ContextKitPlugin

/-- `q` is `p` after some more `Subscribe` calls, which have got no reply. -/
structure CalledOn (p q : ContextKitPlugin) : Prop where
  watchers : p.watchers <+: q.watchers
  answered : ∀ id, id < q.watchers.length → id ∉ q.unfinished →
    id < p.watchers.length ∧ id ∉ p.unfinished
  unfinished : ∀ id, id < p.watchers.length → id ∉ p.unfinished → id ∉ q.unfinished

theorem CalledOn.refl (p : ContextKitPlugin) : p.CalledOn p where
  watchers := List.prefix_refl _
  answered _ hid hans := ⟨hid, hans⟩
  unfinished _ _ hans := hans

theorem CalledOn.trans {p q r : ContextKitPlugin} (h : p.CalledOn q) (h' : q.CalledOn r) :
    p.CalledOn r where
  watchers := h.watchers.trans h'.watchers
  answered id hid hans := by
    obtain ⟨hq, hqans⟩ := h'.answered id hid hans
    exact h.answered id hq hqans
  unfinished id hid hans :=
    h'.unfinished id (hid.trans_le h.watchers.length_le) (h.unfinished id hid hans)

variable {p : ContextKitPlugin}

theorem calledOn_newSubscribe (p : ContextKitPlugin) (key : String) :
    p.CalledOn (p.newSubscribe key) := by
  unfold newSubscribe
  split_ifs with hk
  · refine ⟨List.prefix_append _ _, fun id hid hans => ?_, fun id hid hans => ?_⟩
    · simp only [List.length_append, List.length_singleton] at hid
      simp only [Finset.mem_insert, not_or] at hans
      exact ⟨by omega, hans.2⟩
    · simp only [Finset.mem_insert, not_or]
      exact ⟨by omega, hans⟩
  · exact .refl p

theorem calledOn_foldl (order : List String) (p : ContextKitPlugin) :
    p.CalledOn (order.foldl newSubscribe p) := by
  induction order generalizing p with
  | nil => exact .refl p
  | cons k order ih => exact (calledOn_newSubscribe p k).trans (ih _)

theorem foldl_newSubscribe_watchersMatch (order : List String) (h : p.WatchersMatch) :
    (order.foldl newSubscribe p).WatchersMatch := by
  induction order generalizing p with
  | nil => exact h
  | cons k order ih => exact ih (h.newSubscribe k)

/-- A key that was not put off keeps its watcher. -/
theorem foldl_newSubscribe_of_notMem (order : List String) {key : String}
    (hk : key ∉ p.pendingKeys) :
    (order.foldl newSubscribe p).pendingWatchers key = p.pendingWatchers key := by
  induction order generalizing p with
  | nil => rfl
  | cons k order ih =>
    have hk' : key ∉ (p.newSubscribe k).pendingKeys := by
      rw [newSubscribe_pendingKeys]
      exact fun hmem => hk (Finset.mem_of_mem_erase hmem)
    rw [List.foldl_cons, ih hk']
    unfold newSubscribe
    split_ifs with hmem
    · have hne : key ≠ k := fun heq => hk (heq ▸ hmem)
      exact Function.update_of_ne hne _ _
    · rfl

/-- A key that was put off gets a new watcher. -/
theorem foldl_newSubscribe_of_mem (order : List String) {key : String} (hk : key ∈ p.pendingKeys)
    (horder : key ∈ order) :
    ∃ id, p.watchers.length ≤ id ∧
      (order.foldl newSubscribe p).pendingWatchers key = some id := by
  induction order generalizing p with
  | nil => cases horder
  | cons k order ih =>
    rcases eq_or_ne key k with rfl | hne
    · refine ⟨p.watchers.length, le_refl _, ?_⟩
      have hgone : key ∉ (p.newSubscribe key).pendingKeys := by
        rw [newSubscribe_pendingKeys]
        exact Finset.notMem_erase _ _
      rw [List.foldl_cons, foldl_newSubscribe_of_notMem order hgone, newSubscribe, if_pos hk]
      exact Function.update_self _ _ _
    · have hk' : key ∈ (p.newSubscribe k).pendingKeys := by
        rw [newSubscribe_pendingKeys]
        exact Finset.mem_erase_of_ne_of_mem hne hk
      obtain ⟨id, hid, hw⟩ := ih hk' (List.mem_of_ne_of_mem hne horder)
      exact ⟨id, (calledOn_newSubscribe p k).watchers.length_le.trans hid, hw⟩

theorem onFinished_unfinished {id : ℕ} {key : String} (h : p.watchers[id]? = some key) :
    (p.onFinished id).unfinished = p.unfinished.erase id := by
  rw [onFinished, h]
  rfl

end ContextKitPlugin

/-! ### The blocking call -/

namespace Link

variable {V : Type}

/-- A `Subscribe` call of the key, made since the key was last inserted into `subscribedKeys`, has
been replied to. -/
def AnsweredSince (l : Link V) (key : String) : Prop :=
  ∃ id, l.insertedAt key ≤ id ∧ l.plugin.watchers[id]? = some key ∧ id ∉ l.plugin.unfinished

/-- The watcher of the key belongs to a call made since the key was last inserted into
`subscribedKeys`. -/
def WatchedSince (l : Link V) (key : String) : Prop :=
  ∃ id, l.plugin.pendingWatchers key = some id ∧ l.insertedAt key ≤ id

variable {l m : Link V} {key : String}

@[simp] theorem construct_pluginState (l : Link V) :
    l.construct.provider.pluginState = l.provider.pluginState := by
  unfold construct
  split_ifs <;> rfl

@[simp] theorem construct_subscribedKeys (l : Link V) :
    l.construct.provider.subscribedKeys = l.provider.subscribedKeys := by
  unfold construct
  split_ifs <;> rfl

@[simp] theorem construct_plugin (l : Link V) : l.construct.plugin = l.plugin := by
  unfold construct
  split_ifs <;> rfl

@[simp] theorem construct_insertedAt (l : Link V) : l.construct.insertedAt = l.insertedAt := by
  unfold construct
  split_ifs <;> rfl

/-- Making the plugin ready hands over all keys, unless it was ready before. -/
theorem noted_blockUntilReady (h : l.Linked)
    (hready : l.blockUntilReady.provider.pluginState = .ready) :
    l.blockUntilReady.insertedAt = l.insertedAt ∧
      l.plugin.Noted (if l.provider.pluginState = .ready then ∅ else l.provider.subscribedKeys)
        l.blockUntilReady.plugin := by
  have hc := linked_move h (idle_construct l)
  unfold blockUntilReady ContextKitPlugin.blockUntilReady at hready ⊢
  by_cases hn : l.construct.provider.pluginState = .ready ∨
      l.construct.listener.servicePresent = .notPresent
  · obtain ⟨p, hp, heq⟩ := emit_of_not hc.modern l.construct.listener hn
    rw [heq] at hready ⊢
    rw [construct_pluginState] at hready
    rw [construct_plugin] at hp
    rw [if_pos hready]
    exact ⟨l.construct_insertedAt, hp⟩
  · rw [not_or] at hn
    obtain ⟨p, hp, heq⟩ := emit_of_ne hc.modern hn.1 hn.2
    rw [heq]
    rw [construct_plugin, construct_subscribedKeys] at hp
    rw [construct_pluginState] at hn
    rw [if_neg hn.1]
    exact ⟨l.construct_insertedAt, hp⟩

/-- Making the calls that were put off answers none. -/
theorem answeredSince_calledOn {q : ContextKitPlugin} (h : l.plugin.CalledOn q) :
    AnsweredSince { l with plugin := q } key ↔ l.AnsweredSince key := by
  constructor
  · rintro ⟨id, hinserted, hget, hans⟩
    obtain ⟨hlt, hans'⟩ := h.answered id (List.getElem?_eq_some_iff.1 hget).1 hans
    refine ⟨id, hinserted, ?_, hans'⟩
    rw [← hget, List.getElem?_eq_getElem hlt, h.watchers.getElem hlt]
    exact (List.getElem?_eq_getElem _).symm
  · rintro ⟨id, hinserted, hget, hans⟩
    obtain ⟨hlt, hkey⟩ := List.getElem?_eq_some_iff.1 hget
    refine ⟨id, hinserted, ?_, h.unfinished id hlt hans⟩
    rw [← hkey, h.watchers.getElem hlt]
    exact List.getElem?_eq_getElem _

/-- Making the calls that were put off gives the keys of these calls new watchers. -/
theorem watchedSince_foldl_newSubscribe (h : l.Linked) {order : List String}
    (horder : order.toFinset = l.plugin.pendingKeys) :
    WatchedSince { l with plugin := order.foldl ContextKitPlugin.newSubscribe l.plugin } key ↔
      key ∈ l.plugin.pendingKeys ∨ l.WatchedSince key := by
  unfold WatchedSince
  by_cases hk : key ∈ l.plugin.pendingKeys
  · have hmem : key ∈ order := by rwa [← List.mem_toFinset, horder]
    obtain ⟨id, hid, hw⟩ := ContextKitPlugin.foldl_newSubscribe_of_mem order hk hmem
    exact iff_of_true ⟨id, hw, (h.insertedAt key).trans hid⟩ (Or.inl hk)
  · dsimp only
    rw [ContextKitPlugin.foldl_newSubscribe_of_notMem order hk, or_iff_right hk]

/-- The reply that is waited for is that to the watcher of the key. -/
theorem answeredSince_finish {id : ℕ} (hmatch : l.plugin.WatchersMatch)
    (hw : l.plugin.pendingWatchers key = some id) (value : Option (TimedValue V)) :
    (l.finish id value).AnsweredSince key ↔ l.AnsweredSince key ∨ l.WatchedSince key := by
  have hget := hmatch key id hw
  unfold AnsweredSince WatchedSince finish
  dsimp only
  rw [ContextKitPlugin.onFinished_watchers, ContextKitPlugin.onFinished_unfinished hget]
  simp only [Finset.mem_erase, hw]
  constructor
  · rintro ⟨i, hinserted, hi, hans⟩
    by_cases heq : i = id
    · exact Or.inr ⟨i, by rw [heq], hinserted⟩
    · exact Or.inl ⟨i, hinserted, hi, fun hun => hans ⟨heq, hun⟩⟩
  · rintro (⟨i, hinserted, hi, hans⟩ | ⟨i, hi, hinserted⟩)
    · exact ⟨i, hinserted, hi, fun hun => hans hun.2⟩
    · cases hi
      exact ⟨id, hinserted, hget, fun hun => hun.1 rfl⟩

/-- What is waited for is the watcher the key has once no call is put off any more. -/
theorem answeredSince_waitFor_iff (h : l.Linked) {order : List String}
    (horder : order.toFinset = l.plugin.pendingKeys) (value : Option (TimedValue V)) :
    (l.waitFor key order value).AnsweredSince key ↔
      l.AnsweredSince key ∨ key ∈ l.plugin.pendingKeys ∨ l.WatchedSince key := by
  have hcalled := ContextKitPlugin.calledOn_foldl order l.plugin
  have hmatch := ContextKitPlugin.foldl_newSubscribe_watchersMatch order h.watcher
  rw [← answeredSince_calledOn hcalled, ← watchedSince_foldl_newSubscribe h horder, waitFor,
    ContextKitPlugin.flush, if_pos h.modern.newProtocol]
  dsimp only
  split
  · next hw => simp [WatchedSince, hw]
  · next id hw => exact answeredSince_finish hmatch hw value

/-- Whatever the state, the call can be made; the plugin goes through the keys in some order. -/
theorem exists_blockUntilSubscribed (l : Link V) (key : String) (value : Option (TimedValue V)) :
    ∃ order m, l.step (.blockUntilSubscribed key order value) = some m := by
  refine ⟨l.blockUntilReady.plugin.pendingKeys.toList, ?_⟩
  simp only [step, Finset.nodup_toList, Finset.toList_toFinset, and_self, if_true]
  split_ifs <;> exact ⟨_, rfl⟩

/-- **When the blocking call returns with the plugin ready, a `Subscribe` call of the key has been
answered since the key was subscribed to**, exactly if the plugin was not ready before the call, the
key was put off, or its watcher, or an answer, was of a call made since then. -/
theorem answeredSince_iff {l : Link V} (hl : Reachable step init l)
    (hkey : key ∈ l.provider.subscribedKeys) {order : List String} {value : Option (TimedValue V)}
    (hstep : l.step (.blockUntilSubscribed key order value) = some m)
    (hready : m.provider.pluginState = .ready) :
    m.AnsweredSince key ↔
      l.provider.pluginState ≠ .ready ∨ key ∈ l.plugin.pendingKeys ∨
        l.WatchedSince key ∨ l.AnsweredSince key := by
  have h : l.Linked := hl.inv (fun s e t hs hstep => linked_step hs hstep) linked_init
  have hb := h.moves (moves_blockUntilReady h)
  simp only [step] at hstep
  split_ifs at hstep with hr horder
  swap
  · cases hstep
    exact absurd hready hr
  cases hstep
  obtain ⟨hinserted, hnoted⟩ := noted_blockUntilReady h hr
  rw [answeredSince_waitFor_iff hb horder.2]
  unfold AnsweredSince WatchedSince
  rw [hnoted.pendingKeys, hnoted.watchers, hnoted.unfinished, hnoted.pendingWatchers, hinserted]
  by_cases hs : l.provider.pluginState = .ready
  · rw [if_pos hs, Finset.empty_union]
    simp only [hs, ne_eq, not_true_eq_false, false_or]
    rw [or_comm, or_assoc]
  · rw [if_neg hs]
    exact iff_of_true (Or.inr (Or.inl (Finset.mem_union_left _ hkey))) (Or.inl hs)

/-- The plugin is ready, and the key has not been handed to it when the call is made. -/
def subscribedOnReady : List (LinkEvent (Option ℤ)) :=
  [.constructPlugin, .providerAppeared, .subscribe "Screen.TopEdge"]

theorem exists_ready_not_answeredSince :
    ∃ l m, run step init subscribedOnReady = some l ∧
      "Screen.TopEdge" ∈ l.provider.subscribedKeys ∧
      l.step (.blockUntilSubscribed "Screen.TopEdge" [] none) = some m ∧
      m.provider.pluginState = .ready ∧ ¬ m.AnsweredSince "Screen.TopEdge" := by
  refine ⟨_, _, rfl, by decide, rfl, rfl, ?_⟩
  rintro ⟨id, -, hget, -⟩
  cases hget

/-- The plugin has not been constructed when the call is made. -/
theorem answeredSince_iff_subscribedFirst :
    ∃ l m : Link (Option ℤ), run step init [.subscribe "Screen.TopEdge"] = some l ∧
      l.step (.blockUntilSubscribed "Screen.TopEdge" ["Screen.TopEdge"] none) = some m ∧
      m.AnsweredSince "Screen.TopEdge" := by
  let l : Link (Option ℤ) := (init.step (.subscribe "Screen.TopEdge")).getD init
  let m : Link (Option ℤ) :=
    (l.step (.blockUntilSubscribed "Screen.TopEdge" ["Screen.TopEdge"] none)).getD l
  have hl : Reachable step init l := ⟨[.subscribe "Screen.TopEdge"], rfl⟩
  have hstep : l.step (.blockUntilSubscribed "Screen.TopEdge" ["Screen.TopEdge"] none) = some m :=
    rfl
  have hkey : "Screen.TopEdge" ∈ l.provider.subscribedKeys := by decide
  have hstate : l.provider.pluginState ≠ .ready := by decide
  exact ⟨l, m, rfl, hstep, (answeredSince_iff hl hkey hstep rfl).2 (Or.inl hstate)⟩

end Link

end ContextSubscriber
