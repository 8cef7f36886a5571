import Mathlib.Logic.Relation
import ContextKit.Subscriber.Link

/-!
# What an event can do to a link

An event is a short sequence of *moves* (`LinkMove`), and an invariant of the link is shown move by
move.  What a move does to the plugin is either to note keys for later (`Noted`), to make a call
that was put off, or to handle a reply.  `Linked` is the invariant that every move keeps, and with
it `moves_of_step` takes the events apart.
-/

namespace ContextSubscriber
open ContextKit Transition

/-! ### What a slot does to the plugin -/

namespace ContextKitPlugin

/-- The plugin speaks the new protocol only. -/
structure Modern (p : ContextKitPlugin) : Prop where
  newProtocol : p.newProtocol = true
  defaultNewProtocol : p.defaultNewProtocol = true

/-- `q` is `p` with `keys` put off, as far as the subscriptions and their watchers go. -/
structure Noted (p : ContextKitPlugin) (keys : Finset String) (q : ContextKitPlugin) : Prop where
  modern : p.Modern → q.Modern
  pendingKeys : q.pendingKeys = keys ∪ p.pendingKeys
  queued : q.queued = keys.val + p.queued
  watchers : q.watchers = p.watchers
  pendingWatchers : q.pendingWatchers = p.pendingWatchers
  unfinished : q.unfinished = p.unfinished

theorem Noted.refl (p : ContextKitPlugin) : p.Noted ∅ p :=
  ⟨id, by simp, by simp, rfl, rfl, rfl⟩

theorem Noted.trans {p q r : ContextKitPlugin} {keys : Finset String} (h : p.Noted ∅ q)
    (h' : q.Noted keys r) : p.Noted keys r where
  modern := h'.modern ∘ h.modern
  pendingKeys := by rw [h'.pendingKeys, h.pendingKeys, Finset.empty_union]
  queued := by rw [h'.queued, h.queued, Finset.empty_val, Multiset.zero_add]
  watchers := h'.watchers.trans h.watchers
  pendingWatchers := h'.pendingWatchers.trans h.pendingWatchers
  unfinished := h'.unfinished.trans h.unfinished

theorem Noted.trans_empty {p q r : ContextKitPlugin} {keys : Finset String} (h : p.Noted keys q)
    (h' : q.Noted ∅ r) : p.Noted keys r where
  modern := h'.modern ∘ h.modern
  pendingKeys := by rw [h'.pendingKeys, h.pendingKeys, Finset.empty_union]
  queued := by rw [h'.queued, h.queued, Finset.empty_val, Multiset.zero_add]
  watchers := h'.watchers.trans h.watchers
  pendingWatchers := h'.pendingWatchers.trans h.pendingWatchers
  unfinished := h'.unfinished.trans h.unfinished

variable {p : ContextKitPlugin}

theorem Modern.reset (h : p.Modern) : p.reset.Modern := ⟨h.defaultNewProtocol, h.defaultNewProtocol⟩

theorem noted_reset (h : p.Modern) : p.Noted ∅ p.reset :=
  ⟨fun _ => h.reset, by simp [ContextKitPlugin.reset], by simp [ContextKitPlugin.reset], rfl, rfl,
    rfl⟩

theorem noted_subscribe (h : p.Modern) (keys : Finset String) :
    p.Noted keys (p.subscribe keys) := by
  rw [p.subscribe_of_newProtocol h.newProtocol]
  exact ⟨fun h => ⟨h.newProtocol, h.defaultNewProtocol⟩, rfl, rfl, rfl, rfl, rfl⟩

theorem noted_unsubscribe (h : p.Modern) (keys : Finset String) :
    p.Noted ∅ (p.unsubscribe keys) := by
  rw [p.unsubscribe_of_newProtocol h.newProtocol]
  exact ⟨fun h => ⟨h.newProtocol, h.defaultNewProtocol⟩, by simp, by simp, rfl, rfl, rfl⟩

theorem Modern.newSubscribe (h : p.Modern) (key : String) : (p.newSubscribe key).Modern := by
  unfold ContextKitPlugin.newSubscribe
  split_ifs
  · exact ⟨h.newProtocol, h.defaultNewProtocol⟩
  · exact h

theorem Modern.onFinished (h : p.Modern) (id : ℕ) : (p.onFinished id).Modern := by
  rw [p.onFinished_eq id]
  exact ⟨h.newProtocol, h.defaultNewProtocol⟩

theorem newSubscribe_watchers (key : String) :
    (p.newSubscribe key).watchers =
      if key ∈ p.pendingKeys then p.watchers ++ [key] else p.watchers := by
  unfold ContextKitPlugin.newSubscribe
  split_ifs <;> rfl

@[simp] theorem onFinished_watchers (id : ℕ) : (p.onFinished id).watchers = p.watchers := by
  rw [p.onFinished_eq id]

/-- The watchers of the keys are those of calls made for them. -/
def WatchersMatch (p : ContextKitPlugin) : Prop :=
  ∀ k id, p.pendingWatchers k = some id → p.watchers[id]? = some k

theorem WatchersMatch.newSubscribe (h : p.WatchersMatch) (key : String) :
    (p.newSubscribe key).WatchersMatch := by
  unfold ContextKitPlugin.newSubscribe
  split_ifs with hk
  swap
  · exact h
  intro k id hid
  dsimp only at hid ⊢
  rcases eq_or_ne k key with rfl | hne
  · rw [Function.update_self, Option.some.injEq] at hid
    simp [← hid]
  · rw [Function.update_of_ne hne] at hid
    have hget := h k id hid
    rw [List.getElem?_append_left (List.getElem?_eq_some_iff.1 hget).1, hget]

theorem WatchersMatch.onFinished (h : p.WatchersMatch) (id : ℕ) :
    (p.onFinished id).WatchersMatch := by
  intro k i hi
  rw [onFinished_watchers]
  unfold ContextKitPlugin.onFinished at hi
  cases hw : p.watchers[id]? with
  | none =>
    rw [hw] at hi
    exact h k i hi
  | some key =>
    rw [hw] at hi
    simp only [removePendingWatcher] at hi
    rcases eq_or_ne k key with rfl | hne
    · simp at hi
    · rw [Function.update_of_ne hne] at hi
      exact h k i hi

/-- On the new protocol `ready` is emitted unless the service is known not to be there. -/
theorem onProviderAppeared_of_modern (h : p.Modern) (listener : DBusNameListener) :
    p.Noted ∅ (p.onProviderAppeared listener).1 ∧
      (p.onProviderAppeared listener).2 = decide (listener.servicePresent ≠ .notPresent) := by
  have hd : p.reset.defaultNewProtocol = true := h.reset.defaultNewProtocol
  unfold onProviderAppeared
  rw [if_pos hd]
  refine ⟨?_, rfl⟩
  exact ⟨fun _ => ⟨rfl, hd⟩, by simp [useNewProtocol, ContextKitPlugin.reset],
    by simp [useNewProtocol, ContextKitPlugin.reset], rfl, rfl, rfl⟩

end ContextKitPlugin

/-! ### Moves -/

namespace Link

variable {V : Type}

/-- The provider is as before, except that handling may have been queued, values have come, or the
plugin has been constructed. -/
structure SameProvider (p q : Provider String V) : Prop where
  pluginState : q.pluginState = p.pluginState
  toSubscribe : q.toSubscribe = p.toSubscribe
  toUnsubscribe : q.toUnsubscribe = p.toUnsubscribe
  subscribedKeys : q.subscribedKeys = p.subscribedKeys
  queued : Method.handleSubscribes ∈ p.callQueue → Method.handleSubscribes ∈ q.callQueue

/-- The notes about the `Subscribe` calls are as before. -/
structure SameNotes (l m : Link V) : Prop where
  insertedAt : m.insertedAt = l.insertedAt
  appearedAt : m.appearedAt = l.appearedAt

/-- The two moves that need attention carry a label. -/
inductive MoveLabel
  | subscribe (key : String)
  | appeared

/-- The moves events are made of. -/
inductive LinkMove (l : Link V) : Option MoveLabel → Link V → Prop
  | idle {m : Link V} (hprovider : SameProvider l.provider m.provider)
      (hplugin : l.plugin.Noted ∅ m.plugin) (hlistener : m.listener = l.listener)
      (hnotes : l.SameNotes m) : LinkMove l none m
  | ready {m : Link V} (hstate : l.provider.pluginState ≠ .ready)
      (hpresence : m.listener = l.listener ∧ m.appearedAt = l.appearedAt ∧
          l.listener.servicePresent = .unknown ∨
        m.listener.servicePresent = .present ∧ m.appearedAt = l.plugin.watchers.length)
      (hprovider : m.provider.pluginState = .ready ∧ m.provider.toSubscribe = ∅ ∧
        m.provider.toUnsubscribe = ∅ ∧ m.provider.subscribedKeys = l.provider.subscribedKeys)
      (hplugin : l.plugin.Noted l.provider.subscribedKeys m.plugin)
      (hinserted : m.insertedAt = l.insertedAt) : LinkMove l none m
  | appeared {m : Link V} (hstate : l.provider.pluginState = .ready)
      (hunknown : l.listener.servicePresent ≠ .present) (hprovider : m.provider = l.provider)
      (hplugin : l.plugin.Noted ∅ m.plugin) (hlistener : m.listener.servicePresent = .present)
      (hinserted : m.insertedAt = l.insertedAt)
      (happeared : m.appearedAt = l.plugin.watchers.length) : LinkMove l (some .appeared) m
  | failed {m : Link V} (hlistener : m.listener.servicePresent = .notPresent)
      (hprovider : m.provider.pluginState = .failed ∧ m.provider.toSubscribe = ∅ ∧
        m.provider.toUnsubscribe = ∅ ∧ m.provider.subscribedKeys = l.provider.subscribedKeys)
      (hplugin : l.plugin.Noted ∅ m.plugin) (hnotes : l.SameNotes m) : LinkMove l none m
  | handled {m : Link V} (hstate : l.provider.pluginState = .ready)
      (hprovider : m.provider.pluginState = .ready ∧ m.provider.toSubscribe = ∅ ∧
        m.provider.toUnsubscribe = ∅ ∧ m.provider.subscribedKeys = l.provider.subscribedKeys)
      (hplugin : l.plugin.Noted l.provider.toSubscribe m.plugin)
      (hlistener : m.listener = l.listener) (hnotes : l.SameNotes m) : LinkMove l none m
  | handledNot {m : Link V} (hstate : l.provider.pluginState ≠ .ready)
      (hprovider : m.provider.pluginState = l.provider.pluginState ∧
        m.provider.subscribedKeys = l.provider.subscribedKeys)
      (hplugin : m.plugin = l.plugin) (hlistener : m.listener = l.listener)
      (hnotes : l.SameNotes m) : LinkMove l none m
  | delivered (key : String) :
      LinkMove l none { l with plugin := l.plugin.deliverNewSubscribe key }
  | forced (key : String) : LinkMove l none { l with plugin := l.plugin.newSubscribe key }
  | finished (id : ℕ) {p : Provider String V} (hprovider : SameProvider l.provider p) :
      LinkMove l none { l with provider := p, plugin := l.plugin.onFinished id }
  | subscribed (key : String) :
      LinkMove l (some (.subscribe key)) { l with
        provider := (l.provider.subscribe key).1
        insertedAt :=
          if key ∈ l.provider.subscribedKeys then l.insertedAt
          else Function.update l.insertedAt key l.plugin.watchers.length }
  | unsubscribed (key : String) :
      LinkMove l none { l with provider := l.provider.unsubscribe key }

/-! ### The slots as moves -/

section

variable {l : Link V}

theorem emit_of_not (h : l.plugin.Modern) (listener : DBusNameListener)
    (hn : l.provider.pluginState = .ready ∨ listener.servicePresent = .notPresent) :
    ∃ p, l.plugin.Noted ∅ p ∧
      l.emit (l.plugin.onProviderAppeared listener) = { l with plugin := p } := by
  obtain ⟨hp, hr⟩ := ContextKitPlugin.onProviderAppeared_of_modern h listener
  refine ⟨_, hp, ?_⟩
  unfold emit
  split_ifs with hemit
  · -- The provider ignores the signal in the ready state.
    rw [hr, decide_eq_true_eq] at hemit
    have hready := hn.resolve_right hemit
    simp [Provider.onPluginReady, hready, carryOut]
  · rfl

theorem emit_of_ne (h : l.plugin.Modern) {listener : DBusNameListener}
    (hs : l.provider.pluginState ≠ .ready) (hl : listener.servicePresent ≠ .notPresent) :
    ∃ p, l.plugin.Noted l.provider.subscribedKeys p ∧
      l.emit (l.plugin.onProviderAppeared listener) = { l with
        provider :=
          { l.provider with toSubscribe := ∅, toUnsubscribe := ∅, pluginState := .ready }
        plugin := p } := by
  obtain ⟨hp, hr⟩ := ContextKitPlugin.onProviderAppeared_of_modern h listener
  rw [emit, if_pos (by simpa [hr] using hl), Provider.onPluginReady_of_ne _ hs]
  rcases l.provider.subscribedKeys.eq_empty_or_nonempty with he | he
  · refine ⟨_, ?_, by simp [carryOut, he]; rfl⟩
    rw [he]
    exact hp
  · refine ⟨_, hp.trans (ContextKitPlugin.noted_subscribe (hp.modern h) _), ?_⟩
    simp [carryOut, call, he, Finset.card_pos]

theorem carryOut_handled (h : l.plugin.Modern) {p : Provider String V}
    (hs : p.pluginState = .ready) :
    ∃ q, l.plugin.Noted p.toSubscribe q ∧
      l.carryOut p.handleSubscribes = { l with provider := p.clearSchedules, plugin := q } := by
  rw [Provider.handleSubscribes_ready p hs]
  have hsub := ContextKitPlugin.noted_subscribe h p.toSubscribe
  have hunsub := ContextKitPlugin.noted_unsubscribe (hsub.modern h) p.toUnsubscribe
  rcases p.toSubscribe.eq_empty_or_nonempty with h₁ | h₁ <;>
    rcases p.toUnsubscribe.eq_empty_or_nonempty with h₂ | h₂
  · exact ⟨l.plugin, h₁ ▸ .refl _, by simp [carryOut, Provider.scheduledCalls, h₁, h₂]⟩
  · refine ⟨_, h₁ ▸ ContextKitPlugin.noted_unsubscribe h p.toUnsubscribe, ?_⟩
    simp [carryOut, Provider.scheduledCalls, call, h₁, h₂, Finset.card_pos]
  · refine ⟨_, hsub, ?_⟩
    simp [carryOut, Provider.scheduledCalls, call, h₁, h₂, Finset.card_pos]
  · refine ⟨_, hsub.trans_empty hunsub, ?_⟩
    simp [carryOut, Provider.scheduledCalls, call, h₁, h₂, Finset.card_pos]

theorem SameProvider.refl (p : Provider String V) : SameProvider p p := ⟨rfl, rfl, rfl, rfl, id⟩

theorem SameNotes.refl (l : Link V) : l.SameNotes l := ⟨rfl, rfl⟩

end

/-! ### What every move keeps -/

/-- The states of the provider and of the listener belong together, what is scheduled or put off is
queued, and the notes and the watchers are about calls that were made. -/
structure Linked (l : Link V) : Prop where
  modern : l.plugin.Modern
  failed : l.provider.pluginState = .failed ↔ l.listener.servicePresent = .notPresent
  present : l.listener.servicePresent = .present → l.provider.pluginState = .ready
  toSubscribe : l.provider.pluginState = .ready → ∀ k ∈ l.provider.toSubscribe,
    Method.handleSubscribes ∈ l.provider.callQueue
  pendingKeys : ∀ k ∈ l.plugin.pendingKeys, k ∈ l.plugin.queued
  appearedAt : l.appearedAt ≤ l.plugin.watchers.length
  insertedAt : ∀ k, l.insertedAt k ≤ l.plugin.watchers.length
  watcher : l.plugin.WatchersMatch

theorem linked_init : (init : Link V).Linked where
  modern := ⟨rfl, rfl⟩
  failed := by simp [init, Provider.init, DBusNameListener.init]
  present := by simp [init, DBusNameListener.init]
  toSubscribe := by simp [init, Provider.init]
  pendingKeys := by simp [init, ContextKitPlugin.init]
  appearedAt := le_refl _
  insertedAt _ := le_refl _
  watcher k id hid := by cases hid

variable {l m : Link V}

/-- Noting keys keeps what `Linked` says of the plugin; the rest is about the other parties. -/
theorem Linked.of_noted (h : l.Linked) {keys : Finset String}
    (hplugin : l.plugin.Noted keys m.plugin)
    (hfailed : m.provider.pluginState = .failed ↔ m.listener.servicePresent = .notPresent)
    (hpresent : m.listener.servicePresent = .present → m.provider.pluginState = .ready)
    (htoSubscribe : m.provider.pluginState = .ready → ∀ k ∈ m.provider.toSubscribe,
      Method.handleSubscribes ∈ m.provider.callQueue)
    (happeared : m.appearedAt = l.appearedAt ∨ m.appearedAt = l.plugin.watchers.length)
    (hinserted : m.insertedAt = l.insertedAt) : m.Linked where
  modern := hplugin.modern h.modern
  failed := hfailed
  present := hpresent
  toSubscribe := htoSubscribe
  pendingKeys := by
    intro k hk
    rw [hplugin.pendingKeys, Finset.mem_union] at hk
    rw [hplugin.queued, Multiset.mem_add]
    exact hk.imp id (h.pendingKeys k)
  appearedAt := by
    rw [hplugin.watchers]
    rcases happeared with ha | ha
    · rw [ha]
      exact h.appearedAt
    · exact ha.le
  insertedAt := by
    rw [hinserted, hplugin.watchers]
    exact h.insertedAt
  watcher := by
    intro k id hid
    rw [hplugin.pendingWatchers] at hid
    rw [hplugin.watchers]
    exact h.watcher k id hid

/-- A call of `newSubscribe` takes its key off the pending ones, and may add a watcher. -/
theorem Linked.of_newSubscribe (h : l.Linked) {p : ContextKitPlugin} {key : String}
    (hmodern : p.Modern) (hmatch : p.WatchersMatch) (hwatchers : p.watchers = l.plugin.watchers)
    (hpending : ∀ k ∈ p.pendingKeys, k ≠ key → k ∈ p.queued) :
    ({ l with plugin := p.newSubscribe key } : Link V).Linked := by
  have hlen : l.plugin.watchers.length ≤ (p.newSubscribe key).watchers.length := by
    rw [ContextKitPlugin.newSubscribe_watchers, hwatchers]
    split_ifs <;> simp
  refine ⟨hmodern.newSubscribe key, h.failed, h.present, h.toSubscribe, fun k hk => ?_,
    h.appearedAt.trans hlen, fun k => (h.insertedAt k).trans hlen, hmatch.newSubscribe key⟩
  simp only [ContextKitPlugin.newSubscribe_pendingKeys, ContextKitPlugin.newSubscribe_queued,
    Finset.mem_erase] at hk ⊢
  exact hpending k hk.2 hk.1

theorem linked_move {label : Option MoveLabel} (h : l.Linked) (hmove : LinkMove l label m) :
    m.Linked := by
  cases hmove with
  | idle hprovider hplugin hlistener hnotes =>
    refine h.of_noted hplugin ?_ ?_ ?_ (Or.inl hnotes.appearedAt) hnotes.insertedAt
    · rw [hprovider.pluginState, hlistener]
      exact h.failed
    · rw [hprovider.pluginState, hlistener]
      exact h.present
    · rw [hprovider.pluginState, hprovider.toSubscribe]
      exact fun hs k hk => hprovider.queued (h.toSubscribe hs k hk)
  | ready hstate hpresence hprovider hplugin hinserted =>
    obtain ⟨hs, hts, -, -⟩ := hprovider
    refine h.of_noted hplugin ?_ (fun _ => hs) (by simp [hts]) ?_ hinserted
    · rw [hs]
      refine iff_of_false (by decide) ?_
      rcases hpresence with ⟨hl, -, hu⟩ | ⟨hp, -⟩
      · rw [hl, hu]
        decide
      · rw [hp]
        decide
    · exact hpresence.imp (fun hp => hp.2.1) And.right
  | appeared hstate hunknown hprovider hplugin hlistener hinserted happeared =>
    refine h.of_noted hplugin ?_ ?_ ?_ (Or.inr happeared) hinserted
    · rw [hprovider, hstate, hlistener]
      exact iff_of_false (by decide) (by decide)
    · rw [hprovider]
      exact fun _ => hstate
    · rw [hprovider]
      exact h.toSubscribe
  | failed hlistener hprovider hplugin hnotes =>
    obtain ⟨hs, hts, -, -⟩ := hprovider
    refine h.of_noted hplugin (iff_of_true hs hlistener) ?_ (by simp [hts])
      (Or.inl hnotes.appearedAt) hnotes.insertedAt
    rw [hlistener]
    exact fun hp => absurd hp (by decide)
  | handled hstate hprovider hplugin hlistener hnotes =>
    obtain ⟨hs, hts, -, -⟩ := hprovider
    refine h.of_noted hplugin ?_ (fun _ => hs) (by simp [hts]) (Or.inl hnotes.appearedAt)
      hnotes.insertedAt
    rw [hs.trans hstate.symm, hlistener]
    exact h.failed
  | handledNot hstate hprovider hplugin hlistener hnotes =>
    obtain ⟨hs, -⟩ := hprovider
    have hnoted : l.plugin.Noted ∅ m.plugin := hplugin ▸ .refl l.plugin
    refine h.of_noted hnoted ?_ ?_ (fun hready => absurd (hs ▸ hready) hstate)
      (Or.inl hnotes.appearedAt) hnotes.insertedAt
    · rw [hs, hlistener]
      exact h.failed
    · rw [hs, hlistener]
      exact h.present
  | delivered key =>
    have hmodern : ({ l.plugin with queued := l.plugin.queued.erase key } :
        ContextKitPlugin).Modern := ⟨h.modern.newProtocol, h.modern.defaultNewProtocol⟩
    refine h.of_newSubscribe hmodern h.watcher rfl fun k hk hne => ?_
    exact (Multiset.mem_erase_of_ne hne).2 (h.pendingKeys k hk)
  | forced key =>
    exact h.of_newSubscribe h.modern h.watcher rfl fun k hk _ => h.pendingKeys k hk
  | finished id hprovider =>
    constructor
    · exact h.modern.onFinished id
    · rw [hprovider.pluginState]
      exact h.failed
    · rw [hprovider.pluginState]
      exact h.present
    · rw [hprovider.pluginState, hprovider.toSubscribe]
      exact fun hs k hk => hprovider.queued (h.toSubscribe hs k hk)
    · rw [l.plugin.onFinished_eq id]
      exact h.pendingKeys
    · rw [ContextKitPlugin.onFinished_watchers]
      exact h.appearedAt
    · simpa using h.insertedAt
    · exact h.watcher.onFinished id
  | subscribed key =>
    refine ⟨h.modern, ?_, ?_, fun hs k hk => ?_, h.pendingKeys, h.appearedAt, fun k => ?_,
      h.watcher⟩
    · simpa using h.failed
    · simpa using h.present
    · simp only [Provider.subscribe_pluginState, Provider.mem_subscribe_toSubscribe,
        Provider.mem_subscribe_callQueue] at hs hk ⊢
      rcases hk with hk | ⟨-, hk⟩
      · exact Or.inl (h.toSubscribe hs k hk)
      · exact Or.inr ⟨trivial, hk⟩
    · dsimp only
      split_ifs
      · exact h.insertedAt k
      · rcases eq_or_ne k key with rfl | hne
        · rw [Function.update_self]
        · rw [Function.update_of_ne hne]
          exact h.insertedAt k
  | unsubscribed key =>
    refine ⟨h.modern, ?_, ?_, fun hs k hk => ?_, h.pendingKeys, h.appearedAt, h.insertedAt,
      h.watcher⟩
    · simpa using h.failed
    · simpa using h.present
    · simp only [Provider.unsubscribe_pluginState, Provider.unsubscribe_toSubscribe,
        Finset.mem_erase, Provider.mem_unsubscribe_callQueue] at hs hk ⊢
      exact Or.inl (h.toSubscribe hs k hk.2)

/-! ### Events as moves -/

/-- Some moves without a label. -/
def Moves : Link V → Link V → Prop := Relation.ReflTransGen fun l m => LinkMove l none m

theorem Linked.moves (h : l.Linked) (hm : l.Moves m) : m.Linked := by
  induction hm with
  | refl => exact h
  | tail _ hmove ih => exact linked_move ih hmove

/-- The label of the move an event is, if it has one. -/
def label (l : Link V) : LinkEvent V → Option MoveLabel
  | .subscribe key => some (.subscribe key)
  | .serviceRegistered =>
    if l.listener.servicePresent ≠ .present ∧ l.provider.pluginState = .ready then some .appeared
    else none
  | _ => none

theorem idle_construct (l : Link V) : LinkMove l none l.construct := by
  unfold construct
  split_ifs
  · exact .idle (.refl _) (.refl _) rfl (.refl _)
  · exact .idle ⟨rfl, rfl, rfl, rfl, id⟩ (.refl _) rfl ⟨rfl, rfl⟩

/-- The plugin's slot for an appearing provider, outside of the notification by the bus. -/
theorem move_emit (h : l.Linked) :
    LinkMove l none (l.emit (l.plugin.onProviderAppeared l.listener)) := by
  by_cases hn : l.provider.pluginState = .ready ∨ l.listener.servicePresent = .notPresent
  · obtain ⟨p, hp, heq⟩ := emit_of_not h.modern l.listener hn
    rw [heq]
    exact .idle (.refl _) hp rfl ⟨rfl, rfl⟩
  · rw [not_or] at hn
    obtain ⟨p, hp, heq⟩ := emit_of_ne h.modern hn.1 hn.2
    have hunknown : l.listener.servicePresent = .unknown := by
      cases hl : l.listener.servicePresent with
      | unknown => rfl
      | present => exact absurd (h.present hl) hn.1
      | notPresent => exact absurd hl hn.2
    rw [heq]
    exact .ready hn.1 (Or.inl ⟨rfl, rfl, hunknown⟩) ⟨rfl, rfl, rfl, rfl⟩ hp rfl

theorem moves_flush (order : List String) (h : l.plugin.Modern) :
    l.Moves { l with plugin := l.plugin.flush order } := by
  rw [ContextKitPlugin.flush, if_pos h.newProtocol]
  clear h
  induction order generalizing l with
  | nil => exact .refl
  | cons k order ih =>
    exact .head (.forced k) (ih (l := { l with plugin := l.plugin.newSubscribe k }))

theorem move_finish (l : Link V) (id : ℕ) (value : Option (TimedValue V)) :
    LinkMove l none (l.finish id value) := by
  refine .finished id ?_
  cases l.plugin.watchers[id]? with
  | none => exact .refl _
  | some key =>
    cases value with
    | none => exact .refl _
    | some v =>
      dsimp only
      unfold Provider.onPluginValueChanged
      split_ifs <;> exact ⟨rfl, rfl, rfl, rfl, fun hq => hq⟩

theorem moves_waitFor (h : l.Linked) (key : String) (order : List String)
    (value : Option (TimedValue V)) : l.Moves (l.waitFor key order value) := by
  have hflush := moves_flush order h.modern
  unfold waitFor
  dsimp only
  split
  · exact hflush
  · exact hflush.tail (move_finish _ _ value)

theorem moves_blockUntilReady (h : l.Linked) : l.Moves l.blockUntilReady := by
  have hconstruct := idle_construct l
  exact (Relation.ReflTransGen.single hconstruct).tail (move_emit (linked_move h hconstruct))

/-- The service is registered: the name appears, unless it was there. -/
theorem move_serviceRegistered (h : l.Linked) (hstep : l.step .serviceRegistered = some m) :
    LinkMove l (l.label .serviceRegistered) m := by
  simp only [step, Option.ite_none_right_eq_some] at hstep
  obtain ⟨-, hstep⟩ := hstep
  unfold label
  by_cases hl : l.listener.servicePresent = .present
  · rw [DBusNameListener.setServicePresent, if_neg (not_not_intro hl)] at hstep
    cases hstep
    rw [if_neg fun hc => hc.1 hl]
    exact .idle (.refl _) (.refl _) rfl (.refl _)
  · rw [DBusNameListener.setServicePresent, if_pos hl] at hstep
    cases hstep
    let l' : Link V := { l with listener := ⟨.present⟩, appearedAt := l.plugin.watchers.length }
    by_cases hs : l.provider.pluginState = .ready
    · obtain ⟨q, hq, heq⟩ := emit_of_not (l := l') h.modern l'.listener (Or.inl hs)
      rw [if_pos ⟨hl, hs⟩]
      exact heq ▸ .appeared hs hl rfl hq rfl rfl rfl
    · have hpresent : l'.listener.servicePresent ≠ .notPresent := ServicePresence.noConfusion
      obtain ⟨q, hq, heq⟩ := emit_of_ne (l := l') h.modern hs hpresent
      rw [if_neg fun hc => hs hc.2]
      exact heq ▸ .ready hs (Or.inr ⟨rfl, rfl⟩) ⟨rfl, rfl, rfl, rfl⟩ hq rfl

/-- The service is unregistered: the plugin fails, unless the name was known to be gone. -/
theorem move_serviceUnregistered (h : l.Linked) (hstep : l.step .serviceUnregistered = some m) :
    LinkMove l none m := by
  simp only [step, Option.ite_none_right_eq_some] at hstep
  obtain ⟨-, hstep⟩ := hstep
  by_cases hl : l.listener.servicePresent = .notPresent
  · rw [DBusNameListener.setServiceGone, if_neg (not_not_intro hl)] at hstep
    cases hstep
    exact .idle (.refl _) (.refl _) rfl (.refl _)
  · rw [DBusNameListener.setServiceGone, if_pos hl] at hstep
    cases hstep
    exact .failed rfl ⟨rfl, rfl, rfl, rfl⟩ (ContextKitPlugin.noted_reset h.modern) ⟨rfl, rfl⟩

/-- `handleSubscribes` is delivered. -/
theorem move_handleSubscribes (h : l.Linked) (hstep : l.step .handleSubscribes = some m) :
    LinkMove l none m := by
  simp only [step, Option.ite_none_right_eq_some, Option.some.injEq] at hstep
  obtain ⟨-, rfl⟩ := hstep
  have hdequeue : (l.provider.dequeue .handleSubscribes).pluginState = l.provider.pluginState := rfl
  cases hs : l.provider.pluginState with
  | ready =>
    rw [hs] at hdequeue
    obtain ⟨q, hq, heq⟩ := carryOut_handled h.modern hdequeue
    rw [heq]
    exact .handled hs ⟨hs, rfl, rfl, rfl⟩ hq rfl ⟨rfl, rfl⟩
  | failed =>
    rw [hs] at hdequeue
    rw [Provider.handleSubscribes_failed _ hdequeue]
    exact .handledNot (by simp [hs]) ⟨rfl, rfl⟩ rfl rfl ⟨rfl, rfl⟩
  | initializing =>
    rw [hs] at hdequeue
    rw [Provider.handleSubscribes_initializing _ hdequeue]
    exact .handledNot (by simp [hs]) ⟨rfl, rfl⟩ rfl rfl ⟨rfl, rfl⟩

/-- **Every event is one labelled move, or some moves without a label.** -/
theorem moves_of_step (h : l.Linked) {e : LinkEvent V} (hstep : l.step e = some m) :
    (∃ lab, l.label e = some lab ∧ LinkMove l (some lab) m) ∨ l.label e = none ∧ l.Moves m := by
  cases e with
  | constructPlugin =>
    simp only [step, Option.ite_none_right_eq_some, Option.some.injEq] at hstep
    obtain ⟨-, rfl⟩ := hstep
    have hdequeue : LinkMove l none { l with provider := l.provider.dequeue .constructPlugin } :=
      .idle ⟨rfl, rfl, rfl, rfl, fun hq => by simpa [Provider.dequeue] using hq⟩ (.refl _) rfl
        ⟨rfl, rfl⟩
    exact Or.inr ⟨rfl, .tail (.single hdequeue) (idle_construct _)⟩
  | providerAppeared =>
    simp only [step, Option.ite_none_right_eq_some, Option.some.injEq] at hstep
    obtain ⟨-, rfl⟩ := hstep
    have hdequeue : LinkMove l none { l with appearedQueued := false } :=
      .idle (.refl _) (.refl _) rfl ⟨rfl, rfl⟩
    exact Or.inr ⟨rfl, .tail (.single hdequeue) (move_emit (linked_move h hdequeue))⟩
  | handleSubscribes => exact Or.inr ⟨rfl, .single (move_handleSubscribes h hstep)⟩
  | newSubscribe key =>
    simp only [step, Option.ite_none_right_eq_some, Option.some.injEq] at hstep
    obtain ⟨-, rfl⟩ := hstep
    exact Or.inr ⟨rfl, .single (.delivered key)⟩
  | subscribe key =>
    simp only [step, Option.some.injEq] at hstep
    subst hstep
    exact Or.inl ⟨.subscribe key, rfl, .subscribed key⟩
  | unsubscribe key =>
    simp only [step, Option.some.injEq] at hstep
    subst hstep
    exact Or.inr ⟨rfl, .single (.unsubscribed key)⟩
  | serviceRegistered =>
    have hmove := move_serviceRegistered h hstep
    cases hlabel : l.label .serviceRegistered with
    | none => exact Or.inr ⟨rfl, .single (hlabel ▸ hmove)⟩
    | some lab => exact Or.inl ⟨lab, rfl, hlabel ▸ hmove⟩
  | serviceUnregistered => exact Or.inr ⟨rfl, .single (move_serviceUnregistered h hstep)⟩
  | reply id value =>
    simp only [step, Option.ite_none_right_eq_some, Option.some.injEq] at hstep
    obtain ⟨-, rfl⟩ := hstep
    exact Or.inr ⟨rfl, .single (move_finish l id value)⟩
  | blockUntilSubscribed key order value =>
    have hready := moves_blockUntilReady h
    simp only [step] at hstep
    split_ifs at hstep
    · cases hstep
      exact Or.inr ⟨rfl, hready.trans (moves_waitFor (h.moves hready) key order value)⟩
    · cases hstep
      exact Or.inr ⟨rfl, hready⟩

theorem linked_step (h : l.Linked) {e : LinkEvent V} (hstep : l.step e = some m) : m.Linked := by
  rcases moves_of_step h hstep with ⟨lab, -, hmove⟩ | ⟨-, hmoves⟩
  · exact linked_move h hmove
  · exact h.moves hmoves

end Link

end ContextSubscriber
