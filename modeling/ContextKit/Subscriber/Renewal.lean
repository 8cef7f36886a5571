import ContextKit.Subscriber.LinkMoves

/-!
# Renewing the subscriptions when the provider appears

When the bus name appears, every key that should be subscribed needs a `Subscribe` call to the new
owner.  The plugin emits `ready` then, and the provider asks for all keys again, but only if it was
not in the ready state already.  A plugin that has never seen its provider is in that state: it is
ready before anything is known about the name.

`Renewed` follows a key from the signal to the call, `LosesRenewal` describes the events after which
a key is on no way to a call, and `renewed_of_quiet` says that apart from those every key gets
there.
-/

namespace ContextSubscriber
open ContextKit Transition

namespace Link

variable {V : Type}

/-- The `Subscribe` calls since the name last appeared. -/
def callsSinceAppeared (l : Link V) : List String := l.plugin.watchers.drop l.appearedAt

/-- `Subscribe` has been called for the key since the name last appeared, or it will be as soon as
the events that are queued are delivered. -/
def Renewed (l : Link V) (key : String) : Prop :=
  key ∈ l.provider.toSubscribe ∨ key ∈ l.plugin.pendingKeys ∨ key ∈ l.callsSinceAppeared

/-- While the name is there, every key that should be subscribed is renewed. -/
def Renewing (l : Link V) : Prop :=
  l.listener.servicePresent = .present → ∀ k ∈ l.provider.subscribedKeys, l.Renewed k

/-- No event is queued. -/
structure Quiet (l : Link V) : Prop where
  appearedQueued : l.appearedQueued = false
  callQueue : l.provider.callQueue = ∅
  queued : l.plugin.queued = 0

/-- The events that lose the renewal of a key: the name appears to a provider that is ready, and the
key is not scheduled or put off; or a subscription does nothing but cancel an unsubscription, and
nothing has been sent since the name appeared. -/
def LosesRenewal (l : Link V) : LinkEvent V → Prop
  | .serviceRegistered =>
    l.listener.servicePresent ≠ .present ∧ l.provider.pluginState = .ready ∧
      ∃ k ∈ l.provider.subscribedKeys, k ∉ l.provider.toSubscribe ∧ k ∉ l.plugin.pendingKeys
  | .subscribe key =>
    l.listener.servicePresent = .present ∧ key ∈ l.provider.toUnsubscribe ∧ ¬ l.Renewed key
  | _ => False

theorem renewing_init : (init : Link V).Renewing := by
  intro hpresent
  cases hpresent

variable {l m : Link V}

/-! ### One move -/

/-- A key is renewed as before if it is still scheduled and the plugin has noted more keys. -/
theorem Renewed.noted {keys : Finset String} {k : String} (h : l.Renewed k)
    (hplugin : l.plugin.Noted keys m.plugin) (happeared : m.appearedAt = l.appearedAt)
    (hscheduled : k ∈ l.provider.toSubscribe → k ∈ m.provider.toSubscribe ∨ k ∈ keys) :
    m.Renewed k := by
  unfold Renewed callsSinceAppeared
  rw [hplugin.pendingKeys, hplugin.watchers, happeared, Finset.mem_union]
  rcases h with h | h | h
  · rcases hscheduled h with h | h
    · exact Or.inl h
    · exact Or.inr (Or.inl (Or.inl h))
  · exact Or.inr (Or.inl (Or.inr h))
  · exact Or.inr (Or.inr h)

/-- Making a call that was put off keeps every key renewed. -/
theorem Renewed.newSubscribe {k : String} (h : l.Renewed k) (hl : l.Linked) {p : ContextKitPlugin}
    (hpending : p.pendingKeys = l.plugin.pendingKeys) (hwatchers : p.watchers = l.plugin.watchers)
    (key : String) : Renewed { l with plugin := p.newSubscribe key } k := by
  unfold Renewed callsSinceAppeared
  rw [ContextKitPlugin.newSubscribe_pendingKeys, ContextKitPlugin.newSubscribe_watchers, hpending,
    hwatchers, Finset.mem_erase]
  have happend : ∀ ks : List String, (l.plugin.watchers ++ ks).drop l.appearedAt =
      l.callsSinceAppeared ++ ks := fun ks => List.drop_append_of_le_length hl.appearedAt
  rcases h with h | h | h
  · exact Or.inl h
  · rcases eq_or_ne k key with rfl | hne
    · rw [if_pos h, happend]
      exact Or.inr (Or.inr (by simp))
    · exact Or.inr (Or.inl ⟨hne, h⟩)
  · refine Or.inr (Or.inr ?_)
    split_ifs
    · rw [happend]
      exact List.mem_append_left _ h
    · exact h

/-- The moves without a label keep every key renewed. -/
theorem renewing_move (hl : l.Linked) (h : l.Renewing) (hmove : LinkMove l none m) :
    m.Renewing := by
  intro hpresent k hk
  cases hmove with
  | idle hprovider hplugin hlistener hnotes =>
    rw [hlistener] at hpresent
    rw [hprovider.subscribedKeys] at hk
    refine (h hpresent k hk).noted hplugin hnotes.appearedAt fun hts => Or.inl ?_
    rwa [hprovider.toSubscribe]
  | ready hstate hpresence hprovider hplugin hinserted =>
    -- Every key is put off, whatever was done for it before.
    refine Or.inr (Or.inl ?_)
    rw [hprovider.2.2.2] at hk
    rw [hplugin.pendingKeys]
    exact Finset.mem_union_left _ hk
  | failed hlistener hprovider hplugin hnotes =>
    rw [hlistener] at hpresent
    cases hpresent
  | handled hstate hprovider hplugin hlistener hnotes =>
    rw [hlistener] at hpresent
    rw [hprovider.2.2.2] at hk
    exact (h hpresent k hk).noted hplugin hnotes.appearedAt Or.inr
  | handledNot hstate hprovider hplugin hlistener hnotes =>
    rw [hlistener] at hpresent
    exact absurd (hl.present hpresent) hstate
  | delivered key =>
    exact (h hpresent k hk).newSubscribe hl
      (p := { l.plugin with queued := l.plugin.queued.erase key }) rfl rfl key
  | forced key => exact (h hpresent k hk).newSubscribe hl rfl rfl key
  | finished id hprovider =>
    rw [hprovider.subscribedKeys] at hk
    have hr := h hpresent k hk
    unfold Renewed callsSinceAppeared at hr ⊢
    rw [hprovider.toSubscribe, l.plugin.onFinished_eq id]
    exact hr
  | unsubscribed key =>
    rw [Provider.unsubscribe_subscribedKeys, Finset.mem_erase] at hk
    refine (h hpresent k hk.2).imp_left fun hts => ?_
    rw [Provider.unsubscribe_toSubscribe, Finset.mem_erase]
    exact ⟨hk.1, hts⟩

theorem renewing_moves (hl : l.Linked) (h : l.Renewing) (hmoves : l.Moves m) : m.Renewing := by
  induction hmoves with
  | refl => exact h
  | tail hmoves hmove ih => exact renewing_move (hl.moves hmoves) ih hmove

/-- The name appears to a provider that is ready: only what is scheduled or put off is renewed. -/
theorem renewing_appeared_iff (hmove : LinkMove l (some .appeared) m) :
    m.Renewing ↔ ∀ k ∈ l.provider.subscribedKeys,
      k ∈ l.provider.toSubscribe ∨ k ∈ l.plugin.pendingKeys := by
  cases hmove with
  | appeared hstate hunknown hprovider hplugin hlistener hinserted happeared =>
    have hnone : m.callsSinceAppeared = [] := by
      rw [callsSinceAppeared, happeared, hplugin.watchers, List.drop_length]
    simp [Renewing, Renewed, hlistener, hprovider, hplugin.pendingKeys, hnone]

/-- A subscription renews its key, unless it just cancels an unsubscription. -/
theorem renewing_subscribed_iff {key : String} (h : l.Renewing)
    (hmove : LinkMove l (some (.subscribe key)) m) :
    m.Renewing ↔
      (l.listener.servicePresent = .present → key ∈ l.provider.toUnsubscribe → l.Renewed key) := by
  cases hmove with
  | subscribed =>
    simp only [Renewing, Renewed, callsSinceAppeared, Provider.subscribe_subscribedKeys,
      Provider.mem_subscribe_toSubscribe, Finset.mem_insert]
    constructor
    · intro hm hpresent hunsub
      rcases hm hpresent key (Or.inl rfl) with (hts | ⟨-, hno⟩) | hr
      · exact Or.inl hts
      · exact absurd hunsub hno
      · exact Or.inr hr
    · intro hkey hpresent k hk
      by_cases hs : k ∈ l.provider.subscribedKeys
      · exact (h hpresent k hs).imp_left Or.inl
      · obtain rfl := hk.resolve_right hs
        by_cases hunsub : k ∈ l.provider.toUnsubscribe
        · exact (hkey hpresent hunsub).imp_left Or.inl
        · exact Or.inl (Or.inr ⟨rfl, hunsub⟩)

/-! ### Runs -/

/-- **An event keeps the subscriptions renewed exactly if it is none of the losing ones.** -/
theorem renewing_step_iff (hl : l.Linked) (h : l.Renewing) {e : LinkEvent V}
    (hstep : l.step e = some m) : m.Renewing ↔ ¬ l.LosesRenewal e := by
  rcases moves_of_step hl hstep with ⟨lab, hlabel, hmove⟩ | ⟨hlabel, hmoves⟩
  · cases e with
    | subscribe key =>
      cases hlabel
      rw [renewing_subscribed_iff h hmove]
      simp [LosesRenewal]
    | serviceRegistered =>
      rw [label, Option.ite_none_right_eq_some] at hlabel
      obtain ⟨⟨hunknown, hready⟩, hlab⟩ := hlabel
      cases hlab
      rw [renewing_appeared_iff hmove]
      simp [LosesRenewal, hunknown, hready, or_iff_not_imp_left]
    | _ => cases hlabel
  · refine iff_of_true (renewing_moves hl h hmoves) ?_
    cases e with
    | subscribe key => cases hlabel
    | serviceRegistered =>
      rintro ⟨hunknown, hready, -⟩
      simp [label, hunknown, hready] at hlabel
    | _ => exact not_false

/-- What is on its way to a call is queued, so when nothing is, the calls have been made. -/
theorem Renewed.of_quiet {k : String} (h : l.Renewed k) (hl : l.Linked) (hquiet : l.Quiet)
    (hready : l.provider.pluginState = .ready) : k ∈ l.callsSinceAppeared := by
  rcases h with h | h | h
  · have hqueued := hl.toSubscribe hready k h
    simp [hquiet.callQueue] at hqueued
  · have hqueued := hl.pendingKeys k h
    simp [hquiet.queued] at hqueued
  · exact h

/-- **In a run without a losing event, every key that should be subscribed has been asked for since
the name last appeared**, whenever no event is queued and the name is there. -/
theorem renewed_of_quiet {es : List (LinkEvent V)}
    (hes : Along step (fun l e => ¬ l.LosesRenewal e) init es) (hrun : run step init es = some l)
    (hquiet : l.Quiet) (hpresent : l.listener.servicePresent = .present) :
    ∀ k ∈ l.provider.subscribedKeys, k ∈ l.plugin.watchers.drop l.appearedAt := by
  have hl : l.Linked := run_inv (fun _ _ _ hl hstep => linked_step hl hstep) linked_init hrun
  have hr : l.Renewing :=
    run_inv_along_over (fun _ _ _ hl hstep => linked_step hl hstep)
      (fun _ _ _ hl hr he hstep => (renewing_step_iff hl hr hstep).2 he)
      linked_init renewing_init hes hrun
  exact fun k hk => (hr hpresent k hk).of_quiet hl hquiet (hl.present hpresent)

/-- The provider starts after its subscriber: the call that was made without it failed, and when the
name appears no other call is made. -/
def startsLate : List (LinkEvent (Option ℤ)) :=
  [.constructPlugin, .providerAppeared, .subscribe "Screen.TopEdge", .handleSubscribes,
    .newSubscribe "Screen.TopEdge", .reply 0 none, .serviceRegistered]

theorem exists_not_renewed :
    ∃ l, run step init startsLate = some l ∧ l.Quiet ∧
      l.listener.servicePresent = .present ∧ "Screen.TopEdge" ∈ l.provider.subscribedKeys ∧
      "Screen.TopEdge" ∉ l.plugin.watchers.drop l.appearedAt := by
  refine ⟨_, rfl, ⟨rfl, ?_, ?_⟩, rfl, ?_, ?_⟩ <;> decide

/-- The same, but the provider had been seen to go away before it starts. -/
def startsAgain : List (LinkEvent (Option ℤ)) :=
  [.constructPlugin, .providerAppeared, .subscribe "Screen.TopEdge", .handleSubscribes,
    .newSubscribe "Screen.TopEdge", .reply 0 none, .serviceUnregistered, .serviceRegistered,
    .newSubscribe "Screen.TopEdge"]

theorem renewed_of_quiet_startsAgain :
    ∃ l, run step init startsAgain = some l ∧ "Screen.TopEdge" ∈ l.provider.subscribedKeys ∧
      ∀ k ∈ l.provider.subscribedKeys, k ∈ l.plugin.watchers.drop l.appearedAt := by
  have hes : Along step (fun (l : Link (Option ℤ)) e => ¬ l.LosesRenewal e) init startsAgain := by
    refine .cons not_false rfl <| .cons not_false rfl <| .cons ?_ rfl <| .cons not_false rfl <|
      .cons not_false rfl <| .cons not_false rfl <| .cons not_false rfl <| .cons ?_ rfl <|
      .cons not_false rfl trivial
    · rintro ⟨hpresent, -⟩
      cases hpresent
    · rintro ⟨-, hready, -⟩
      cases hready
  refine ⟨_, rfl, by decide, renewed_of_quiet hes rfl ⟨rfl, ?_, ?_⟩ rfl⟩ <;> decide

end Link

end ContextSubscriber
