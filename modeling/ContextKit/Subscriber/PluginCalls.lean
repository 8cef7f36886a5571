import ContextKit.Subscriber.ContextKitPlugin
import ContextKit.Transition.Run

/-!
# The calls of the plugin on D-Bus

What the plugin was last asked to do about a key should be what it last did on D-Bus.  A `subscribe`
is put off and an `unsubscribe` is not, and the latter does not look at what was put off: a key that
is unsubscribed while it is still in `pendingKeys` is unsubscribed on the bus first and subscribed
after.  `UnsubscribedEarly` says that this is how the last request went, and it is the only way to
get the two apart.
-/

namespace ContextSubscriber
open Transition

/-- A request made of the plugin, the delivery of a queued call, or a reply. -/
inductive RequestEvent
  | subscribe (keys : Finset String)
  | unsubscribe (keys : Finset String)
  | blockUntilSubscribed (key : String) (order : List String)
  | newSubscribe (key : String)
  | reply (id : ℕ)

/-- What is asked for `key`: to subscribe (`true`), to unsubscribe (`false`), or nothing. -/
def RequestEvent.requestFor (key : String) : RequestEvent → Option Bool
  | .subscribe keys => if key ∈ keys then some true else none
  | .unsubscribe keys => if key ∈ keys then some false else none
  | _ => none

/-- The last request made for `key`. -/
def lastRequest (es : List RequestEvent) (key : String) : Option Bool :=
  (es.filterMap (RequestEvent.requestFor key)).getLast?

namespace ContextKitPlugin

/-- One event.  The order in which `blockUntilSubscribed` goes through the keys that were put off is
up to the set. -/
def step (p : ContextKitPlugin) : RequestEvent → Option ContextKitPlugin
  | .subscribe keys => some (p.subscribe keys)
  | .unsubscribe keys => some (p.unsubscribe keys)
  | .blockUntilSubscribed key order =>
    if order.Nodup ∧ order.toFinset = p.pendingKeys then some (p.blockUntilSubscribed key order)
    else none
  | .newSubscribe key => if key ∈ p.queued then some (p.deliverNewSubscribe key) else none
  | .reply id => if id ∈ p.unfinished then some (p.onFinished id) else none

/-- On D-Bus and in its own records the plugin did for `key` what `request` says: the last call on
its object, the connection of its signal, and the entry of its path. -/
structure Told (p : ContextKitPlugin) (key : String) (request : Option Bool) : Prop where
  call : (p.calls (keyToPath key)).getLast? =
    request.map fun b => if b then Member.subscribe else Member.unsubscribe
  connected : keyToPath key ∈ p.connections ↔ request = some true
  entry : p.objectPathToKey (keyToPath key) = if request = some true then some key else none

/-- The last request for `key` was to unsubscribe, and it was made while the subscription was still
put off. -/
def UnsubscribedEarly (es : List RequestEvent) (key : String) : Prop :=
  ∃ es₁ e es₂ p, es = es₁ ++ e :: es₂ ∧ run step init es₁ = some p ∧
    e.requestFor key = some false ∧ key ∈ p.pendingKeys ∧ ∀ e' ∈ es₂, e'.requestFor key = none

/-! ### One more event -/

theorem lastRequest_snoc (es : List RequestEvent) (e : RequestEvent) (key : String) :
    lastRequest (es ++ [e]) key = (e.requestFor key).or (lastRequest es key) := by
  unfold lastRequest
  rw [List.filterMap_append, List.getLast?_append]
  congr 1
  cases h : e.requestFor key <;> simp [h]

theorem unsubscribedEarly_snoc {es : List RequestEvent} {p : ContextKitPlugin}
    (hrun : run step init es = some p) (e : RequestEvent) (key : String) :
    UnsubscribedEarly (es ++ [e]) key ↔
      e.requestFor key = some false ∧ key ∈ p.pendingKeys ∨
        e.requestFor key = none ∧ UnsubscribedEarly es key := by
  constructor
  · rintro ⟨es₁, e₀, es₂, q, heq, hq, he, hpend, hlast⟩
    rcases List.eq_nil_or_concat es₂ with rfl | ⟨es₂, x, rfl⟩
    · obtain ⟨rfl, hsing⟩ := List.append_inj' heq rfl
      obtain rfl : e = e₀ := by simpa using hsing
      obtain rfl : p = q := Option.some.inj (hrun.symm.trans hq)
      exact Or.inl ⟨he, hpend⟩
    · rw [List.concat_eq_append, ← List.cons_append, ← List.append_assoc] at heq
      obtain ⟨rfl, hsing⟩ := List.append_inj' heq rfl
      obtain rfl : e = x := by simpa using hsing
      refine Or.inr ⟨hlast e (by simp), es₁, e₀, es₂, q, rfl, hq, he, hpend, ?_⟩
      exact fun e' he' => hlast e' (by simp [he'])
  · rintro (⟨he, hpend⟩ | ⟨he, es₁, e₀, es₂, q, rfl, hq, he₀, hpend, hlast⟩)
    · exact ⟨es, e, [], p, rfl, hrun, he, hpend, by simp⟩
    · refine ⟨es₁, e₀, es₂ ++ [e], q, by simp, hq, he₀, hpend, ?_⟩
      simpa [or_imp, forall_and, he] using hlast

/-! ### The account of one key -/

/-- What the plugin owes to `key`, given its last request and whether that came early. -/
structure Accounted (p : ContextKitPlugin) (key : String) (last : Option Bool) (early : Prop) :
    Prop where
  queued : key ∈ p.pendingKeys → key ∈ p.queued
  early_last : early → last = some false
  pending : key ∈ p.pendingKeys → last = some true ∨ early
  told : key ∉ p.pendingKeys → (early → p.Told key (some true)) ∧ (¬ early → p.Told key last)

section

variable {p q : ContextKitPlugin} {key : String} {last : Option Bool} {early : Prop}

theorem Told.congr {request : Option Bool} (h : p.Told key request)
    (h₁ : q.calls (keyToPath key) = p.calls (keyToPath key))
    (h₂ : keyToPath key ∈ q.connections ↔ keyToPath key ∈ p.connections)
    (h₃ : q.objectPathToKey (keyToPath key) = p.objectPathToKey (keyToPath key)) :
    q.Told key request :=
  ⟨by rw [h₁, h.call], by rw [h₂, h.connected], by rw [h₃, h.entry]⟩

/-- What the loop of `unsubscribe` does for a key of the set. -/
theorem told_unsubscribe (hnew : p.newProtocol = true) {keys : Finset String} (hkey : key ∈ keys) :
    (p.unsubscribe keys).Told key (some false) := by
  have hpath : keyToPath key ∈ keys.val.map keyToPath := Multiset.mem_map_of_mem _ hkey
  have hcount : (keys.val.map keyToPath).count (keyToPath key) ≠ 0 := Multiset.count_ne_zero.2 hpath
  rw [ContextKitPlugin.unsubscribe, if_pos hnew, foldl_unsubscribeKey]
  refine ⟨?_, ?_, if_pos hpath⟩
  · simp [List.getLast?_append, List.getLast?_replicate, hcount]
  · simp only [Finset.mem_filter, hpath, not_true, and_false, false_iff]
    decide

theorem Told.unsubscribe {request : Option Bool} (h : p.Told key request)
    (hnew : p.newProtocol = true) {keys : Finset String}
    (hpath : ∀ k ∈ keys, keyToPath k ≠ keyToPath key) :
    (p.unsubscribe keys).Told key request := by
  have hnot : keyToPath key ∉ keys.val.map keyToPath := by
    rw [Multiset.mem_map]
    rintro ⟨k, hk, heq⟩
    exact hpath k hk heq
  rw [ContextKitPlugin.unsubscribe, if_pos hnew, foldl_unsubscribeKey]
  refine h.congr ?_ ?_ (if_neg hnot)
  · simp [Multiset.count_eq_zero.2 hnot]
  · rw [Finset.mem_filter]
    exact and_iff_left hnot

theorem told_newSubscribe (hkey : key ∈ p.pendingKeys) :
    (p.newSubscribe key).Told key (some true) := by
  rw [ContextKitPlugin.newSubscribe, if_pos hkey]
  exact ⟨by simp, by simp, by simp⟩

theorem Told.newSubscribe {request : Option Bool} (h : p.Told key request) {k : String}
    (hpath : keyToPath key ≠ keyToPath k) : (p.newSubscribe k).Told key request := by
  unfold ContextKitPlugin.newSubscribe
  split_ifs
  · refine h.congr ?_ ?_ ?_ <;> simp [hpath]
  · exact h

theorem accounted_subscribe (hnew : p.newProtocol = true) {keys : Finset String}
    (hkey : key ∈ keys) : (p.subscribe keys).Accounted key (some true) False := by
  rw [p.subscribe_of_newProtocol hnew]
  refine ⟨fun _ => ?_, False.elim, fun _ => Or.inl rfl, fun hn => ?_⟩
  · exact Multiset.mem_add.2 (Or.inl hkey)
  · exact absurd (Finset.mem_union_left _ hkey) hn

theorem Accounted.subscribe (h : p.Accounted key last early) (hnew : p.newProtocol = true)
    {keys : Finset String} (hkey : key ∉ keys) : (p.subscribe keys).Accounted key last early := by
  rw [p.subscribe_of_newProtocol hnew]
  have hmem : key ∈ keys ∪ p.pendingKeys ↔ key ∈ p.pendingKeys := by simp [hkey]
  refine ⟨fun hk => ?_, h.early_last, fun hk => h.pending (hmem.1 hk), fun hk => ?_⟩
  · exact Multiset.mem_add.2 (Or.inr (h.queued (hmem.1 hk)))
  · obtain ⟨h₁, h₂⟩ := h.told (mt hmem.2 hk)
    exact ⟨fun he => (h₁ he).congr rfl .rfl rfl, fun he => (h₂ he).congr rfl .rfl rfl⟩

/-- `Unsubscribe` is called at once, whatever was put off. -/
theorem Accounted.unsubscribe_self (h : p.Accounted key last early) (hnew : p.newProtocol = true)
    {keys : Finset String} (hkey : key ∈ keys) :
    (p.unsubscribe keys).Accounted key (some false) (key ∈ p.pendingKeys) := by
  constructor
  · rw [p.unsubscribe_pendingKeys hnew, p.unsubscribe_queued hnew]
    exact h.queued
  · exact fun _ => rfl
  · rw [p.unsubscribe_pendingKeys hnew]
    exact Or.inr
  · rw [p.unsubscribe_pendingKeys hnew]
    exact fun hn => ⟨fun hk => absurd hk hn, fun _ => told_unsubscribe hnew hkey⟩

theorem Accounted.unsubscribe (h : p.Accounted key last early) (hnew : p.newProtocol = true)
    {keys : Finset String} (hpath : ∀ k ∈ keys, keyToPath k ≠ keyToPath key) :
    (p.unsubscribe keys).Accounted key last early := by
  constructor
  · rw [p.unsubscribe_pendingKeys hnew, p.unsubscribe_queued hnew]
    exact h.queued
  · exact h.early_last
  · rw [p.unsubscribe_pendingKeys hnew]
    exact h.pending
  · rw [p.unsubscribe_pendingKeys hnew]
    intro hk
    obtain ⟨h₁, h₂⟩ := h.told hk
    exact ⟨fun he => (h₁ he).unsubscribe hnew hpath, fun he => (h₂ he).unsubscribe hnew hpath⟩

/-- `newSubscribe` settles the account of its own key and leaves the others alone. -/
theorem Accounted.newSubscribe (h : p.Accounted key last early) {k : String}
    (hpath : k ∈ p.pendingKeys → k ≠ key → keyToPath k ≠ keyToPath key) :
    (p.newSubscribe k).Accounted key last early := by
  by_cases hk : k ∈ p.pendingKeys
  swap
  · rwa [p.newSubscribe_of_notMem hk]
  rcases eq_or_ne k key with rfl | hne
  · have hnot : k ∉ (p.newSubscribe k).pendingKeys := by simp
    refine ⟨fun hk' => absurd hk' hnot, h.early_last, fun hk' => absurd hk' hnot, fun _ => ?_⟩
    refine ⟨fun _ => told_newSubscribe hk, fun he => ?_⟩
    rw [(h.pending hk).resolve_right he]
    exact told_newSubscribe hk
  · have hmem : key ∈ (p.newSubscribe k).pendingKeys ↔ key ∈ p.pendingKeys := by
      simp [hne.symm]
    have hpath := (hpath hk hne).symm
    constructor
    · rw [hmem, newSubscribe_queued]
      exact h.queued
    · exact h.early_last
    · rw [hmem]
      exact h.pending
    · rw [hmem]
      intro hk'
      obtain ⟨h₁, h₂⟩ := h.told hk'
      exact ⟨fun he => (h₁ he).newSubscribe hpath, fun he => (h₂ he).newSubscribe hpath⟩

/-- A delivery takes its key off the queue, and no other account needs that. -/
theorem Accounted.deliverNewSubscribe (h : p.Accounted key last early) {k : String}
    (hpath : k ∈ p.pendingKeys → k ≠ key → keyToPath k ≠ keyToPath key) :
    (p.deliverNewSubscribe k).Accounted key last early := by
  have hnew := h.newSubscribe hpath
  have hpending : (p.deliverNewSubscribe k).pendingKeys = p.pendingKeys.erase k :=
    newSubscribe_pendingKeys _ k
  have hqueued : (p.deliverNewSubscribe k).queued = p.queued.erase k := newSubscribe_queued _ k
  have hpending' : (p.newSubscribe k).pendingKeys = p.pendingKeys.erase k :=
    newSubscribe_pendingKeys _ k
  constructor
  · rw [hpending, hqueued, Finset.mem_erase]
    exact fun ⟨hne, hk⟩ => (Multiset.mem_erase_of_ne hne).2 (h.queued hk)
  · exact h.early_last
  · rw [hpending, ← hpending']
    exact hnew.pending
  · rw [hpending, ← hpending']
    intro hk
    obtain ⟨h₁, h₂⟩ := hnew.told hk
    have hframe : ∀ request, (p.newSubscribe k).Told key request →
        (p.deliverNewSubscribe k).Told key request := by
      unfold ContextKitPlugin.deliverNewSubscribe ContextKitPlugin.newSubscribe
      dsimp only
      split_ifs <;> exact fun _ ht => ht.congr rfl .rfl rfl
    exact ⟨fun he => hframe _ (h₁ he), fun he => hframe _ (h₂ he)⟩

theorem Accounted.onFinished (h : p.Accounted key last early) (id : ℕ) :
    (p.onFinished id).Accounted key last early := by
  rw [p.onFinished_eq id]
  refine ⟨h.queued, h.early_last, h.pending, fun hk => ?_⟩
  obtain ⟨h₁, h₂⟩ := h.told hk
  exact ⟨fun he => (h₁ he).congr rfl .rfl rfl, fun he => (h₂ he).congr rfl .rfl rfl⟩

/-- The plugin speaks the new protocol, and what it put off are keys of `S`. -/
structure Uses (p : ContextKitPlugin) (S : Set String) : Prop where
  newProtocol : p.newProtocol = true
  pendingKeys : ∀ k ∈ p.pendingKeys, k ∈ S

variable {S : Set String}

theorem Uses.newSubscribe (h : p.Uses S) (k : String) : (p.newSubscribe k).Uses S where
  newProtocol := by rw [newSubscribe_newProtocol, h.newProtocol]
  pendingKeys l hl := by
    rw [newSubscribe_pendingKeys] at hl
    exact h.pendingKeys l (Finset.mem_of_mem_erase hl)

theorem uses_flush (h : p.Uses S) (order : List String) : (p.flush order).Uses S := by
  rw [flush, if_pos h.newProtocol]
  induction order generalizing p with
  | nil => exact h
  | cons k order ih => exact ih (h.newSubscribe k)

theorem Accounted.flush (hS : Set.InjOn keyToPath S) (hkey : key ∈ S) (hp : p.Uses S)
    (h : p.Accounted key last early) (order : List String) :
    (p.flush order).Accounted key last early := by
  rw [ContextKitPlugin.flush, if_pos hp.newProtocol]
  induction order generalizing p with
  | nil => exact h
  | cons k order ih =>
    refine ih (hp.newSubscribe k) (h.newSubscribe fun hk hne heq => hne ?_)
    exact hS (hp.pendingKeys k hk) hkey heq

theorem Uses.onFinished (h : p.Uses S) (id : ℕ) : (p.onFinished id).Uses S := by
  rw [p.onFinished_eq id]
  exact ⟨h.newProtocol, h.pendingKeys⟩

theorem uses_step (hp : p.Uses S) {e : RequestEvent} (he : ∀ k, e.requestFor k ≠ none → k ∈ S)
    (hstep : p.step e = some q) : q.Uses S := by
  cases e with
  | subscribe keys =>
    cases hstep
    rw [p.subscribe_of_newProtocol hp.newProtocol]
    refine ⟨hp.newProtocol, fun k hk => ?_⟩
    rcases Finset.mem_union.1 hk with hk | hk
    · exact he k (by simp [RequestEvent.requestFor, hk])
    · exact hp.pendingKeys k hk
  | unsubscribe keys =>
    cases hstep
    rw [p.unsubscribe_of_newProtocol hp.newProtocol]
    exact ⟨hp.newProtocol, hp.pendingKeys⟩
  | blockUntilSubscribed k order =>
    simp only [step, Option.ite_none_right_eq_some, Option.some.injEq] at hstep
    obtain ⟨-, rfl⟩ := hstep
    unfold blockUntilSubscribed
    split
    · exact uses_flush hp order
    · exact (uses_flush hp order).onFinished _
  | newSubscribe k =>
    simp only [step, Option.ite_none_right_eq_some, Option.some.injEq] at hstep
    obtain ⟨-, rfl⟩ := hstep
    have hp' : ({ p with queued := p.queued.erase k } : ContextKitPlugin).Uses S :=
      ⟨hp.newProtocol, hp.pendingKeys⟩
    exact hp'.newSubscribe k
  | reply id =>
    simp only [step, Option.ite_none_right_eq_some, Option.some.injEq] at hstep
    obtain ⟨-, rfl⟩ := hstep
    exact hp.onFinished id

/-- One event and the account of one key. -/
theorem accounted_step (hS : Set.InjOn keyToPath S) (hkey : key ∈ S) (hp : p.Uses S)
    (h : p.Accounted key last early) {e : RequestEvent}
    (he : ∀ k, e.requestFor k ≠ none → k ∈ S) (hstep : p.step e = some q) :
    q.Accounted key ((e.requestFor key).or last)
      (e.requestFor key = some false ∧ key ∈ p.pendingKeys ∨ e.requestFor key = none ∧ early) := by
  have hother : e.requestFor key = none → q.Accounted key last early → q.Accounted key
      ((e.requestFor key).or last) (e.requestFor key = some false ∧ key ∈ p.pendingKeys ∨
        e.requestFor key = none ∧ early) := by
    intro hnone hq
    simpa [hnone] using hq
  cases e with
  | subscribe keys =>
    cases hstep
    by_cases hk : key ∈ keys
    · simpa [RequestEvent.requestFor, hk] using accounted_subscribe hp.newProtocol hk
    · exact hother (if_neg hk) (h.subscribe hp.newProtocol hk)
  | unsubscribe keys =>
    cases hstep
    by_cases hk : key ∈ keys
    · simpa [RequestEvent.requestFor, hk] using h.unsubscribe_self hp.newProtocol hk
    · refine hother (if_neg hk) (h.unsubscribe hp.newProtocol fun k hk' heq => hk ?_)
      rwa [← hS (he k (by simp [RequestEvent.requestFor, hk'])) hkey heq]
  | blockUntilSubscribed k order =>
    simp only [step, Option.ite_none_right_eq_some, Option.some.injEq] at hstep
    obtain ⟨-, rfl⟩ := hstep
    refine hother rfl ?_
    have hflush := h.flush hS hkey hp order
    unfold ContextKitPlugin.blockUntilSubscribed
    split
    · exact hflush
    · exact hflush.onFinished _
  | newSubscribe k =>
    simp only [step, Option.ite_none_right_eq_some, Option.some.injEq] at hstep
    obtain ⟨-, rfl⟩ := hstep
    refine hother rfl (h.deliverNewSubscribe fun hk hne heq => hne ?_)
    exact hS (hp.pendingKeys k hk) hkey heq
  | reply id =>
    simp only [step, Option.ite_none_right_eq_some, Option.some.injEq] at hstep
    obtain ⟨-, rfl⟩ := hstep
    exact hother rfl (h.onFinished id)

end

theorem uses_init (S : Set String) : init.Uses S := ⟨rfl, by simp [init]⟩

theorem accounted_init (key : String) : init.Accounted key none (UnsubscribedEarly [] key) := by
  have hnot : ¬ UnsubscribedEarly [] key := by
    rintro ⟨es₁, e, es₂, p, heq, -⟩
    simp at heq
  refine ⟨by simp [init], fun h => absurd h hnot, by simp [init], fun _ => ⟨fun h => absurd h hnot,
    fun _ => ⟨rfl, by simp [init], rfl⟩⟩⟩

end ContextKitPlugin

/-- **The plugin's requests and its calls on D-Bus agree, exactly unless an unsubscription came
early.**  In every run over keys with different object paths, when no `newSubscribe` is queued, the
last call made for a key, the connection of its signal and the entry of its path are what the last
request for it says, if and only if that request was not to unsubscribe a key whose subscription was
still put off. -/
theorem told_lastRequest_iff {S : Set String} (hS : Set.InjOn keyToPath S)
    {es : List RequestEvent} (hkeys : ∀ e ∈ es, ∀ k, e.requestFor k ≠ none → k ∈ S)
    {p : ContextKitPlugin} (hrun : run ContextKitPlugin.step ContextKitPlugin.init es = some p)
    (hquiet : p.queued = 0) {key : String} (hkey : key ∈ S) :
    p.Told key (lastRequest es key) ↔ ¬ ContextKitPlugin.UnsubscribedEarly es key := by
  have h : p.Uses S ∧
      p.Accounted key (lastRequest es key) (ContextKitPlugin.UnsubscribedEarly es key) :=
    run_induction (P := fun es p => p.Uses S ∧
        p.Accounted key (lastRequest es key) (ContextKitPlugin.UnsubscribedEarly es key))
      ⟨ContextKitPlugin.uses_init S, ContextKitPlugin.accounted_init key⟩
      (fun es p e q hrun h he hstep => by
        rw [ContextKitPlugin.lastRequest_snoc, ContextKitPlugin.unsubscribedEarly_snoc hrun]
        exact ⟨ContextKitPlugin.uses_step h.1 he hstep,
          ContextKitPlugin.accounted_step hS hkey h.1 h.2 he hstep⟩)
      (along_of_forall hkeys) hrun
  obtain ⟨-, hacc⟩ := h
  have hnot : key ∉ p.pendingKeys := fun hk => by
    have := hacc.queued hk
    rw [hquiet] at this
    exact Multiset.notMem_zero _ this
  obtain ⟨hearly, hlast⟩ := hacc.told hnot
  refine ⟨fun ht he => ?_, hlast⟩
  -- An early unsubscription was followed by the subscription it should have prevented.
  have h₁ := (hearly he).call
  have h₂ := ht.call
  rw [hacc.early_last he] at h₂
  rw [h₁] at h₂
  exact absurd h₂ (by decide)

/-! ### A key taken back at once, and one taken back later -/

/-- The key is unsubscribed before its queued call is delivered. -/
def takenBackAtOnce : List RequestEvent :=
  [.subscribe {"Screen.TopEdge"}, .unsubscribe {"Screen.TopEdge"}, .newSubscribe "Screen.TopEdge"]

/-- Nothing is queued and the last request was to unsubscribe, but the plugin has subscribed to the
key after it unsubscribed, and stays connected to it. -/
theorem exists_subscribed_after_unsubscribe :
    ∃ p, run ContextKitPlugin.step ContextKitPlugin.init takenBackAtOnce = some p ∧
      p.queued = 0 ∧ lastRequest takenBackAtOnce "Screen.TopEdge" = some false ∧
      (p.calls (keyToPath "Screen.TopEdge")).getLast? = some .subscribe ∧
      keyToPath "Screen.TopEdge" ∈ p.connections ∧
      p.objectPathToKey (keyToPath "Screen.TopEdge") = some "Screen.TopEdge" :=
  ⟨_, rfl, by decide, by decide, by decide, by decide, by decide⟩

/-- The key is unsubscribed after its queued call was delivered. -/
def takenBackLater : List RequestEvent :=
  [.subscribe {"Screen.TopEdge"}, .newSubscribe "Screen.TopEdge", .unsubscribe {"Screen.TopEdge"}]

theorem told_lastRequest_iff_takenBackLater :
    ∃ p, run ContextKitPlugin.step ContextKitPlugin.init takenBackLater = some p ∧
      (p.Told "Screen.TopEdge" (lastRequest takenBackLater "Screen.TopEdge") ↔
        ¬ ContextKitPlugin.UnsubscribedEarly takenBackLater "Screen.TopEdge") := by
  have hkeys : ∀ e ∈ takenBackLater, ∀ k, e.requestFor k ≠ none →
      k ∈ ({"Screen.TopEdge"} : Set String) := by
    intro e he k hk
    by_contra hne
    have hne : k ≠ "Screen.TopEdge" := hne
    simp only [takenBackLater, List.mem_cons, List.not_mem_nil, or_false] at he
    rcases he with rfl | rfl | rfl <;> simp [RequestEvent.requestFor, hne] at hk
  exact ⟨_, rfl, told_lastRequest_iff (Set.injOn_singleton _ _) hkeys rfl (by decide) rfl⟩

end ContextSubscriber
