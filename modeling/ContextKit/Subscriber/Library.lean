import ContextKit.Subscriber.DistinctProviders
import ContextKit.Subscriber.NameWatch

/-!
# The library, from its objects to the plugins

A program makes `ContextProperty` objects, any number of them for one key.  The first one makes the
`PropertyHandle` of the key, the first handle makes the commander's name known, and a handle is
routed to its providers as soon as it is known whether the commander is there: to the commander
alone while it is, otherwise to what the registry says.  All of this changes while subscriptions
come and go, and the plugins fail, answer and become ready again.

Every event is a list of events of the `World` below; what is new is who counts the subscriptions,
which handles exist, and where the lists of providers come from.
-/

namespace ContextSubscriber
open ContextKit Transition

/-- What does not change while the program runs. -/
structure LibrarySetup (P K V : Type) extends Setup P K V where
  isConnected : Bool

/-- How the handles use the listener of the commander's name. -/
def LibrarySetup.name {P K V : Type} (cfg : LibrarySetup P K V) : NameSetup :=
  ⟨cfg.isConnected, true⟩

/-- A `ContextProperty`: its handle, and whether it is subscribed. -/
structure PropertyObject (K : Type) where
  key : K
  subscribed : Bool
  deriving DecidableEq

/-- The objects, the handles that exist in the order they were made, what the registry says about
the keys, and the name of the commander. -/
structure Library (P K O V : Type) where
  world : World P K V
  instances : List K
  infos : K → List P
  watch : NameWatch
  objects : O → Option (PropertyObject K)

/-- What can happen. -/
inductive LibraryEvent (P K O V : Type)
  | create (o : O) (key : K)
  | subscribe (o : O)
  | unsubscribe (o : O)
  | destroy (o : O)
  | keyChanged (key : K) (infos : List P)
  | name (e : NameEvent)
  | plugin (provider : P) (e : PluginEvent K V)

/-- `PropertyHandle::updateProvider` of each of some handles. -/
def World.updateProviders {P K V : Type} [DecidableEq P] [DecidableEq K] [QVariant V]
    (cfg : Setup P K V) (infos : K → List P) : List K → World P K V → World P K V
  | [], w => w
  | key :: keys, w => updateProviders cfg infos keys (w.updateProvider cfg key (infos key))

namespace Library

variable {P K O V : Type} [DecidableEq P] [DecidableEq K] [DecidableEq O] [QVariant V]

/-- No objects yet. -/
def init (owned : Bool) (infos : K → List P) : Library P K O V :=
  ⟨World.init, [], infos, .init owned, fun _ => none⟩

/-- The listener was called; if it emits `nameAppeared` or `nameDisappeared`, every handle updates
its providers. -/
def hear (cfg : LibrarySetup P K V) (s : Library P K O V) (r : NameWatch × Bool) :
    Library P K O V :=
  let world := { s.world with commanderListener := r.1.listener }
  { s with
    watch := r.1
    world := if r.2 then world.updateProviders cfg.toSetup s.infos s.instances else world }

/-- The slot `updateProvider` of one handle. -/
def updateProvider (cfg : LibrarySetup P K V) (s : Library P K O V) (key : K) : Library P K O V :=
  { s with world := s.world.updateProvider cfg.toSetup key (s.infos key) }

/-- The constructor of `PropertyHandle`.  The new handle listens to the commander's name already
when it makes the listener start. -/
def newHandle (cfg : LibrarySetup P K V) (s : Library P K O V) (key : K) : Library P K O V :=
  let s := { s with instances := s.instances ++ [key] }
  if cfg.commandingEnabled then
    let s := s.hear cfg (s.watch.startListening cfg.name)
    if s.world.commanderListener.servicePresent ≠ .unknown then s.updateProvider cfg key else s
  else s.updateProvider cfg key

/-- `PropertyHandle::instance` -/
def handleInstance (cfg : LibrarySetup P K V) (s : Library P K O V) (key : K) : Library P K O V :=
  if key ∈ s.instances then s else s.newHandle cfg key

/-- `ContextProperty::subscribe` of `o`. -/
def subscribe (s : Library P K O V) (o : O) (c : PropertyObject K) : Library P K O V :=
  if c.subscribed then s
  else
    { s with
      world := s.world.subscribe c.key
      objects := Function.update s.objects o (some { c with subscribed := true }) }

/-- `ContextProperty::unsubscribe` of `o`. -/
def unsubscribe (s : Library P K O V) (o : O) (c : PropertyObject K) : Library P K O V :=
  if !c.subscribed then s
  else
    { s with
      world := s.world.unsubscribe c.key
      objects := Function.update s.objects o (some { c with subscribed := false }) }

/-- One event. -/
def step (cfg : LibrarySetup P K V) (s : Library P K O V) :
    LibraryEvent P K O V → Option (Library P K O V)
  | .create o key =>
    match s.objects o with
    | none =>
      let s := s.handleInstance cfg key
      some (subscribe { s with objects := Function.update s.objects o (some ⟨key, false⟩) } o
        ⟨key, false⟩)
    | some _ => none
  | .subscribe o => (s.objects o).map (s.subscribe o)
  | .unsubscribe o => (s.objects o).map (s.unsubscribe o)
  | .destroy o =>
    (s.objects o).map fun c =>
      let s := s.unsubscribe o c
      { s with objects := Function.update s.objects o none }
  | .keyChanged key infos =>
    let s := { s with infos := Function.update s.infos key infos }
    some (if key ∈ s.instances then s.updateProvider cfg key else s)
  | .name e => if e = .startListening then none else (s.watch.move cfg.name e).map (s.hear cfg)
  | .plugin provider e =>
    (s.world.step cfg.toSetup (.plugin provider e)).map fun w => { s with world := w }

/-- `o` is subscribed to `key`. -/
def SubscribedTo (s : Library P K O V) (o : O) (key : K) : Prop :=
  s.objects o = some ⟨key, true⟩

/-- Who should provide `key`: the commander if it is there, otherwise whom the registry lists. -/
def providers (cfg : LibrarySetup P K V) (s : Library P K O V) (key : K) : List P :=
  if cfg.commandingEnabled && (cfg.isConnected && s.watch.owned) then [cfg.commander]
  else s.infos key

/-- The bus answers the check with an error although the commander is there. -/
def Misled (s : Library P K O V) (e : LibraryEvent P K O V) : Prop :=
  e = .name .refuse ∧ s.watch.owned = true

/-- No provider is listed twice for a key. -/
def Distinct : LibraryEvent P K O V → Prop
  | .keyChanged _ infos => infos.Nodup
  | _ => True

/-! ### Updating the providers of some handles -/

section

variable (cfg : Setup P K V) (infos : K → List P) (keys : List K) (w : World P K V)

omit [DecidableEq P] [DecidableEq K] [QVariant V] in
theorem newProviders_congr {w w' : World P K V} (h : w'.commanderListener = w.commanderListener)
    (l : List P) : World.newProviders cfg w' l = World.newProviders cfg w l := by
  unfold World.newProviders
  rw [h]

theorem updateProvider_commanderListener (key : K) (l : List P) :
    (w.updateProvider cfg key l).commanderListener = w.commanderListener := by
  unfold World.updateProvider
  dsimp only
  split_ifs <;> rfl

theorem updateProviders_commanderListener :
    (w.updateProviders cfg infos keys).commanderListener = w.commanderListener := by
  induction keys generalizing w with
  | nil => rfl
  | cons key keys ih => rw [World.updateProviders, ih, updateProvider_commanderListener]

theorem updateProvider_subscribeCount (key k : K) (l : List P) :
    ((w.updateProvider cfg key l).handles k).subscribeCount = (w.handles k).subscribeCount := by
  rcases eq_or_ne k key with rfl | hne
  · exact (w.updateProvider_handles k cfg l).1
  · rw [World.updateProvider_handles_of_ne w hne]

theorem updateProviders_subscribeCount (k : K) :
    ((w.updateProviders cfg infos keys).handles k).subscribeCount =
      (w.handles k).subscribeCount := by
  induction keys generalizing w with
  | nil => rfl
  | cons key keys ih => rw [World.updateProviders, ih, updateProvider_subscribeCount]

theorem updateProviders_myProviders (k : K) :
    ((w.updateProviders cfg infos keys).handles k).myProviders =
      if k ∈ keys then World.newProviders cfg w (infos k) else (w.handles k).myProviders := by
  induction keys generalizing w with
  | nil => simp [World.updateProviders]
  | cons key keys ih =>
    rw [World.updateProviders, ih,
      newProviders_congr cfg (updateProvider_commanderListener cfg w key _)]
    rcases eq_or_ne k key with rfl | hne
    · simp [(w.updateProvider_handles k cfg (infos k)).2]
    · simp [World.updateProvider_handles_of_ne w hne, hne]

/-- A list of events of the world. -/
theorem leads_updateProviders (hinfos : ∀ k, (infos k).Nodup) :
    Leads (World.step cfg) WorldEvent.Distinct w (w.updateProviders cfg infos keys) := by
  induction keys generalizing w with
  | nil => exact .refl w
  | cons key keys ih =>
    have hfirst : Leads (World.step cfg) WorldEvent.Distinct w
        (w.updateProvider cfg key (infos key)) :=
      .of_step (e := .updateProvider key (infos key)) (hinfos key) rfl
    exact hfirst.trans (ih _)

end

variable {cfg : LibrarySetup P K V} {s t : Library P K O V} {e : LibraryEvent P K O V}

/-! ### Who counts the subscriptions -/

/-- The handle of `k` counts the objects that are subscribed to it. -/
def CountedAt (s : Library P K O V) (k : K) : Prop :=
  ∃ S : Finset O, (∀ o, o ∈ S ↔ s.SubscribedTo o k) ∧
    (s.world.handles k).subscribeCount = S.card

omit [DecidableEq P] [DecidableEq K] [DecidableEq O] [QVariant V] in
theorem CountedAt.congr {k : K} (h : s.CountedAt k)
    (ho : ∀ o, t.SubscribedTo o k ↔ s.SubscribedTo o k)
    (hc : (t.world.handles k).subscribeCount = (s.world.handles k).subscribeCount) :
    t.CountedAt k := by
  obtain ⟨S, hS, hcount⟩ := h
  exact ⟨S, fun o => (hS o).trans (ho o).symm, hc.trans hcount⟩

omit [DecidableEq P] [DecidableEq K] [DecidableEq O] [QVariant V] in
theorem CountedAt.pos_iff {k : K} (h : s.CountedAt k) :
    0 < (s.world.handles k).subscribeCount ↔ ∃ o, s.SubscribedTo o k := by
  obtain ⟨S, hS, hcount⟩ := h
  rw [hcount, Finset.card_pos]
  exact ⟨fun ⟨o, ho⟩ => ⟨o, (hS o).1 ho⟩, fun ⟨o, ho⟩ => ⟨o, (hS o).2 ho⟩⟩

omit [QVariant V] in
theorem counted_subscribe (h : ∀ k, s.CountedAt k) {o : O} {c : PropertyObject K}
    (ho : s.objects o = some c) (k : K) : (s.subscribe o c).CountedAt k := by
  obtain ⟨key, subscribed⟩ := c
  unfold subscribe
  split_ifs with hsub
  · exact h k
  · obtain rfl : subscribed = false := by simpa using hsub
    rcases eq_or_ne k key with rfl | hne
    · obtain ⟨S, hS, hcount⟩ := h k
      have hnot : o ∉ S := by simp [hS, SubscribedTo, ho]
      refine ⟨insert o S, fun q => ?_, ?_⟩
      · rcases eq_or_ne q o with rfl | hq <;> simp [SubscribedTo, *]
      · rw [Finset.card_insert_of_notMem hnot, ← hcount]
        exact (s.world.subscribe_handles k).1
    · refine (h k).congr (fun q => ?_) ?_
      · rcases eq_or_ne q o with rfl | hq <;> simp [SubscribedTo, *, hne.symm]
      · simp [World.subscribe_handles_of_ne s.world hne]

omit [DecidableEq P] [DecidableEq K] [DecidableEq O] [QVariant V] in
/-- A subscribed object is counted, so the handle it calls has somebody to lose. -/
theorem subscribeCount_pos (h : ∀ k, s.CountedAt k) {o : O} {c : PropertyObject K}
    (ho : s.objects o = some c) (hsub : c.subscribed = true) :
    0 < (s.world.handles c.key).subscribeCount := by
  refine (h c.key).pos_iff.2 ⟨o, ?_⟩
  rw [SubscribedTo, ho, ← hsub]

omit [QVariant V] in
theorem counted_unsubscribe (h : ∀ k, s.CountedAt k) {o : O} {c : PropertyObject K}
    (ho : s.objects o = some c) (k : K) : (s.unsubscribe o c).CountedAt k := by
  obtain ⟨key, subscribed⟩ := c
  unfold unsubscribe
  split_ifs with hsub
  · exact h k
  · obtain rfl : subscribed = true := by simpa using hsub
    rcases eq_or_ne k key with rfl | hne
    · obtain ⟨S, hS, hcount⟩ := h k
      have hmem : o ∈ S := by simp [hS, SubscribedTo, ho]
      refine ⟨S.erase o, fun q => ?_, ?_⟩
      · rcases eq_or_ne q o with rfl | hq <;> simp [SubscribedTo, *]
      · rw [Finset.card_erase_of_mem hmem, ← hcount]
        exact (s.world.unsubscribe_handles k).1
    · refine (h k).congr (fun q => ?_) ?_
      · rcases eq_or_ne q o with rfl | hq <;> simp [SubscribedTo, *, hne.symm]
      · simp [World.unsubscribe_handles_of_ne s.world key hne]

omit [QVariant V] in
theorem unsubscribe_objects {o : O} {c : PropertyObject K} (ho : s.objects o = some c) :
    (s.unsubscribe o c).objects o = some { c with subscribed := false } := by
  unfold unsubscribe
  split_ifs with hsub
  · rw [ho]
    simp at hsub
    rw [← hsub]
  · simp

/-! ### What an event leaves alone -/

/-- Only the lists of providers have changed, and perhaps the listener. -/
structure SameObjects (s t : Library P K O V) : Prop where
  objects : t.objects = s.objects
  infos : t.infos = s.infos
  subscribeCount : ∀ k, (t.world.handles k).subscribeCount = (s.world.handles k).subscribeCount

omit [DecidableEq P] [DecidableEq K] [DecidableEq O] [QVariant V] in
theorem SameObjects.trans {s t u : Library P K O V} (h : s.SameObjects t) (h' : t.SameObjects u) :
    s.SameObjects u :=
  ⟨h'.objects.trans h.objects, h'.infos.trans h.infos,
    fun k => (h'.subscribeCount k).trans (h.subscribeCount k)⟩

omit [DecidableEq P] [DecidableEq K] [DecidableEq O] [QVariant V] in
theorem SameObjects.counted (h : s.SameObjects t) (hc : ∀ k, s.CountedAt k) (k : K) :
    t.CountedAt k :=
  (hc k).congr (fun o => by rw [SubscribedTo, SubscribedTo, h.objects]) (h.subscribeCount k)

omit [DecidableEq O] in
theorem sameObjects_hear (r : NameWatch × Bool) : s.SameObjects (s.hear cfg r) := by
  refine ⟨rfl, rfl, fun k => ?_⟩
  unfold hear
  dsimp only
  split_ifs
  · exact updateProviders_subscribeCount _ _ _ _ k
  · rfl

omit [DecidableEq O] in
theorem sameObjects_updateProvider (key : K) : s.SameObjects (s.updateProvider cfg key) :=
  ⟨rfl, rfl, fun k => updateProvider_subscribeCount _ _ key k _⟩

omit [DecidableEq O] in
theorem sameObjects_newHandle (key : K) : s.SameObjects (s.newHandle cfg key) := by
  have hmade : s.SameObjects { s with instances := s.instances ++ [key] } :=
    ⟨rfl, rfl, fun _ => rfl⟩
  unfold newHandle
  dsimp only
  split_ifs
  · exact (hmade.trans (sameObjects_hear _)).trans (sameObjects_updateProvider key)
  · exact hmade.trans (sameObjects_hear _)
  · exact hmade.trans (sameObjects_updateProvider key)

omit [DecidableEq O] in
theorem sameObjects_handleInstance (key : K) : s.SameObjects (s.handleInstance cfg key) := by
  unfold handleInstance
  split_ifs
  · exact ⟨rfl, rfl, fun _ => rfl⟩
  · exact sameObjects_newHandle key

omit [DecidableEq P] [DecidableEq K] [DecidableEq O] in
theorem counted_init (owned : Bool) (infos : K → List P) (k : K) :
    (init owned infos : Library P K O V).CountedAt k :=
  ⟨∅, by simp [SubscribedTo, init], rfl⟩

theorem counted_step (h : ∀ k, s.CountedAt k) (hstep : s.step cfg e = some t) (k : K) :
    t.CountedAt k := by
  cases e with
  | create o key =>
    simp only [step] at hstep
    cases ho : s.objects o with
    | some c => simp [ho] at hstep
    | none =>
      simp only [ho, Option.some.injEq] at hstep
      subst hstep
      have hsame : s.SameObjects (s.handleInstance cfg key) := sameObjects_handleInstance key
      refine counted_subscribe (fun k => ?_) (by simp) k
      refine (hsame.counted h k).congr (fun q => ?_) rfl
      rcases eq_or_ne q o with rfl | hq
      · simp [SubscribedTo, hsame.objects, ho]
      · simp [SubscribedTo, hq]
  | subscribe o =>
    obtain ⟨c, ho, rfl⟩ := Option.map_eq_some_iff.1 hstep
    exact counted_subscribe h ho k
  | unsubscribe o =>
    obtain ⟨c, ho, rfl⟩ := Option.map_eq_some_iff.1 hstep
    exact counted_unsubscribe h ho k
  | destroy o =>
    obtain ⟨c, ho, rfl⟩ := Option.map_eq_some_iff.1 hstep
    refine (counted_unsubscribe h ho k).congr (fun q => ?_) rfl
    rcases eq_or_ne q o with rfl | hq
    · simp [SubscribedTo, unsubscribe_objects ho]
    · simp [SubscribedTo, hq]
  | keyChanged key infos =>
    obtain rfl := Option.some.inj hstep
    refine (h k).congr (fun q => ?_) ?_ <;> split_ifs
    · exact .rfl
    · exact .rfl
    · exact updateProvider_subscribeCount _ _ key k _
    · rfl
  | name e =>
    obtain ⟨-, hmove⟩ := Option.ite_none_left_eq_some.1 hstep
    obtain ⟨r, -, rfl⟩ := Option.map_eq_some_iff.1 hmove
    exact (sameObjects_hear r).counted h k
  | plugin p e =>
    obtain ⟨w, hw, rfl⟩ := Option.map_eq_some_iff.1 hstep
    exact (h k).congr (fun _ => .rfl) (World.plugin_handles hw k).1

/-! ### How the handles are routed -/

/-- The handle of `k` is routed by what is known of the commander. -/
def ListedAt (cfg : LibrarySetup P K V) (s : Library P K O V) (k : K) : Prop :=
  (cfg.commandingEnabled = true → s.world.commanderListener.servicePresent ≠ .unknown) →
    (s.world.handles k).myProviders = World.newProviders cfg.toSetup s.world (s.infos k)

omit [DecidableEq O] in
theorem listedAt_updateProvider {k key : K} (h : k ≠ key → s.ListedAt cfg k) :
    (s.updateProvider cfg key).ListedAt cfg k := by
  intro hknown
  unfold updateProvider at hknown ⊢
  have hsame := updateProvider_commanderListener cfg.toSetup s.world key (s.infos key)
  dsimp only at hknown ⊢
  rw [hsame] at hknown
  rw [newProviders_congr _ hsame]
  rcases eq_or_ne k key with rfl | hne
  · exact (s.world.updateProvider_handles k _ _).2
  · rw [World.updateProvider_handles_of_ne s.world hne]
    exact h hne hknown

omit [DecidableEq O] in
/-- A signal makes every handle look again, and without one the listener says what it said. -/
theorem listedAt_hear {r : NameWatch × Bool} {k : K} (hk : k ∈ s.instances)
    (h : r.2 = false → r.1.listener = s.world.commanderListener ∧ s.ListedAt cfg k) :
    (s.hear cfg r).ListedAt cfg k := by
  intro hknown
  unfold hear at hknown ⊢
  dsimp only at hknown ⊢
  by_cases hr : r.2 = true
  · rw [if_pos hr, updateProviders_myProviders, if_pos hk]
    exact (newProviders_congr _ (updateProviders_commanderListener ..) _).symm
  · obtain ⟨hl, hlisted⟩ := h (by simpa using hr)
    rw [if_neg hr] at hknown ⊢
    rw [hl] at hknown ⊢
    exact hlisted hknown

omit [DecidableEq O] in
/-- A handle that is not there yet is made. -/
theorem listedAt_newHandle {key k : K} (hl : s.world.commanderListener = s.watch.listener)
    (h : k ≠ key → k ∈ s.instances ∧ s.ListedAt cfg k) : (s.newHandle cfg key).ListedAt cfg k := by
  have hmem : k ∈ s.instances ++ [key] := by
    by_cases hk : k = key
    · simp [hk]
    · exact List.mem_append_left _ (h hk).1
  unfold newHandle
  dsimp only
  split_ifs with hcommanding hknown
  · refine listedAt_updateProvider fun hk => listedAt_hear hmem fun hsilent => ⟨?_, (h hk).2⟩
    rw [NameWatch.startListening_of_silent hsilent]
    exact hl.symm
  · -- It waits for what the listener will hear.
    exact fun hunknown => absurd (hunknown hcommanding) hknown
  · exact listedAt_updateProvider fun hk => (h hk).2

/-- The invariant: the listener and the handles agree, every object has a handle, the listener was
started with the first of them, and everything below is as it should be. -/
structure Linked (cfg : LibrarySetup P K V) (s : Library P K O V) : Prop where
  listener : s.world.commanderListener = s.watch.listener
  listed : ∀ k ∈ s.instances, s.ListedAt cfg k
  started : cfg.commandingEnabled = true → s.instances ≠ [] → s.watch.listeningStarted = true
  keys : ∀ o c, s.objects o = some c → c.key ∈ s.instances
  stage : NameWatch.Stage cfg.name s.watch false
  infos : ∀ k, (s.infos k).Nodup
  clean : s.world.Clean

theorem clean_of_leads {w w' : World P K V} (h : w.Clean)
    (hleads : Leads (World.step cfg.toSetup) WorldEvent.Distinct w w') : w'.Clean :=
  hleads.inv (fun _ _ _ h he hst => World.clean_step h he hst) h

omit [DecidableEq O] in
theorem clean_hear (h : s.world.Clean) (hinfos : ∀ k, (s.infos k).Nodup) (r : NameWatch × Bool) :
    (s.hear cfg r).world.Clean := by
  have hheard : Leads (World.step cfg.toSetup) WorldEvent.Distinct s.world
      { s.world with commanderListener := r.1.listener } :=
    .of_step (e := .commander r.1.listener.servicePresent) trivial rfl
  have hleads : Leads (World.step cfg.toSetup) WorldEvent.Distinct s.world
      (s.hear cfg r).world := by
    unfold hear
    dsimp only
    split_ifs
    · exact hheard.trans (leads_updateProviders _ _ _ _ hinfos)
    · exact hheard
  exact clean_of_leads h hleads

omit [DecidableEq O] in
theorem clean_updateProvider (h : s.world.Clean) (hinfos : ∀ k, (s.infos k).Nodup) (key : K) :
    (s.updateProvider cfg key).world.Clean :=
  World.clean_step (e := .updateProvider key (s.infos key)) h (hinfos key)
    (rfl : World.step cfg.toSetup s.world _ = some _)

omit [DecidableEq O] in
theorem listener_hear (r : NameWatch × Bool) :
    (s.hear cfg r).world.commanderListener = (s.hear cfg r).watch.listener := by
  unfold hear
  dsimp only
  split_ifs
  · exact updateProviders_commanderListener ..
  · rfl

omit [DecidableEq O] in
theorem newHandle_instances (key : K) : (s.newHandle cfg key).instances = s.instances ++ [key] := by
  unfold newHandle
  dsimp only
  split_ifs <;> rfl

omit [DecidableEq O] in
theorem newHandle_watch (key : K) :
    (s.newHandle cfg key).watch =
      if cfg.commandingEnabled then (s.watch.startListening cfg.name).1 else s.watch := by
  unfold newHandle
  dsimp only
  split_ifs <;> rfl

omit [DecidableEq O] in
theorem linked_newHandle (h : s.Linked cfg) (key : K) : (s.newHandle cfg key).Linked cfg where
  listener := by
    unfold newHandle
    dsimp only
    split_ifs
    · exact (updateProvider_commanderListener ..).trans (listener_hear _)
    · exact listener_hear _
    · exact (updateProvider_commanderListener ..).trans h.listener
  listed k hk := by
    refine listedAt_newHandle h.listener fun hne => ?_
    rw [newHandle_instances, List.mem_append, List.mem_singleton] at hk
    exact ⟨hk.resolve_right hne, h.listed k (hk.resolve_right hne)⟩
  started hcommanding _ := by
    rw [newHandle_watch, if_pos hcommanding]
    exact NameWatch.startListening_started
  keys o c ho := by
    rw [(sameObjects_newHandle key).objects] at ho
    rw [newHandle_instances]
    exact List.mem_append_left _ (h.keys o c ho)
  stage := by
    rw [newHandle_watch]
    split_ifs
    · exact h.stage.startListening
    · exact h.stage
  infos := by
    rw [(sameObjects_newHandle key).infos]
    exact h.infos
  clean := by
    have hheard : ∀ r, (hear cfg { s with instances := s.instances ++ [key] } r).world.Clean :=
      clean_hear (s := { s with instances := s.instances ++ [key] }) h.clean h.infos
    unfold newHandle
    dsimp only
    split_ifs
    · exact clean_updateProvider (hheard _) h.infos key
    · exact hheard _
    · exact clean_updateProvider (s := { s with instances := s.instances ++ [key] }) h.clean
        h.infos key

omit [DecidableEq O] in
theorem linked_handleInstance (h : s.Linked cfg) (key : K) :
    (s.handleInstance cfg key).Linked cfg ∧ key ∈ (s.handleInstance cfg key).instances := by
  unfold handleInstance
  split_ifs with hkey
  · exact ⟨h, hkey⟩
  · refine ⟨linked_newHandle h key, ?_⟩
    rw [newHandle_instances]
    exact List.mem_append_right _ (List.mem_singleton_self key)

omit [DecidableEq K] [DecidableEq O] [QVariant V] in
/-- An event that touches neither the listener nor a list of providers. -/
theorem Linked.frame (h : s.Linked cfg) (hinstances : t.instances = s.instances)
    (hinfos : t.infos = s.infos) (hwatch : t.watch = s.watch)
    (hlistener : t.world.commanderListener = s.world.commanderListener)
    (hlists : ∀ k, (t.world.handles k).myProviders = (s.world.handles k).myProviders)
    (hkeys : ∀ o c, t.objects o = some c → c.key ∈ s.instances) (hclean : t.world.Clean) :
    t.Linked cfg where
  listener := by rw [hlistener, hwatch, h.listener]
  listed k hk hknown := by
    rw [hinstances] at hk
    rw [hlistener] at hknown
    rw [hlists, hinfos, newProviders_congr _ hlistener]
    exact h.listed k hk hknown
  started hcommanding hne := by
    rw [hinstances] at hne
    rw [hwatch]
    exact h.started hcommanding hne
  keys := by rwa [hinstances]
  stage := by rw [hwatch]; exact h.stage
  infos := by rw [hinfos]; exact h.infos
  clean := hclean

theorem linked_subscribe (h : s.Linked cfg) {o : O} {c : PropertyObject K}
    (ho : s.objects o = some c) : (s.subscribe o c).Linked cfg := by
  unfold subscribe
  split_ifs
  · exact h
  · refine h.frame rfl rfl rfl ?_ (fun k => ?_) (fun q d hq => ?_) ?_
    · show (s.world.subscribe c.key).commanderListener = _
      unfold World.subscribe
      dsimp only
      split_ifs <;> rfl
    · rcases eq_or_ne k c.key with rfl | hne
      · exact (s.world.subscribe_handles c.key).2
      · exact congrArg _ (World.subscribe_handles_of_ne s.world hne)
    · rcases eq_or_ne q o with rfl | hne
      · simp only [Function.update_self, Option.some.injEq] at hq
        subst hq
        exact h.keys q c ho
      · exact h.keys q d (by simpa [hne] using hq)
    · exact World.clean_step (e := .subscribe c.key) h.clean trivial
        (rfl : World.step cfg.toSetup s.world _ = some _)

theorem linked_unsubscribe (h : s.Linked cfg) (hcounted : ∀ k, s.CountedAt k) {o : O}
    {c : PropertyObject K} (ho : s.objects o = some c) : (s.unsubscribe o c).Linked cfg := by
  unfold unsubscribe
  split_ifs with hsub
  · exact h
  · have hpos := subscribeCount_pos hcounted ho (by simpa using hsub)
    refine h.frame rfl rfl rfl ?_ (fun k => ?_) (fun q d hq => ?_) ?_
    · show (s.world.unsubscribe c.key).commanderListener = _
      unfold World.unsubscribe
      dsimp only
      split_ifs <;> rfl
    · rcases eq_or_ne k c.key with rfl | hne
      · exact (s.world.unsubscribe_handles c.key).2
      · exact congrArg _ (World.unsubscribe_handles_of_ne s.world c.key hne)
    · rcases eq_or_ne q o with rfl | hne
      · simp only [Function.update_self, Option.some.injEq] at hq
        subst hq
        exact h.keys q c ho
      · exact h.keys q d (by simpa [hne] using hq)
    · have hstep : World.step cfg.toSetup s.world (.unsubscribe c.key) =
          some (s.world.unsubscribe c.key) := if_pos hpos
      exact World.clean_step (e := .unsubscribe c.key) h.clean trivial hstep

omit [DecidableEq O] in
/-- What the registry says about one key changes. -/
theorem linked_keyChanged (h : s.Linked cfg) (key : K) {infos : List P} (hinfos : infos.Nodup) :
    let u := { s with infos := Function.update s.infos key infos }
    (if key ∈ s.instances then u.updateProvider cfg key else u).Linked cfg := by
  intro u
  have hnodup : ∀ k, (u.infos k).Nodup := by
    intro k
    rcases eq_or_ne k key with rfl | hne
    · simpa [u] using hinfos
    · simpa [u, hne] using h.infos k
  have hlisted : ∀ k ∈ s.instances, k ≠ key → u.ListedAt cfg k := by
    intro k hk hne
    have hsame : u.infos k = s.infos k := Function.update_of_ne hne ..
    unfold ListedAt
    rw [hsame]
    exact h.listed k hk
  split_ifs with hkey
  · exact {
      listener := (updateProvider_commanderListener ..).trans h.listener
      listed := fun k hk => listedAt_updateProvider fun hne => hlisted k hk hne
      started := h.started
      keys := h.keys
      stage := h.stage
      infos := hnodup
      clean := clean_updateProvider (s := u) h.clean hnodup key }
  · exact { h with
      listed := fun k hk => hlisted k hk fun hk' => hkey (hk' ▸ hk)
      infos := hnodup }

omit [DecidableEq O] in
/-- The listener hears something, or something happens on the bus. -/
theorem linked_hear (h : s.Linked cfg) {e : NameEvent} {r : NameWatch × Bool}
    (hmove : s.watch.move cfg.name e = some r) (hmisled : s.watch.misled e false = false) :
    (s.hear cfg r).Linked cfg where
  listener := listener_hear r
  listed k hk := by
    refine listedAt_hear hk fun hsilent => ⟨?_, h.listed k hk⟩
    obtain ⟨w, b⟩ := r
    obtain rfl : b = false := hsilent
    rw [NameWatch.move_of_silent hmove]
    exact h.listener.symm
  started hcommanding hne := NameWatch.move_started hmove (h.started hcommanding hne)
  keys := h.keys
  stage := by
    rw [← hmisled]
    exact NameWatch.stage_step h.stage (congrArg (Option.map Prod.fst) hmove)
  infos := h.infos
  clean := clean_hear h.clean h.infos r

/-- **One event.** -/
theorem linked_step (h : s.Linked cfg) (hcounted : ∀ k, s.CountedAt k) (hdistinct : Distinct e)
    (hmisled : ¬ s.Misled e) (hstep : s.step cfg e = some t) : t.Linked cfg := by
  cases e with
  | create o key =>
    simp only [step] at hstep
    cases ho : s.objects o with
    | some c => simp [ho] at hstep
    | none =>
      simp only [ho, Option.some.injEq] at hstep
      subst hstep
      obtain ⟨hmade, hkey⟩ := linked_handleInstance h key
      have hnew : Linked cfg { s.handleInstance cfg key with
          objects :=
            Function.update (s.handleInstance cfg key).objects o (some ⟨key, false⟩) } := by
        refine hmade.frame rfl rfl rfl rfl (fun _ => rfl) (fun q d hq => ?_) hmade.clean
        rcases eq_or_ne q o with rfl | hne
        · simp only [Function.update_self, Option.some.injEq] at hq
          subst hq
          exact hkey
        · exact hmade.keys q d (by simpa [hne] using hq)
      exact linked_subscribe hnew (Function.update_self ..)
  | subscribe o =>
    obtain ⟨c, ho, rfl⟩ := Option.map_eq_some_iff.1 hstep
    exact linked_subscribe h ho
  | unsubscribe o =>
    obtain ⟨c, ho, rfl⟩ := Option.map_eq_some_iff.1 hstep
    exact linked_unsubscribe h hcounted ho
  | destroy o =>
    obtain ⟨c, ho, rfl⟩ := Option.map_eq_some_iff.1 hstep
    have hgone := linked_unsubscribe h hcounted ho
    refine hgone.frame rfl rfl rfl rfl (fun _ => rfl) (fun q d hq => ?_) hgone.clean
    rcases eq_or_ne q o with rfl | hne
    · simp at hq
    · exact hgone.keys q d (by simpa [hne] using hq)
  | keyChanged key infos =>
    obtain rfl := Option.some.inj hstep
    exact linked_keyChanged h key hdistinct
  | name e =>
    obtain ⟨-, hmove⟩ := Option.ite_none_left_eq_some.1 hstep
    obtain ⟨r, hr, rfl⟩ := Option.map_eq_some_iff.1 hmove
    refine linked_hear h hr ?_
    cases e with
    | refuse => simpa [NameWatch.misled, Misled] using hmisled
    | startListening | changeOwner | handle | deliver => rfl
  | plugin p e =>
    obtain ⟨w, hw, rfl⟩ := Option.map_eq_some_iff.1 hstep
    refine h.frame rfl rfl rfl ?_ (fun k => (World.plugin_handles hw k).2) h.keys
      (World.clean_step (e := .plugin p e) h.clean trivial hw)
    obtain ⟨r, -, rfl⟩ := Option.map_eq_some_iff.1 hw
    rfl

omit [DecidableEq K] [DecidableEq O] in
theorem linked_init (owned : Bool) {infos : K → List P} (hinfos : ∀ k, (infos k).Nodup) :
    (init owned infos : Library P K O V).Linked cfg where
  listener := rfl
  listed := by simp [init]
  started := by simp [init]
  keys := by simp [init]
  stage := NameWatch.stage_init owned
  infos := hinfos
  clean := World.clean_init

/-! ### Runs -/

omit [DecidableEq K] [DecidableEq O] [QVariant V] in
/-- The lists of the handles, once nothing is on the way between the bus and the listener. -/
theorem Linked.myProviders_of_settled (h : s.Linked cfg)
    (hsettled : cfg.commandingEnabled = true → s.watch.Settled) {k : K} (hk : k ∈ s.instances) :
    (s.world.handles k).myProviders = s.providers cfg k := by
  by_cases hcommanding : cfg.commandingEnabled = true
  · have hstarted := h.started hcommanding (List.ne_nil_of_mem hk)
    have hpresence := NameWatch.servicePresent_of_known
      (h.stage.known_of_settled hstarted (hsettled hcommanding) rfl)
    rw [← h.listener] at hpresence
    have hknown : s.world.commanderListener.servicePresent ≠ .unknown := by
      rw [hpresence]
      cases cfg.name.isConnected && s.watch.owned && !false <;> decide
    rw [h.listed k hk fun _ => hknown]
    unfold World.newProviders providers
    rw [hpresence, hcommanding]
    show (if true && decide (NameWatch.presenceOf (cfg.isConnected && s.watch.owned && !false) =
      .present) then _ else _) = _
    cases cfg.isConnected <;> cases s.watch.owned <;> rfl
  · rw [h.listed k hk fun hc => absurd hc hcommanding]
    unfold World.newProviders providers
    simp [hcommanding]

theorem linked_of_run {owned : Bool} {infos : K → List P} {es : List (LibraryEvent P K O V)}
    (hinfos : ∀ k, (infos k).Nodup) (hes : ∀ e ∈ es, Distinct e)
    (hmisled : Along (step cfg) (fun s e => ¬ s.Misled e) (init owned infos) es)
    (hrun : run (step cfg) (init owned infos) es = some s) :
    (∀ k, s.CountedAt k) ∧ s.Linked cfg := by
  refine ⟨run_inv (P := fun s => ∀ k, s.CountedAt k) (fun _ _ _ h hst => counted_step h hst)
    (counted_init owned infos) hrun, ?_⟩
  exact run_inv_along_over (P := fun s => ∀ k, s.CountedAt k) (Q := Linked cfg)
    (fun _ _ _ h hst => counted_step h hst)
    (fun _ _ _ hc h hC hst => linked_step h hc hC.1 hC.2 hst)
    (counted_init owned infos) (linked_init owned hinfos)
    ((along_of_forall hes).and hmisled) hrun

/-- **The plugins are asked for what the program uses.**  In every run in which the registry lists
no provider twice for a key and the check for the commander gets no error while it is there: once
the listener has heard everything, a provider is to be subscribed to a key exactly if some object is
subscribed to it and the provider is the commander, while it is there, or one that the registry
lists, while it is not; and a ready provider with nothing to handle has told its plugin so. -/
theorem subscribed_of_settled {owned : Bool} {infos : K → List P}
    {es : List (LibraryEvent P K O V)} (hinfos : ∀ k, (infos k).Nodup)
    (hes : ∀ e ∈ es, Distinct e)
    (hmisled : Along (step cfg) (fun s e => ¬ s.Misled e) (init owned infos) es)
    (hrun : run (step cfg) (init owned infos) es = some s)
    (hsettled : cfg.commandingEnabled = true → s.watch.Settled) (p : P) (k : K) :
    (k ∈ (s.world.sessions p).provider.subscribedKeys ↔
      (∃ o, s.SubscribedTo o k) ∧ p ∈ s.providers cfg k) ∧
    ((s.world.sessions p).provider.pluginState = .ready →
      Method.handleSubscribes ∉ (s.world.sessions p).provider.callQueue →
      (k ∈ (s.world.sessions p).wire ↔ (∃ o, s.SubscribedTo o k) ∧ p ∈ s.providers cfg k)) := by
  obtain ⟨hcounted, h⟩ := linked_of_run hinfos hes hmisled hrun
  have hwants : (s.world.handles k).Wants p ↔
      (∃ o, s.SubscribedTo o k) ∧ p ∈ s.providers cfg k := by
    rw [PropertyHandle.Wants, (hcounted k).pos_iff]
    refine and_congr_right fun hused => ?_
    obtain ⟨o, ho⟩ := hused
    rw [h.myProviders_of_settled hsettled (h.keys o _ ho)]
  exact ⟨(h.clean.intent p k).trans hwants,
    fun hready hq => (h.clean.wire_iff hready hq).trans hwants⟩

/-- Commanding turned on, with names for the providers and the keys. -/
def commanded : LibrarySetup String String (Option ℤ) where
  commandingEnabled := true
  commander := "commander"
  typeCheckEnabled := false
  typeCheck _ _ := true
  isConnected := true

/-- The first object of the program, while there is no commander. -/
def noCommander : List (LibraryEvent String String ℕ (Option ℤ)) :=
  [.create 0 "Screen.TopEdge", .name .handle, .name .handle, .name .deliver,
    .plugin "session" .ready]

theorem subscribed_of_settled_noCommander :
    ∃ s, run (step commanded) (init false fun _ => ["session"]) noCommander = some s ∧
      ("Screen.TopEdge" ∈ (s.world.sessions "session").provider.subscribedKeys ↔
        (∃ o, s.SubscribedTo o "Screen.TopEdge") ∧
          "session" ∈ s.providers commanded "Screen.TopEdge") := by
  have hrefused : ∀ e ∈ noCommander, e ≠ .name .refuse := by simp [noCommander]
  have hmisled : Along (step commanded) (fun s e => ¬ s.Misled e)
      (init false fun _ => ["session"]) noCommander :=
    .of_inv (P := fun _ => True) (fun _ _ _ _ _ _ => trivial)
      (fun _ _ _ he hmis => he hmis.1) trivial (along_of_forall hrefused)
  have hdistinct : ∀ e ∈ noCommander, Distinct e := by simp [noCommander, Distinct]
  obtain ⟨s, hrun, hsettled⟩ : ∃ s, run (step commanded) (init false fun _ => ["session"])
      noCommander = some s ∧ s.watch.Settled := ⟨_, rfl, rfl, rfl⟩
  exact ⟨s, hrun, (subscribed_of_settled (fun _ => List.nodup_singleton _) hdistinct hmisled hrun
    (fun _ => hsettled) "session" "Screen.TopEdge").1⟩

end Library

end ContextSubscriber
