import ContextKit.Delivery.Delivered

/-!
# Nothing is stuck

From every state that is reached, the main loop of the subscriber, the bus and the provider's
process get by themselves to a state where nothing is queued or on its way: no message waits for
something that is not coming.
-/

namespace ContextSubscriber
open ContextKit Transition

theorem KeyMove.subscribed {v w : KeyView} (h : KeyMove v w) : w.subscribed = v.subscribed := by
  cases h <;> rfl

namespace Link

variable {V : Type} {l m : Link V}

/-- What the main loop of the subscriber does. -/
def OfLoop : LinkEvent V → Prop
  | .constructPlugin | .providerAppeared | .handleSubscribes | .newSubscribe _ => True
  | _ => False

theorem linked_of_leads (hl : l.Linked) (h : Leads step OfLoop l m) : m.Linked :=
  h.inv (fun _ _ _ hl _ hstep => linked_step hl hstep) hl

theorem exists_constructed (l : Link V) :
    ∃ m, Leads step OfLoop l m ∧ .constructPlugin ∉ m.provider.callQueue := by
  by_cases hq : .constructPlugin ∈ l.provider.callQueue
  · refine ⟨_, .of_step (e := .constructPlugin) trivial (if_pos hq), ?_⟩
    unfold construct
    split_ifs <;> exact Finset.notMem_erase _ _
  · exact ⟨l, .refl l, hq⟩

theorem exists_appeared (hl : l.Linked) :
    ∃ m, Leads step OfLoop l m ∧ m.appearedQueued = false ∧
      m.provider.callQueue = l.provider.callQueue := by
  cases hq : l.appearedQueued with
  | true =>
    refine ⟨_, .of_step (e := .providerAppeared) trivial (if_pos hq), ?_⟩
    have hemit := emit_eq (l := { l with appearedQueued := false }) hl.modern l.listener
    dsimp only at hemit
    rw [hemit]
    split_ifs <;> exact ⟨rfl, rfl⟩
  | false => exact ⟨l, .refl l, hq, rfl⟩

theorem exists_handled (hl : l.Linked) :
    ∃ m, Leads step OfLoop l m ∧ m.appearedQueued = l.appearedQueued ∧
      m.provider.callQueue = l.provider.callQueue.erase .handleSubscribes := by
  by_cases hq : .handleSubscribes ∈ l.provider.callQueue
  · refine ⟨_, .of_step (e := .handleSubscribes) trivial (if_pos hq), ?_⟩
    cases hs : l.provider.pluginState with
    | ready =>
      rw [carryOut_eq hl.modern (p := l.provider.dequeue .handleSubscribes) hs]
      exact ⟨rfl, rfl⟩
    | failed =>
      rw [(l.provider.dequeue .handleSubscribes).handleSubscribes_failed hs]
      exact ⟨rfl, rfl⟩
    | initializing =>
      rw [(l.provider.dequeue .handleSubscribes).handleSubscribes_initializing hs]
      exact ⟨rfl, rfl⟩
  · exact ⟨l, .refl l, rfl, (Finset.erase_eq_of_notMem hq).symm⟩

theorem exists_subscribed (l : Link V) :
    ∃ m, Leads step OfLoop l m ∧ m.plugin.queued = 0 ∧ m.appearedQueued = l.appearedQueued ∧
      m.provider = l.provider := by
  induction hcard : l.plugin.queued.card generalizing l with
  | zero => exact ⟨l, .refl l, Multiset.card_eq_zero.1 hcard, rfl, rfl⟩
  | succ n ih =>
    have hpos : 0 < l.plugin.queued.card := by omega
    obtain ⟨key, hkey⟩ := Multiset.card_pos_iff_exists_mem.1 hpos
    let m : Link V := { l with plugin := l.plugin.deliverNewSubscribe key }
    have hm : m.plugin.queued.card = n := by
      show (l.plugin.deliverNewSubscribe key).queued.card = n
      rw [ContextKitPlugin.deliverNewSubscribe, ContextKitPlugin.newSubscribe_queued,
        Multiset.card_erase_of_mem hkey, hcard]
      rfl
    obtain ⟨k, hk, hqueued, happeared, hprovider⟩ := ih m hm
    exact ⟨k, .trans (.of_step (e := .newSubscribe key) trivial (if_pos hkey)) hk, hqueued,
      happeared, hprovider⟩

theorem quiet_report (h : l.Quiet) (key : String) (value : TimedValue V) :
    Quiet { l with provider := (l.provider.onPluginValueChanged key value).1 } := by
  refine ⟨h.appearedQueued, ?_, h.queued⟩
  unfold Provider.onPluginValueChanged
  split_ifs <;> exact h.callQueue

/-- A reply leaves the main loop at rest. -/
theorem quiet_finish (h : l.Quiet) (id : ℕ) (value : Option (TimedValue V)) :
    (l.finish id value).Quiet := by
  have hplugin (m : Link V) (hm : m.Quiet) : Quiet { m with plugin := m.plugin.onFinished id } := by
    rw [m.plugin.onFinished_eq id]
    exact ⟨hm.appearedQueued, hm.callQueue, hm.queued⟩
  unfold finish
  cases l.plugin.watchers[id]? with
  | none => exact hplugin l h
  | some key =>
    cases value with
    | none => exact hplugin l h
    | some value => exact hplugin _ (quiet_report h key value)

/-- The main loop comes to rest. -/
theorem exists_quiet (hl : l.Linked) : ∃ m, Leads step OfLoop l m ∧ m.Quiet := by
  obtain ⟨l₁, h₁, hconstructed⟩ := l.exists_constructed
  have hl₁ := linked_of_leads hl h₁
  obtain ⟨l₂, h₂, happeared, hqueue⟩ := exists_appeared hl₁
  obtain ⟨l₃, h₃, happeared', hqueue'⟩ := exists_handled (linked_of_leads hl₁ h₂)
  obtain ⟨l₄, h₄, hqueued, happeared'', hprovider⟩ := l₃.exists_subscribed
  refine ⟨l₄, (h₁.trans h₂).trans (h₃.trans h₄), ?_, ?_, hqueued⟩
  · rw [happeared'', happeared', happeared]
  · rw [hprovider, hqueue', hqueue, Finset.eq_empty_iff_forall_notMem]
    intro method hmem
    cases method with
    | constructPlugin => exact hconstructed (Finset.mem_of_mem_erase hmem)
    | handleSubscribes => exact Finset.notMem_erase _ _ hmem

end Link

end ContextSubscriber

namespace ContextDelivery
open ContextKit ContextProvider ContextSubscriber Transition

namespace Wire

variable {C V : Type} [QVariant V] [DecidableEq C] {self : C} {key : String} {S : Set String}
  {s t : Wire C V}

/-- What happens by itself: the main loop of the subscriber, the bus and the provider's process do
their work, and no user of theirs does anything. -/
def ByItself : WireEvent C V → Prop
  | .link e => Link.OfLoop e
  | .rule | .refuse | .deliver => True
  | .serve handler => handler = []
  | _ => False

/-- The wire gets from one state to another by itself. -/
abbrev Drains (me : C) (key : String) (s t : Wire C V) : Prop := Leads (step me key) ByItself s t

/-- Provider and subscriptions stay as they are. -/
structure Same (key : String) (s t : Wire C V) : Prop where
  up : t.up = s.up
  subscribed : key ∈ t.link.provider.subscribedKeys ↔ key ∈ s.link.provider.subscribedKeys

theorem wired_of_drains (hS : Set.InjOn keyToPath S) (hkey : key ∈ S) (hw : s.Wired S self key)
    (h : Drains self key s t) : t.Wired S self key := by
  refine h.inv (fun s e t hw he hstep => wired_step hS hkey hw ?_ hstep) hw
  cases e with
  | link e =>
    cases e with
    | subscribe k => exact he.elim
    | unsubscribe k => exact he.elim
    | _ => trivial
  | _ => trivial

/-- The main loop comes to rest, and no message has been handled. -/
theorem exists_quiet (self : C) (hw : s.Wired S self key) :
    ∃ t, Drains self key s t ∧ t.link.Quiet ∧ t.toSubscriber = s.toSubscriber := by
  obtain ⟨m, ⟨es, hes, hrun⟩, hquiet⟩ := Link.exists_quiet hw.sound.linked
  suffices h : ∃ t, Drains self key s t ∧ t.link = m ∧ t.toSubscriber = s.toSubscriber by
    obtain ⟨t, hdrains, rfl, hto⟩ := h
    exact ⟨t, hdrains, hquiet, hto⟩
  clear hquiet hw
  induction es generalizing s with
  | nil =>
    obtain rfl := Option.some.inj hrun
    exact ⟨s, .refl s, rfl, rfl⟩
  | cons e es ih =>
    obtain ⟨he, hes⟩ := List.forall_mem_cons.1 hes
    obtain ⟨l, hl, hrun⟩ := run_cons_eq_some.1 hrun
    obtain ⟨t, hdrains, hlink, hto⟩ := ih (s := s.advance key l) hes hrun
    refine ⟨t, .trans (.of_step (e := .link e) he ?_) hdrains, hlink, hto⟩
    have hin : s.Inside key e := by
      cases e with
      | reply id value => exact he.elim
      | serviceRegistered => exact he.elim
      | serviceUnregistered => exact he.elim
      | blockUntilSubscribed k order value => exact he.elim
      | _ => trivial
    rw [step, if_pos hin, hl, Option.map_some]

/-- The rules get to the bus. -/
theorem exists_ruled (self : C) (key : String) (s : Wire C V) :
    ∃ t, Drains self key s t ∧ t.rules = [] ∧ t.link = s.link ∧ t.calls = s.calls ∧
      t.toSubscriber = s.toSubscriber := by
  induction hrules : s.rules generalizing s with
  | nil => exact ⟨s, .refl s, hrules, rfl, rfl, rfl⟩
  | cons rule rules ih =>
    obtain ⟨t, hdrains, ht⟩ := ih { s with rules := rules, matched := rule } rfl
    exact ⟨t, .trans (.of_step (e := .rule) trivial (by rw [step, hrules])) hdrains, ht⟩

/-- The calls are handled or refused, and no notice comes from that. -/
theorem exists_called (self : C) (key : String) (s : Wire C V) :
    ∃ t, Drains self key s t ∧ t.calls = [] ∧ t.link = s.link ∧ t.rules = s.rules ∧
      t.toSubscriber.filterMap BusMessage.notice = s.toSubscriber.filterMap BusMessage.notice := by
  induction hcalls : s.calls generalizing s with
  | nil => exact ⟨s, .refl s, hcalls, rfl, rfl, rfl⟩
  | cons call calls ih =>
    cases hup : s.up with
    | true =>
      let r := { s with calls := calls }.handleCall self call []
      have hr : r.calls = calls ∧ r.link = s.link ∧ r.rules = s.rules := by
        cases call <;> exact ⟨rfl, rfl, rfl⟩
      have hnotice : r.toSubscriber.filterMap BusMessage.notice =
          s.toSubscriber.filterMap BusMessage.notice := by
        cases call <;> exact filterMap_notice_publish _ _ _
      obtain ⟨t, hdrains, hnil, hlink, hrules, hto⟩ := ih r hr.1
      refine ⟨t, .trans (.of_step (e := .serve []) rfl ?_) hdrains, hnil, hlink.trans hr.2.1,
        hrules.trans hr.2.2, hto.trans hnotice⟩
      rw [step, hcalls]
      exact if_pos hup
    | false =>
      let r := { s with calls := calls }.refuseCall call
      have hnotice : r.toSubscriber.filterMap BusMessage.notice =
          s.toSubscriber.filterMap BusMessage.notice := by
        show (s.toSubscriber ++ (call.id?.map (BusMessage.reply · none)).toList).filterMap _ = _
        cases call <;> simp [ObjectCall.id?, BusMessage.notice]
      obtain ⟨t, hdrains, hnil, hlink, hrules, hto⟩ := ih r rfl
      refine ⟨t, .trans (.of_step (e := .refuse) trivial ?_) hdrains, hnil, hlink, hrules,
        hto.trans hnotice⟩
      rw [step, hcalls]
      simp [hup, r]

/-- The next message can be handled.  One that is no notice leaves the subscriber at rest. -/
theorem exists_delivered (hw : s.Wired S self key) {m : BusMessage V} {ms : List (BusMessage V)}
    (hms : s.toSubscriber = m :: ms) :
    ∃ t, s.step self key .deliver = some t ∧ t.toSubscriber = ms ∧
      (m.notice = none → s.link.Quiet →
        t.link.Quiet ∧ t.calls = s.calls ∧ t.rules = s.rules) := by
  have hreceive : s.step self key .deliver = receive key { s with toSubscriber := ms } m := by
    rw [step, hms]
  have hconstructed : m.notice ≠ none → s.link.provider.pluginConstructed = true := by
    intro hm
    by_contra hnot
    have hnil := hw.noticed.unheard (by simpa using hnot)
    rw [notices, hms, List.append_eq_nil_iff, List.filterMap_eq_nil_iff] at hnil
    exact hm (hnil.2 m List.mem_cons_self)
  rw [hreceive]
  cases m with
  | reply id content =>
    have hid : id ∈ s.link.plugin.unfinished :=
      hw.awaited.unfinished id (List.mem_append_right _ (by rw [hms]; exact List.mem_cons_self))
    have hview := Link.view_finish key (l := s.link) id
      (content.map fun c => createTimedValue c.values c.timestamp)
    refine ⟨_, by rw [receive, Link.step, if_pos hid]; rfl, rfl, fun _ hquiet => ?_⟩
    refine ⟨Link.quiet_finish hquiet _ _, ?_, ?_⟩
    · show s.calls ++ newCalls key _ _ = s.calls
      rw [newCalls_of_eq (congrArg KeyView.calls hview), List.append_nil]
    · show s.rules ++ newRules key _ _ = s.rules
      have hconnected := congrArg KeyView.connected hview
      rw [newRules, if_pos (by simpa [Link.view] using hconnected), List.append_nil]
  | valueChanged content =>
    refine ⟨_, rfl, ?_⟩
    split_ifs
    · cases s.link.plugin.onNewValueChanged (keyToPath key) content.values content.timestamp with
      | none => exact ⟨rfl, fun _ hquiet => ⟨hquiet, rfl, rfl⟩⟩
      | some v => exact ⟨rfl, fun _ hquiet => ⟨Link.quiet_report hquiet _ _, rfl, rfl⟩⟩
    · exact ⟨rfl, fun _ hquiet => ⟨hquiet, rfl, rfl⟩⟩
  | serviceRegistered =>
    have hc := hconstructed (by simp [BusMessage.notice])
    rw [receive, Link.step, if_pos hc]
    dsimp only
    split_ifs <;> exact ⟨_, rfl, rfl, fun hm => by cases hm⟩
  | serviceUnregistered =>
    have hc := hconstructed (by simp [BusMessage.notice])
    rw [receive, Link.step, if_pos hc]
    dsimp only
    split_ifs <;> exact ⟨_, rfl, rfl, fun hm => by cases hm⟩

/-- All messages are handled. -/
theorem exists_emptied (hS : Set.InjOn keyToPath S) (hkey : key ∈ S) (hw : s.Wired S self key) :
    ∃ t, Drains self key s t ∧ t.toSubscriber = [] ∧
      (s.toSubscriber.filterMap BusMessage.notice = [] → s.link.Quiet →
        t.link.Quiet ∧ t.calls = s.calls ∧ t.rules = s.rules) := by
  induction hms : s.toSubscriber generalizing s with
  | nil => exact ⟨s, .refl s, hms, fun _ hquiet => ⟨hquiet, rfl, rfl⟩⟩
  | cons m ms ih =>
    obtain ⟨u, hstep, hto, hkept⟩ := exists_delivered hw hms
    have hdrains : Drains self key s u := .of_step (e := .deliver) trivial hstep
    obtain ⟨t, hdrains', hnil, hkept'⟩ := ih (wired_of_drains hS hkey hw hdrains) hto
    refine ⟨t, hdrains.trans hdrains', hnil, fun hnotices hquiet => ?_⟩
    rw [List.filterMap_eq_nil_iff, List.forall_mem_cons, ← List.filterMap_eq_nil_iff] at hnotices
    obtain ⟨hu, hcalls, hrules⟩ := hkept hnotices.1 hquiet
    obtain ⟨ht, hcalls', hrules'⟩ := hkept' hnotices.2 hu
    exact ⟨ht, hcalls'.trans hcalls, hrules'.trans hrules⟩

/-! ### Every reachable state -/

theorem same_of_move (hS : Set.InjOn keyToPath S) (hkey : key ∈ S) (hw : s.Wired S self key)
    {e : WireEvent C V} (he : ByItself e) (hmove : WireMove self key s e t) : s.Same key t := by
  have hs := hw.sound
  have of_view {m : Link V} (h : (m.view key).subscribed = (s.link.view key).subscribed) :
      key ∈ m.provider.subscribedKeys ↔ key ∈ s.link.provider.subscribedKeys :=
    decide_eq_decide.1 h
  cases hmove with
  | @inside e m hin hstep =>
    refine ⟨rfl, of_view ?_⟩
    cases insideMove_of_step hS hkey hs.linked hs.within hin hstep with
    | wanted hview => exact he.elim
    | unwanted hview => exact he.elim
    | called hpending =>
      exact (congrArg KeyView.subscribed (Link.view_newSubscribe hpending)).trans rfl
    | moved hview => exact hview.subscribed
  | @served call calls handler hcalls hup => cases call <;> exact ⟨rfl, Iff.rfl⟩
  | elsewhere helse => exact he.elim
  | started hup => exact he.elim
  | stopped handler hup => exact he.elim
  | exited now hup => exact he.elim
  | @replied id content ms m hms hstep =>
    refine ⟨rfl, of_view ?_⟩
    simp only [Link.step, Option.ite_none_right_eq_some, Option.some.injEq] at hstep
    obtain ⟨-, rfl⟩ := hstep
    exact congrArg KeyView.subscribed (Link.view_finish key id _)
  | changed hms hconnected hentry =>
    exact ⟨rfl, of_view (congrArg KeyView.subscribed (Link.view_onPluginValueChanged key _ _))⟩
  | appeared hms hstep =>
    exact ⟨rfl, of_view
      (Link.keyMove_of_notice hS hkey hs.linked hs.within (.inl rfl) hstep).subscribed⟩
  | disappeared hms hstep =>
    exact ⟨rfl, of_view
      (Link.keyMove_of_notice hS hkey hs.linked hs.within (.inr rfl) hstep).subscribed⟩
  | _ => exact ⟨rfl, Iff.rfl⟩

theorem same_of_drains (hS : Set.InjOn keyToPath S) (hkey : key ∈ S) (hw : s.Wired S self key)
    (h : Drains self key s t) : s.Same key t := by
  have hinv : t.Wired S self key ∧ s.Same key t := by
    refine h.inv (P := fun t => t.Wired S self key ∧ s.Same key t) (fun u e v hu he hstep => ?_)
      ⟨hw, rfl, Iff.rfl⟩
    have hsame := same_of_move hS hkey hu.1 he (wireMove_of_step hstep)
    exact ⟨wired_of_drains hS hkey hu.1 (.of_step he hstep), hsame.up.trans hu.2.up,
      hsame.subscribed.trans hu.2.subscribed⟩
  exact hinv.2

/-- **Nothing is stuck.**  In every run over keys with different object paths, in which only wanted
keys are taken back, the wire can come to rest by itself, and it keeps the provider and the wish of
the user as they are. -/
theorem exists_settled (hS : Set.InjOn keyToPath S) (hkey : key ∈ S) {now : ℕ}
    {es : List (WireEvent C V)}
    (hproper : Along (step self key) (Proper S) (init now) es)
    (hrun : run (step self key) (init now) es = some s) :
    ∃ t, Drains self key s t ∧ t.Settled ∧ t.rules = [] ∧ s.Same key t := by
  have hw : s.Wired S self key := by
    refine run_inv_along (fun s e t hs hC hstep => ?_) (wired_init now) hproper hrun
    exact wired_step hS hkey hs hC hstep
  -- The messages that are there may start the main loop again, those that are sent later do not.
  obtain ⟨s₁, h₁, hto₁, -⟩ := exists_emptied hS hkey hw
  have hw₁ := wired_of_drains hS hkey hw h₁
  obtain ⟨s₂, h₂, hquiet, hto₂⟩ := exists_quiet self hw₁
  obtain ⟨s₃, h₃, hrules, hlink₃, -, hto₃⟩ := exists_ruled self key s₂
  obtain ⟨s₄, h₄, hcalls, hlink₄, hrules₄, hto₄⟩ := exists_called self key s₃
  have h₁₄ := h₁.trans (h₂.trans (h₃.trans h₄))
  obtain ⟨t, ht, hnil, hkept⟩ := exists_emptied hS hkey (wired_of_drains hS hkey hw h₁₄)
  have hnotices : s₄.toSubscriber.filterMap BusMessage.notice = [] := by
    rw [hto₄, hto₃, hto₂, hto₁, List.filterMap_nil]
  obtain ⟨hquiet', hcalls', hrules'⟩ := hkept hnotices (by rwa [hlink₄, hlink₃])
  refine ⟨t, h₁₄.trans ht, ⟨hquiet', hcalls'.trans hcalls, hnil⟩, ?_, ?_⟩
  · rw [hrules', hrules₄, hrules]
  · exact same_of_drains hS hkey hw (h₁₄.trans ht)

/-- The provider starts after the subscriber has called it. -/
def calledAndStarted : List (WireEvent String (Option ℤ)) :=
  [.link .constructPlugin, .link .providerAppeared, .link (.subscribe "Screen.TopEdge"),
    .link .handleSubscribes, .link (.newSubscribe "Screen.TopEdge"), .start]

theorem exists_settled_calledAndStarted :
    ∃ s : Wire String (Option ℤ),
      run (step ":1.1" "Screen.TopEdge") (init 1) calledAndStarted = some s ∧
      ∃ t, Drains ":1.1" "Screen.TopEdge" s t ∧ t.Settled ∧ t.rules = [] ∧
        s.Same "Screen.TopEdge" t := by
  have hproper : Along (step ":1.1" "Screen.TopEdge") (Proper {"Screen.TopEdge"})
      (init 1 : Wire String (Option ℤ)) calledAndStarted :=
    .cons trivial rfl <| .cons trivial rfl <| .cons rfl rfl <| .cons trivial rfl <|
      .cons trivial rfl <| .cons trivial rfl trivial
  refine ⟨_, rfl, ?_⟩
  exact exists_settled (Set.injOn_singleton _ _) (Set.mem_singleton _) hproper rfl

end Wire

end ContextDelivery
