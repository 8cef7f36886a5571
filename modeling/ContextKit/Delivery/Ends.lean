import ContextKit.Delivery.WireMoves

/-!
# The two ends of a wire

What the two ends of a `Wire` keep by themselves, whatever is on its way between them: a property
that is not asked sends signals only (`SignalsOnly`), a key of the plugin is connected if its last
call was `Subscribe` (`Told`), and `Sound` is the invariant of the subscriber's end.
-/

namespace ContextProvider
open ContextKit

namespace PropertyAdaptor

variable {C V : Type}

/-! ### The messages of an adaptor -/

/-- From `a` to `b` nothing has been sent but signals. -/
def SignalsOnly (a b : PropertyAdaptor C V) : Prop :=
  ∃ ms : List (ValueChanged V), b.sent = ms.map .signal ++ a.sent

theorem SignalsOnly.refl (a : PropertyAdaptor C V) : a.SignalsOnly a := ⟨[], rfl⟩

theorem SignalsOnly.trans {a b c : PropertyAdaptor C V} (h : a.SignalsOnly b)
    (h' : b.SignalsOnly c) : a.SignalsOnly c := by
  obtain ⟨ms, hms⟩ := h
  obtain ⟨ns, hns⟩ := h'
  exact ⟨ns ++ ms, by rw [hns, hms, List.map_append, List.append_assoc]⟩

theorem signalsOnly_forward (a : PropertyAdaptor C V)
    (r : PropertyPrivate V × Option (ValueChanged V)) : a.SignalsOnly (a.forward r) := by
  refine ⟨r.2.toList, ?_⟩
  unfold PropertyAdaptor.forward
  cases r.2 <;> rfl

variable [QVariant V]

theorem clientServiceNames_handle (a : PropertyAdaptor C V) (handler : List (V × ℕ)) :
    (a.handle handler).clientServiceNames = a.clientServiceNames := by
  induction handler generalizing a with
  | nil => rfl
  | cons s handler ih => exact ih (a.setValue s.1 s.2)

theorem signalsOnly_handle (a : PropertyAdaptor C V) (handler : List (V × ℕ)) :
    a.SignalsOnly (a.handle handler) := by
  induction handler generalizing a with
  | nil => exact .refl a
  | cons s handler ih => exact (signalsOnly_forward a _).trans (ih (a.setValue s.1 s.2))

theorem setSubscribed_frame (a : PropertyAdaptor C V) (handler : List (V × ℕ)) :
    (a.setSubscribed handler).1.clientServiceNames = a.clientServiceNames ∧
      a.SignalsOnly (a.setSubscribed handler).1 := by
  let b := { a with propertyPrivate := a.propertyPrivate.setSubscribed.1 }
  have hb : a.SignalsOnly b := ⟨[], rfl⟩
  unfold setSubscribed
  dsimp only
  split_ifs
  · exact ⟨clientServiceNames_handle b handler, hb.trans (signalsOnly_handle b handler)⟩
  · exact ⟨rfl, hb⟩

theorem setUnsubscribed_frame (a : PropertyAdaptor C V) (handler : List (V × ℕ)) :
    (a.setUnsubscribed handler).1.clientServiceNames = a.clientServiceNames ∧
      a.SignalsOnly (a.setUnsubscribed handler).1 := by
  let b := { a with propertyPrivate := a.propertyPrivate.setUnsubscribed.1 }
  have hb : a.SignalsOnly b := ⟨[], rfl⟩
  unfold setUnsubscribed
  dsimp only
  split_ifs
  · exact ⟨clientServiceNames_handle b handler, hb.trans (signalsOnly_handle b handler)⟩
  · exact ⟨rfl, hb⟩

theorem forgetClients_frame (a : PropertyAdaptor C V) (handler : List (V × ℕ)) :
    (a.forgetClients handler).1.clientServiceNames = ∅ ∧
      a.SignalsOnly (a.forgetClients handler).1 :=
  setUnsubscribed_frame { a with clientServiceNames := ∅ } handler

variable [DecidableEq C]

theorem addClient_frame (a : PropertyAdaptor C V) (client : C) (handler : List (V × ℕ)) :
    (a.addClient client handler).1.clientServiceNames = insert client a.clientServiceNames ∧
      a.SignalsOnly (a.addClient client handler).1 := by
  unfold addClient
  dsimp only
  by_cases hmem : client ∈ a.clientServiceNames
  · rw [if_neg (not_not.2 hmem), Finset.insert_eq_of_mem hmem]
    exact ⟨rfl, .refl a⟩
  · rw [if_pos hmem]
    split_ifs
    · exact setSubscribed_frame { a with
        clientServiceNames := insert client a.clientServiceNames } handler
    · exact ⟨rfl, [], rfl⟩

theorem Unsubscribe_frame (a : PropertyAdaptor C V) (client : C) (handler : List (V × ℕ)) :
    (a.Unsubscribe client handler).1.clientServiceNames = a.clientServiceNames.erase client ∧
      a.SignalsOnly (a.Unsubscribe client handler).1 := by
  unfold PropertyAdaptor.Unsubscribe
  dsimp only
  split_ifs with hmem
  · exact setUnsubscribed_frame { a with
      clientServiceNames := a.clientServiceNames.erase client } handler
  · exact ⟨rfl, [], rfl⟩
  · exact ⟨(Finset.erase_eq_of_notMem hmem).symm, .refl a⟩

theorem onClientExited_frame (a : PropertyAdaptor C V) (client : C) (handler : List (V × ℕ)) :
    (a.onClientExited client handler).1.clientServiceNames = a.clientServiceNames.erase client ∧
      a.SignalsOnly (a.onClientExited client handler).1 := by
  unfold PropertyAdaptor.onClientExited
  dsimp only
  split_ifs
  · exact setUnsubscribed_frame { a with
      clientServiceNames := a.clientServiceNames.erase client } handler
  · exact ⟨rfl, [], rfl⟩

/-- `Subscribe` sends a reply, after the signals of the handler. -/
theorem Subscribe_frame (a : PropertyAdaptor C V) (client : C) (handler : List (V × ℕ)) :
    (a.Subscribe client handler).1.clientServiceNames = insert client a.clientServiceNames ∧
      ∃ (content : ValueChanged V) (ms : List (ValueChanged V)),
        (a.Subscribe client handler).1.sent =
          .reply client content :: ms.map .signal ++ a.sent := by
  obtain ⟨hclients, ms, hms⟩ := a.addClient_frame client handler
  exact ⟨hclients, _, ms, congrArg _ hms⟩

end PropertyAdaptor

end ContextProvider

namespace ContextSubscriber
open ContextKit Transition

namespace KeyView

/-- The connection and the entry of a key are what the last call on its object says. -/
structure Told (v : KeyView) (key : String) : Prop where
  connected : v.connected = true ↔ v.calls.getLast? = some .subscribe
  entry : v.entry = if v.calls.getLast? = some .subscribe then some key else none

/-- A wanted key is not about to be unsubscribed. -/
def Disjoint (v : KeyView) : Prop := v.subscribed = true → v.toUnsubscribe = false

variable {v w : KeyView} {key : String}

theorem Told.move (h : v.Told key) (hmove : KeyMove v w) : w.Told key := by
  cases hmove with
  | handled hstate =>
    unfold handled cleared
    cases hu : v.toUnsubscribe
    · exact ⟨by simpa using h.connected, by simpa using h.entry⟩
    · exact ⟨by simp, by simp⟩
  | _ => exact ⟨h.connected, h.entry⟩

theorem Told.called : (v.called key).Told key :=
  ⟨by simp [KeyView.called], by simp [KeyView.called]⟩

theorem Disjoint.move (h : v.Disjoint) (hmove : KeyMove v w) : w.Disjoint := by
  cases hmove with
  | idle => exact h
  | _ => exact fun _ => rfl

end KeyView

/-- The automaton makes at most one call of its own. -/
theorem KeyMove.calls {v w : KeyView} (hmove : KeyMove v w) :
    w.calls = v.calls ∨ w.calls = v.calls ++ [.unsubscribe] := by
  cases hmove with
  | handled hstate =>
    unfold KeyView.handled KeyView.cleared
    dsimp only
    split_ifs
    · exact Or.inr rfl
    · exact Or.inl rfl
  | _ => exact Or.inl rfl

namespace Link

variable {V : Type} {l m : Link V}

/-- A provider that is initializing is waiting for its plugin to be constructed, or to be called;
before it is constructed nothing is known. -/
structure Started (l : Link V) : Prop where
  initializing : l.provider.pluginState = .initializing →
    l.provider.pluginConstructed = false ∧ Method.constructPlugin ∈ l.provider.callQueue ∨
      l.appearedQueued = true
  early : l.provider.pluginConstructed = false → l.provider.pluginState = .initializing ∧
    l.appearedQueued = false ∧ l.listener.servicePresent = .unknown

theorem started_init : (init : Link V).Started :=
  ⟨fun _ => Or.inl ⟨rfl, by simp [init, Provider.init]⟩, fun _ => ⟨rfl, rfl, rfl⟩⟩

/-- Events that leave the construction of the plugin and the state alone. -/
theorem Started.frame (h : l.Started) (hstate : m.provider.pluginState = l.provider.pluginState)
    (hconstructed : m.provider.pluginConstructed = l.provider.pluginConstructed)
    (hqueue : Method.constructPlugin ∈ l.provider.callQueue →
      Method.constructPlugin ∈ m.provider.callQueue)
    (happeared : m.appearedQueued = l.appearedQueued) (hlistener : m.listener = l.listener) :
    m.Started where
  initializing := by
    rw [hstate, hconstructed, happeared]
    exact fun hs => (h.initializing hs).imp_left (And.imp_right hqueue)
  early := by
    rw [hconstructed, hstate, happeared, hlistener]
    exact h.early

/-- A provider that is constructed and not initializing any more. -/
theorem Started.of_ne (hconstructed : m.provider.pluginConstructed = true)
    (hstate : m.provider.pluginState ≠ .initializing) : m.Started :=
  ⟨fun hs => absurd hs hstate, fun hc => absurd (hconstructed.symm.trans hc) (by decide)⟩

/-- Calls of the plugin change nothing but the plugin. -/
theorem exists_carryOut (l : Link V) (r : Provider String V × Outcome String) :
    ∃ p, l.carryOut r = { l with provider := r.1, plugin := p } := by
  unfold carryOut
  induction r.2.calls using List.reverseRecOn with
  | nil => exact ⟨l.plugin, rfl⟩
  | append_singleton calls c ih =>
    obtain ⟨p, hp⟩ := ih
    rw [List.foldl_append, hp]
    cases c <;> exact ⟨_, rfl⟩

theorem Started.report (h : l.Started) (k : String) (v : TimedValue V) :
    Started { l with provider := (l.provider.onPluginValueChanged k v).1 } := by
  unfold Provider.onPluginValueChanged
  split_ifs
  · exact h.frame rfl rfl id rfl rfl
  · exact h

theorem Started.finish (h : l.Started) (id : ℕ) (value : Option (TimedValue V)) :
    (l.finish id value).Started := by
  unfold Link.finish
  cases l.plugin.watchers[id]? with
  | none => exact h.frame rfl rfl (fun hq => hq) rfl rfl
  | some k =>
    cases value with
    | none => exact h.frame rfl rfl (fun hq => hq) rfl rfl
    | some v => exact (h.report k v).frame rfl rfl (fun hq => hq) rfl rfl

/-- The plugin's slot for an appearing provider: a provider that was initializing becomes ready. -/
theorem started_emit (h : l.plugin.Modern) (hconstructed : l.provider.pluginConstructed = true)
    {listener : DBusNameListener}
    (hlistener : l.provider.pluginState = .initializing → listener.servicePresent ≠ .notPresent) :
    (l.emit (l.plugin.onProviderAppeared listener)).Started := by
  rw [emit_eq h]
  split_ifs with hc
  · exact .of_ne hconstructed (by simp)
  · refine .of_ne hconstructed fun hs => hc ⟨hlistener hs, ?_⟩
    rw [hs]
    decide

theorem started_step (h : l.Started) (hl : l.Linked) {e : LinkEvent V}
    (hblock : ¬ Blocks e) (hstep : l.step e = some m) :
    m.Started := by
  have hpresent : l.provider.pluginState = .initializing →
      l.listener.servicePresent ≠ .notPresent := by
    intro hs hn
    rw [hl.failed.2 hn] at hs
    cases hs
  cases e with
  | constructPlugin =>
    simp only [step, Option.ite_none_right_eq_some, Option.some.injEq] at hstep
    obtain ⟨-, rfl⟩ := hstep
    unfold construct
    split_ifs with hc
    · refine ⟨fun hs => ?_, fun hn => absurd (hc.symm.trans hn) (by decide)⟩
      exact (h.initializing hs).imp_left fun hn => absurd (hc.symm.trans hn.1) (by decide)
    · exact ⟨fun _ => Or.inr rfl, fun hn => absurd hn (by simp)⟩
  | providerAppeared =>
    simp only [step, Option.ite_none_right_eq_some, Option.some.injEq] at hstep
    obtain ⟨hqueued, rfl⟩ := hstep
    have hconstructed : l.provider.pluginConstructed = true := by
      by_contra hc
      have := (h.early (by simpa using hc)).2.1
      exact absurd (hqueued.symm.trans this) (by decide)
    exact started_emit (l := { l with appearedQueued := false }) hl.modern hconstructed hpresent
  | handleSubscribes =>
    simp only [step, Option.ite_none_right_eq_some, Option.some.injEq] at hstep
    obtain ⟨-, rfl⟩ := hstep
    obtain ⟨p, hp⟩ := exists_carryOut l (l.provider.dequeue .handleSubscribes).handleSubscribes
    rw [hp]
    refine h.frame (Provider.handleSubscribes_pluginState _) ?_ ?_ rfl rfl
    · show ((l.provider.dequeue .handleSubscribes).handleSubscribes).1.pluginConstructed = _
      unfold Provider.handleSubscribes
      split <;> rfl
    · show _ → Method.constructPlugin ∈
        ((l.provider.dequeue .handleSubscribes).handleSubscribes).1.callQueue
      unfold Provider.handleSubscribes
      split <;> simp [Provider.dequeue, Provider.clearSchedules]
  | newSubscribe k =>
    simp only [step, Option.ite_none_right_eq_some, Option.some.injEq] at hstep
    obtain ⟨-, rfl⟩ := hstep
    exact h.frame rfl rfl id rfl rfl
  | subscribe k =>
    obtain rfl := Option.some.inj hstep
    exact h.frame (by simp) (Provider.subscribe_pluginConstructed _ k) (by simp) rfl rfl
  | unsubscribe k =>
    obtain rfl := Option.some.inj hstep
    exact h.frame (by simp) (Provider.unsubscribe_pluginConstructed _ k) (by simp) rfl rfl
  | serviceRegistered =>
    simp only [step, Option.ite_none_right_eq_some] at hstep
    obtain ⟨hconstructed, hstep⟩ := hstep
    split_ifs at hstep with hemit
    · cases hstep
      refine started_emit (l := { l with
        listener := l.listener.setServicePresent.1
        appearedAt := l.plugin.watchers.length }) hl.modern hconstructed fun _ => ?_
      rw [DBusNameListener.setServicePresent_present]
      decide
    · obtain rfl := Option.some.inj hstep
      refine ⟨fun hs => ?_, fun hc => absurd (hconstructed.symm.trans hc) (by decide)⟩
      exact h.initializing hs
  | serviceUnregistered =>
    simp only [step, Option.ite_none_right_eq_some] at hstep
    obtain ⟨hconstructed, hstep⟩ := hstep
    split_ifs at hstep
    · obtain rfl := Option.some.inj hstep
      rw [Provider.onPluginFailed, Provider.handleSubscribes_failed _ rfl]
      exact .of_ne hconstructed PluginState.noConfusion
    · obtain rfl := Option.some.inj hstep
      refine ⟨fun hs => ?_, fun hc => absurd (hconstructed.symm.trans hc) (by decide)⟩
      exact h.initializing hs
  | reply id value =>
    simp only [step, Option.ite_none_right_eq_some, Option.some.injEq] at hstep
    obtain ⟨-, rfl⟩ := hstep
    exact h.finish id value
  | blockUntilSubscribed k order v => exact absurd trivial hblock

/-- What always holds of the subscriber's end, for a key that is used with the keys of `S`. -/
structure Sound (S : Set String) (key : String) (l : Link V) : Prop where
  linked : l.Linked
  within : l.Within S
  started : l.Started
  told : (l.view key).Told key
  disjoint : (l.view key).Disjoint

variable {S : Set String} {key : String}

theorem sound_init : (init : Link V).Sound S key where
  linked := linked_init
  within := by constructor <;> simp [init, Provider.init, ContextKitPlugin.init]
  started := started_init
  told := by constructor <;> simp [view, init, ContextKitPlugin.init]
  disjoint _ := by simp [view, init, Provider.init]

theorem sound_step (hS : Set.InjOn keyToPath S) (hkey : key ∈ S) (h : l.Sound S key)
    {e : LinkEvent V} (he : ∀ k, wish e = some k → k ∈ S) (hstep : l.step e = some m)
    (hblock : ¬ Blocks e) : m.Sound S key := by
  have hview : (m.view key).Told key ∧ (m.view key).Disjoint := by
    by_cases hcall : e = .newSubscribe key ∧ key ∈ l.plugin.pendingKeys
    · obtain ⟨rfl, hpending⟩ := hcall
      simp only [step, Option.ite_none_right_eq_some, Option.some.injEq] at hstep
      obtain ⟨-, rfl⟩ := hstep
      rw [view_newSubscribe hpending]
      exact ⟨.called, h.disjoint⟩
    by_cases hwish : wish e = some key
    · cases e with
      | subscribe k =>
        obtain rfl := Option.some.inj hwish
        obtain rfl := Option.some.inj hstep
        exact view_subscribe (l := l) ▸ ⟨⟨h.told.connected, h.told.entry⟩, fun _ => rfl⟩
      | unsubscribe k =>
        obtain rfl := Option.some.inj hwish
        obtain rfl := Option.some.inj hstep
        rw [view_unsubscribe]
        exact ⟨⟨h.told.connected, h.told.entry⟩, fun hs => by cases hs⟩
      | _ => cases hwish
    · have hmove := keyMove_of_step hS hkey h.linked h.within hstep hwish (not_and.1 hcall)
        hblock
      exact ⟨h.told.move hmove, h.disjoint.move hmove⟩
  exact ⟨linked_step h.linked hstep, within_step h.within h.linked he hblock hstep,
    started_step h.started h.linked hblock hstep, hview.1, hview.2⟩

/-- The calls on the object of a key are only added to. -/
theorem calls_of_step (hS : Set.InjOn keyToPath S) (hkey : key ∈ S) (h : l.Sound S key)
    {e : LinkEvent V} (hstep : l.step e = some m) (hblock : ¬ Blocks e) :
    ∃ ms, (m.view key).calls = (l.view key).calls ++ ms := by
  by_cases hcall : e = .newSubscribe key ∧ key ∈ l.plugin.pendingKeys
  · obtain ⟨rfl, hpending⟩ := hcall
    simp only [step, Option.ite_none_right_eq_some, Option.some.injEq] at hstep
    obtain ⟨-, rfl⟩ := hstep
    rw [view_newSubscribe hpending]
    exact ⟨[.subscribe], rfl⟩
  by_cases hwish : wish e = some key
  · refine ⟨[], ?_⟩
    rw [List.append_nil]
    cases e with
    | subscribe k =>
      obtain rfl := Option.some.inj hstep
      rfl
    | unsubscribe k =>
      obtain rfl := Option.some.inj hstep
      rfl
    | _ => cases hwish
  · have hmove := keyMove_of_step hS hkey h.linked h.within hstep hwish (not_and.1 hcall)
        hblock
    rcases hmove.calls with hcalls | hcalls
    · exact ⟨[], by rw [hcalls, List.append_nil]⟩
    · exact ⟨_, hcalls⟩

theorem Sound.report (h : l.Sound S key) (k : String) (v : TimedValue V) :
    Sound S key { l with provider := (l.provider.onPluginValueChanged k v).1 } where
  linked := by
    refine linked_move h.linked (.idle ?_ (.refl _) rfl ⟨rfl, rfl⟩)
    unfold Provider.onPluginValueChanged
    split_ifs <;> exact ⟨rfl, rfl, rfl, rfl, fun hq => hq⟩
  within := h.within.congr fun _ => view_onPluginValueChanged _ k v
  started := h.started.report k v
  told := by
    rw [view_onPluginValueChanged]
    exact h.told
  disjoint := by
    rw [view_onPluginValueChanged]
    exact h.disjoint

end Link

end ContextSubscriber
