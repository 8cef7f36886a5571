import Mathlib.Data.List.TakeWhile
import ContextKit.Delivery.Wired

/-!
# What a provider sets arrives

When nothing is queued or on its way, a subscribed key has the value its provider has set, unless
one of three things has happened on the way there:

* the subscriber learned of the provider when it took it for granted already, and had asked for the
  key in vain (`MissesOwner`);
* a subscription did nothing but cancel an unsubscription, and a value had been dropped in between
  (`CancelsStale`);
* the property signalled its value before the match rule of its new client had got to the bus
  (`LosesSignal`): the plugin calls `Subscribe` first and connects the signal after that.

And the subscriber has to be told: the provider must not set a value that it takes for the one it
emitted, when this subscriber was told another one (`PropertyAdaptor.Confuses`).
-/

namespace ContextSubscriber

namespace KeyView

/-- A key that is wanted, or was until it is unsubscribed, is asked for or will be; `asked` says
that it has been asked for. -/
def Asking (v : KeyView) (asked : Prop) : Prop :=
  v.pluginState = .ready → (v.subscribed = true ∨ v.toUnsubscribe = true) →
    v.toSubscribe = true ∨ v.pending = true ∨ asked

variable {v w : KeyView} {asked asked' : Prop}

theorem Asking.imp (h : v.Asking asked) (hasked : asked → asked') : v.Asking asked' :=
  fun hready hwant => (h hready hwant).imp_right (Or.imp_right hasked)

theorem Asking.wanted (h : v.Asking asked) : v.wanted.Asking asked := by
  intro hready _
  cases hu : v.toUnsubscribe with
  | false => exact Or.inl (by simp [KeyView.wanted, hu])
  | true => exact (h hready (Or.inr hu)).imp_left fun ht => by simp [KeyView.wanted, ht]

/-- What is taken back had been asked for, or is just taken off the schedule. -/
theorem Asking.unwanted (h : v.Asking asked) (hsubscribed : v.subscribed = true)
    (hdisjoint : v.Disjoint) : v.unwanted.Asking asked := by
  intro hready hwant
  have hu := hdisjoint hsubscribed
  rcases h hready (Or.inl hsubscribed) with ht | hp | ha
  · simp [KeyView.unwanted, ht, hu] at hwant
  · exact Or.inr (Or.inl hp)
  · exact Or.inr (Or.inr ha)

theorem Asking.move (h : v.Asking asked) (hmove : KeyMove v w) (hdisjoint : v.Disjoint)
    (hasked : w.calls = v.calls → asked → asked') : w.Asking asked' := by
  cases hmove with
  | idle => exact h.imp (hasked rfl)
  | ready hstate =>
    intro _ hwant
    have hs : v.subscribed = true := by simpa [KeyView.renewed] using hwant
    exact Or.inr (Or.inl (by simp [KeyView.renewed, hs]))
  | failed => exact fun hready => by cases hready
  | handled hstate =>
    intro _ hwant
    have hs : v.subscribed = true := by simpa [KeyView.handled, KeyView.cleared] using hwant
    have hu := hdisjoint hs
    rcases h hstate (Or.inl hs) with ht | hp | ha
    · exact Or.inr (Or.inl (by simp [KeyView.handled, ht]))
    · exact Or.inr (Or.inl (by simp [KeyView.handled, hp]))
    · exact Or.inr (Or.inr (hasked (by simp [KeyView.handled, KeyView.cleared, hu]) ha))
  | forgotten hstate => exact fun hready => absurd (hstate.symm.trans hready) (by decide)

/-- A value of the key will be reported; `coming` says that one is on its way. -/
def Refreshing (v : KeyView) (coming : Prop) : Prop :=
  v.toSubscribe = true ∨ v.pending = true ∨ coming

theorem Refreshing.imp {coming coming' : Prop} (h : v.Refreshing coming)
    (hcoming : coming → coming') : v.Refreshing coming' := Or.imp_right (Or.imp_right hcoming) h

theorem Refreshing.move {coming : Prop} (hmove : KeyMove v w)
    (h : v.pluginState = .ready → v.subscribed = true → v.Refreshing coming)
    (hready : w.pluginState = .ready) (hsubscribed : w.subscribed = true) :
    w.Refreshing coming := by
  cases hmove with
  | idle => exact h hready hsubscribed
  | ready hstate =>
    have hs : v.subscribed = true := hsubscribed
    exact Or.inr (Or.inl (by simp [KeyView.renewed, hs]))
  | failed => cases hready
  | handled hstate =>
    rcases h hstate hsubscribed with ht | hp | hc
    · exact Or.inr (Or.inl (by simp [KeyView.handled, ht]))
    · exact Or.inr (Or.inl (by simp [KeyView.handled, hp]))
    · exact Or.inr (Or.inr hc)
  | forgotten hstate => exact absurd (hstate.symm.trans hready) (by decide)

end KeyView

end ContextSubscriber

namespace ContextDelivery
open ContextKit ContextProvider ContextSubscriber Transition

namespace Wire

variable {C V : Type} [QVariant V] [DecidableEq C] (self : C) (key : String) (s : Wire C V)

/-! ### What can go wrong -/

/-- The last call on its way is `Subscribe`, or that has got to the property. -/
def Asked : Prop :=
  s.calls.getLast?.map ObjectCall.member = some .subscribe ∨
    s.calls = [] ∧ self ∈ s.adaptor.clientServiceNames

/-- The subscriber's value is not the one that was reported last. -/
def Stale : Prop :=
  s.link.provider.values key ≠ s.reported.map fun c => createTimedValue c.values c.timestamp

/-- A value is on its way, or the call that brings one. -/
def Coming : Prop :=
  (∃ id, .Subscribe id ∈ s.calls) ∨ s.toSubscriber.filterMap BusMessage.content ≠ []

/-- The name of the provider is noticed while the plugin is ready, and nobody has asked the new
owner for the key or is about to. -/
def MissesOwner : Prop :=
  ∃ ms, s.toSubscriber = .serviceRegistered :: ms ∧ ms.filterMap BusMessage.notice = [] ∧
    s.link.provider.pluginState = .ready ∧
    (key ∈ s.link.provider.subscribedKeys ∨ key ∈ s.link.provider.toUnsubscribe) ∧
    key ∉ s.link.provider.toSubscribe ∧ key ∉ s.link.plugin.pendingKeys ∧ ¬ s.Asked self

/-- A subscription would only cancel an unsubscription, with a value that is not renewed. -/
def CancelsStale : Prop :=
  key ∈ s.link.provider.toUnsubscribe ∧ s.Stale key ∧ key ∉ s.link.plugin.pendingKeys ∧ ¬ s.Coming

/-- The property signals a value to a subscriber that has no match rule yet. -/
def LosesSignal (e : AdaptorEvent C V) : Prop :=
  s.calls = [] ∧ self ∈ s.adaptor.clientServiceNames ∧ s.matched = false ∧
    ∃ content, .signal content ∈ newMessages s.adaptor (s.adaptor.perform e).1

/-- All of this together. -/
def Spoils : WireEvent C V → Prop
  | .link (.subscribe k) => k = key ∧ s.CancelsStale key
  | .adaptor e => s.LosesSignal self e ∨ s.adaptor.Confuses self e
  | .deliver => s.MissesOwner self key
  | _ => False

/-- Nothing is queued in the subscriber, and nothing is on its way. -/
structure Settled : Prop where
  quiet : s.link.Quiet
  calls : s.calls = []
  toSubscriber : s.toSubscriber = []

variable {self key s} {S : Set String} {t : Wire C V} {e : WireEvent C V}

/-! ### What is asked for -/

omit [QVariant V] [DecidableEq C] in
theorem Asked.congr (h : s.Asked self) (hcalls : t.calls = s.calls)
    (hclients : self ∈ s.adaptor.clientServiceNames → self ∈ t.adaptor.clientServiceNames) :
    t.Asked self := by
  unfold Asked
  rw [hcalls]
  exact h.imp_right (And.imp_right hclients)

omit [QVariant V] [DecidableEq C] in
theorem Asked.advance (h : s.Asked self) {m : Link V}
    (hcalls : (m.view key).calls = (s.link.view key).calls) : (s.advance key m).Asked self := by
  refine h.congr ?_ id
  show s.calls ++ newCalls key _ _ = s.calls
  rw [newCalls_of_eq hcalls, List.append_nil]

/-- While the provider is there, and the subscriber knows it, the key is asked for or will be. -/
def Asking (me : C) (key : String) (s : Wire C V) : Prop :=
  s.up = true → s.toSubscriber.filterMap BusMessage.notice = [] →
    (s.link.view key).Asking (s.Asked me)

omit [QVariant V] [DecidableEq C] in
theorem asking_inside (h : s.Asking self key) (hs : s.link.Sound S key) {e : LinkEvent V}
    {m : Link V} (he : s.Proper S (.link e)) (hmove : InsideMove key s.link e m) :
    (s.advance key m).Asking self key := by
  intro hup hnotices
  have h := h hup hnotices
  have hasked : (m.view key).calls = (s.link.view key).calls → s.Asked self →
      (s.advance key m).Asked self := fun hcalls ha => ha.advance hcalls
  show (m.view key).Asking _
  cases hmove with
  | wanted hview =>
    rw [hview] at hasked ⊢
    exact (h.imp (hasked rfl)).wanted
  | unwanted hview =>
    rw [hview] at hasked ⊢
    exact (h.imp (hasked rfl)).unwanted (decide_eq_true he.2) hs.disjoint
  | called hpending =>
    refine fun _ _ => Or.inr (Or.inr (Or.inl ?_))
    rw [advance_newSubscribe hpending]
    simp [ObjectCall.member]
  | moved hview => exact h.move hview hs.disjoint hasked

/-- A call gets to the property: nothing is lost. -/
theorem asked_handleCall {call : ObjectCall} {calls : List ObjectCall} (handler : List (V × ℕ))
    (hcalls : s.calls = call :: calls) (h : s.Asked self) :
    ({ s with calls := calls }.handleCall self call handler).Asked self := by
  have hlast : (call :: calls).getLast?.map ObjectCall.member = some .subscribe := by
    rcases h with h | ⟨h, -⟩
    · rwa [hcalls] at h
    · rw [hcalls] at h
      cases h
  have ht : ({ s with calls := calls }.handleCall self call handler).calls = calls := by
    cases call <;> rfl
  unfold Asked
  rw [ht]
  rcases List.eq_nil_or_concat calls with rfl | ⟨cs, c, rfl⟩
  · cases call with
    | Subscribe id =>
      refine Or.inr ⟨rfl, ?_⟩
      show self ∈ (s.adaptor.Subscribe self handler).1.clientServiceNames
      rw [(s.adaptor.Subscribe_frame self handler).1]
      exact Finset.mem_insert_self _ _
    | Unsubscribe => cases hlast
  · refine Or.inl ?_
    rwa [List.getLast?_cons_of_ne_nil (by simp)] at hlast

omit [QVariant V] [DecidableEq C] in
/-- A message is handled that asks for nothing of the key. -/
theorem Asking.take (h : s.Asking self key) {m : BusMessage V} {ms : List (BusMessage V)}
    (hms : s.toSubscriber = m :: ms) (hm : m.notice = none) (hup : t.up = s.up)
    (hto : t.toSubscriber = ms) (hview : t.link.view key = s.link.view key)
    (hcalls : t.calls = s.calls) (hadaptor : t.adaptor = s.adaptor) : t.Asking self key := by
  intro htup hnotices
  rw [hview]
  refine (h (hup ▸ htup) ?_).imp fun ha => ha.congr hcalls (by rw [hadaptor]; exact id)
  rw [hms, List.filterMap_cons_none hm, ← hto, hnotices]

omit [QVariant V] [DecidableEq C] in
/-- The subscriber is told when the provider starts, unless it has no plugin yet. -/
theorem not_ready_of_started (hs : s.link.Sound S key)
    (hnotices : (s.notify .serviceRegistered).toSubscriber.filterMap BusMessage.notice = []) :
    s.link.provider.pluginState ≠ .ready := by
  cases hc : s.link.provider.pluginConstructed with
  | true => simp [notify, hc, BusMessage.notice] at hnotices
  | false =>
    rw [(hs.started.early hc).1]
    decide

omit [QVariant V] [DecidableEq C] in
/-- When the last notice is that the provider is gone, it is. -/
theorem Noticed.down_of_disappeared (h : s.Noticed) {ms : List (BusMessage V)}
    (hms : s.toSubscriber = .serviceUnregistered :: ms)
    (hnotices : ms.filterMap BusMessage.notice = []) : s.up = false := by
  refine (h.current false ?_).symm
  have hnil : (.serviceUnregistered :: ms).filterMap BusMessage.notice = [false] :=
    congrArg (false :: ·) hnotices
  rw [notices, hms, hnil]
  simp

theorem asking_move (hS : Set.InjOn keyToPath S) (hkey : key ∈ S) (h : s.Asking self key)
    (hw : s.Wired S self key) (he : s.Proper S e) (hspoil : ¬ s.Spoils self key e)
    (hmove : WireMove self key s e t) : t.Asking self key := by
  have hs := hw.sound
  cases hmove with
  | inside hin hstep =>
    exact asking_inside h hs he (insideMove_of_step hS hkey hs.linked hs.within hin hstep)
  | ruled hrules => exact h
  | @served call calls handler hcalls hup =>
    intro _ hnotices
    have hsame : ({ s with calls := calls }.handleCall self call handler).link = s.link := by
      cases call <;> rfl
    rw [hsame]
    refine (h hup ?_).imp (asked_handleCall handler hcalls)
    cases call <;> rwa [handleCall, filterMap_notice_publish] at hnotices
  | refused hcalls hup => exact fun hn => absurd (hup.symm.trans hn) (by decide)
  | elsewhere helse =>
    intro hup hnotices
    rw [filterMap_notice_publish] at hnotices
    exact (h hup hnotices).imp fun ha => ha.congr rfl (mem_elsewhere helse).2
  | started hup =>
    intro _ hnotices hready
    exact absurd hready (not_ready_of_started (s := s) hs hnotices)
  | stopped handler hup => exact fun hn => by cases hn
  | exited now hup => exact fun hn => by cases hn
  | @replied id content ms m hms hstep =>
    simp only [Link.step, Option.ite_none_right_eq_some, Option.some.injEq] at hstep
    obtain ⟨-, rfl⟩ := hstep
    have hview := Link.view_finish key (l := s.link) id
      (content.map fun c => createTimedValue c.values c.timestamp)
    refine h.take hms rfl rfl rfl hview ?_ rfl
    show s.calls ++ newCalls key _ _ = s.calls
    rw [newCalls_of_eq (congrArg KeyView.calls hview), List.append_nil]
  | changed hms hconnected hentry =>
    exact h.take hms rfl rfl rfl (Link.view_onPluginValueChanged _ _ _) rfl rfl
  | ignored hms hnot => exact h.take hms rfl rfl rfl rfl rfl rfl
  | @appeared m ms hms hstep =>
    intro hup hnotices
    have hmove := Link.keyMove_of_notice hS hkey hs.linked hs.within (.inl rfl) hstep
    have hasked : (s.link.view key).Asking (s.Asked self) := by
      intro hready hwant
      by_contra hnot
      refine hspoil ⟨ms, hms, hnotices, hready, ?_⟩
      simpa [Link.view, not_or] using And.intro hwant hnot
    exact hasked.move hmove hs.disjoint fun hcalls ha =>
      Asked.advance (s := { s with toSubscriber := ms }) ha hcalls
  | @disappeared m ms hms hstep =>
    intro hup hnotices
    have hdown := hw.noticed.down_of_disappeared hms hnotices
    exact absurd (hdown.symm.trans hup) (by decide)

/-! ### The reply of a new owner comes after its notice -/

/-- The messages that came after the last notice, the newest first. -/
def recent (ms : List (BusMessage V)) : List (BusMessage V) :=
  ms.reverse.takeWhile fun m => m.notice.isNone

omit [QVariant V] in
theorem recent_append {ms ns : List (BusMessage V)} (hns : ∀ m ∈ ns, m.notice = none) :
    recent (ms ++ ns) = ns.reverse ++ recent ms := by
  unfold recent
  rw [List.reverse_append, List.takeWhile_append_of_pos]
  intro m hm
  rw [hns m (List.mem_reverse.1 hm)]
  rfl

omit [QVariant V] in
/-- Where there is another notice behind the first message, that one does not count. -/
theorem recent_cons {m : BusMessage V} {ms : List (BusMessage V)}
    (hms : ms.filterMap BusMessage.notice ≠ []) : recent (m :: ms) = recent ms := by
  have hnot : (ms.reverse.takeWhile fun m => m.notice.isNone).length ≠ ms.reverse.length := by
    intro hlength
    have hall := List.takeWhile_eq_self_iff.1
      ((List.takeWhile_prefix _).eq_of_length hlength)
    refine hms (List.filterMap_eq_nil_iff.2 fun a ha => ?_)
    simpa using hall a (List.mem_reverse.2 ha)
  unfold recent
  rw [List.reverse_cons, List.takeWhile_append, if_neg hnot]

omit [QVariant V] in
/-- Where there is none, the rest is what came after it. -/
theorem recent_notice {m : BusMessage V} {ms : List (BusMessage V)} (hm : m.notice ≠ none)
    (hms : ms.filterMap BusMessage.notice = []) : recent (m :: ms) = ms.reverse := by
  have hall : ∀ a ∈ ms.reverse, a.notice.isNone = true := fun a ha => by
    rw [List.filterMap_eq_nil_iff.1 hms a (List.mem_reverse.1 ha)]
    rfl
  unfold recent
  rw [List.reverse_cons, List.takeWhile_append_of_pos hall]
  simp [Option.isNone_iff_eq_none, hm]

/-- While a notice is on its way, a client of the new owner has a value behind it. -/
def Behind (me : C) (s : Wire C V) : Prop :=
  s.toSubscriber.filterMap BusMessage.notice ≠ [] → me ∈ s.adaptor.clientServiceNames →
    (recent s.toSubscriber).filterMap BusMessage.content ≠ []

omit [QVariant V] [DecidableEq C] in
theorem Behind.append (h : s.Behind self) (ns : List (BusMessage V))
    (hns : ∀ m ∈ ns, m.notice = none) (hto : t.toSubscriber = s.toSubscriber ++ ns)
    (hclients : self ∈ t.adaptor.clientServiceNames → self ∈ s.adaptor.clientServiceNames ∨
      ns.filterMap BusMessage.content ≠ []) : t.Behind self := by
  intro hnotices hmem
  rw [hto, List.filterMap_append, List.filterMap_eq_nil_iff.2 hns, List.append_nil] at hnotices
  rw [hto, recent_append hns, List.filterMap_append]
  intro hnil
  obtain ⟨hnil, hold⟩ := List.append_eq_nil_iff.1 hnil
  rcases hclients hmem with hmem | hne
  · exact h hnotices hmem hold
  · rw [List.filterMap_reverse, List.reverse_eq_nil_iff] at hnil
    exact hne hnil

omit [QVariant V] [DecidableEq C] in
theorem Behind.take (h : s.Behind self) {m : BusMessage V} {ms : List (BusMessage V)}
    (hms : s.toSubscriber = m :: ms) (hto : t.toSubscriber = ms)
    (hadaptor : t.adaptor = s.adaptor) :
    t.Behind self := by
  unfold Behind
  rw [hto, hadaptor]
  intro hnotices hmem
  unfold Behind at h
  rw [hms, recent_cons hnotices] at h
  refine h (fun hnil => hnotices ?_) hmem
  rw [List.filterMap_eq_nil_iff] at hnil ⊢
  exact fun a ha => hnil a (List.mem_cons_of_mem m ha)

theorem behind_move (h : s.Behind self) (hw : s.Wired S self key)
    (hmove : WireMove self key s e t) : t.Behind self := by
  cases hmove with
  | @served call calls handler hcalls hup =>
    cases call with
    | Subscribe id =>
      obtain ⟨content, signals, -, hsignals, hto⟩ :=
        publish_Subscribe self { s with calls := calls } id handler
      refine h.append (signals ++ [.reply id (some content)]) ?_
        (hto.trans (List.append_assoc _ _ _)) fun _ => Or.inr (by simp [BusMessage.content])
      intro m hm
      rcases List.mem_append.1 hm with hm | hm
      · exact (hsignals m hm).2
      · rw [List.mem_singleton.1 hm]
        rfl
    | Unsubscribe =>
      intro _ hmem
      have hmem : self ∈ (s.adaptor.Unsubscribe self handler).1.clientServiceNames := hmem
      rw [(s.adaptor.Unsubscribe_frame self handler).1] at hmem
      exact absurd hmem (Finset.notMem_erase _ _)
  | refused hcalls hup =>
    intro _ hmem
    have hmem : self ∈ s.adaptor.clientServiceNames := hmem
    rw [hw.owned.down hup] at hmem
    exact absurd hmem (Finset.notMem_empty _)
  | elsewhere helse =>
    obtain ⟨ms, hto, hms⟩ := exists_publish self s (s.adaptor.perform _).1 none
    exact h.append ms hms hto fun hmem => Or.inl ((mem_elsewhere helse).1 hmem)
  | started hup =>
    intro _ hmem
    have hmem : self ∈ s.adaptor.clientServiceNames := hmem
    rw [hw.owned.down hup] at hmem
    exact absurd hmem (Finset.notMem_empty _)
  | stopped handler hup =>
    intro _ hmem
    have hmem : self ∈ (s.adaptor.forgetClients handler).1.clientServiceNames := hmem
    rw [(s.adaptor.forgetClients_frame handler).1] at hmem
    exact absurd hmem (Finset.notMem_empty _)
  | exited now hup => exact fun _ hmem => absurd hmem (Finset.notMem_empty _)
  | replied hms hstep => exact h.take hms rfl rfl
  | changed hms hconnected hentry => exact h.take hms rfl rfl
  | ignored hms hnot => exact h.take hms rfl rfl
  | appeared hms hstep => exact h.take hms rfl rfl
  | disappeared hms hstep => exact h.take hms rfl rfl
  | _ => exact h

/-! ### The last value on its way -/

omit [QVariant V] [DecidableEq C] in
/-- The entry of the path of the key can only be the key. -/
theorem eq_of_entry [QVariant V] {l : Link V} (h : l.Sound S key) {content : ValueChanged V}
    {k : String} {v : TimedValue V}
    (hentry : l.plugin.onNewValueChanged (keyToPath key) content.values content.timestamp =
      some (k, v)) : k = key ∧ v = createTimedValue content.values content.timestamp := by
  obtain ⟨k', hk', heq⟩ := Option.map_eq_some_iff.1 hentry
  obtain ⟨rfl, rfl⟩ := Prod.mk.inj heq
  have hk : (l.view key).entry = some k' := hk'
  rw [h.told.entry, Option.ite_none_right_eq_some] at hk
  exact ⟨(Option.some.inj hk.2).symm, rfl⟩

/-- A key that has been asked for is connected. -/
theorem Wired.not_ignored (hw : s.Wired S self key) (h : s.Asked self) :
    ¬ (keyToPath key ∉ s.link.plugin.connections ∨
      s.link.plugin.objectPathToKey (keyToPath key) = none) := by
  have hlast : (s.link.view key).calls.getLast? = some .subscribe := by
    rcases h with h | ⟨hnil, hmem⟩
    · have hne : s.calls ≠ [] := by
        intro hnil
        rw [hnil] at h
        cases h
      rw [← hw.inTransit.last hne, h]
    · exact hw.inTransit.client hnil hmem
  have hconn : keyToPath key ∈ s.link.plugin.connections :=
    of_decide_eq_true (hw.sound.told.connected.2 hlast)
  have hentry : s.link.plugin.objectPathToKey (keyToPath key) = some key :=
    hw.sound.told.entry.trans (if_pos hlast)
  simp [hconn, hentry]

/-- What a client has been told last is what it has received last, or is on its way to it. -/
def Latest (me : C) (s : Wire C V) : Prop :=
  s.up = true → me ∈ s.adaptor.clientServiceNames → s.calls = [] →
    latest BusMessage.content s.toSubscriber s.reported = s.adaptor.lastSent me

/-- Who else calls gets the replies. -/
theorem elsewhere_sent {e : AdaptorEvent C V} (he : s.Elsewhere self e) :
    ∃ ms, (s.adaptor.perform e).1.sent = ms ++ s.adaptor.sent ∧
      ∀ content, .reply self content ∉ ms := by
  have hsignals : ∀ {b : PropertyAdaptor C V}, s.adaptor.SignalsOnly b →
      ∃ ms, b.sent = ms ++ s.adaptor.sent ∧ ∀ content, .reply self content ∉ ms := by
    rintro b ⟨ms, hms⟩
    exact ⟨_, hms, fun content hmem => by simp at hmem⟩
  cases e with
  | setValue v now => exact hsignals (PropertyAdaptor.signalsOnly_forward _ _)
  | Subscribe client handler =>
    obtain ⟨-, content, ms, hms⟩ := s.adaptor.Subscribe_frame client handler
    refine ⟨.reply client content :: ms.map .signal, hms, fun content' hmem => ?_⟩
    simp [he.2.symm] at hmem
  | Unsubscribe client handler => exact hsignals (s.adaptor.Unsubscribe_frame client handler).2
  | onClientExited client handler =>
    exact hsignals (s.adaptor.onClientExited_frame client handler).2
  | forgetClients handler => exact he.elim
  | onValueChanged values timestamp => exact hsignals (PropertyAdaptor.signalsOnly_forward _ _)

omit [QVariant V] in
/-- The property sends messages which all get to the subscriber, if they are for it. -/
theorem latest_publish {a : PropertyAdaptor C V} {ms : List (Message C V)}
    (hms : a.sent = ms ++ s.adaptor.sent) (hreply : ∀ content, .reply self content ∉ ms)
    (hmatched : s.matched = true ∨ ∀ content, .signal content ∉ ms)
    (h : latest BusMessage.content s.toSubscriber s.reported = s.adaptor.lastSent self) :
    latest BusMessage.content (s.publish self a none).toSubscriber s.reported =
      a.lastSent self := by
  have hcontent : ∀ m ∈ ms, (envelope self s.matched none m).bind BusMessage.content =
      m.contentFor self := by
    intro m hm
    cases m with
    | reply client content =>
      have hne : client ≠ self := by
        rintro rfl
        exact hreply content hm
      simp [envelope, Message.contentFor, hne]
    | signal content =>
      have hmatched := hmatched.resolve_right fun hno => hno content hm
      simp [envelope, Message.contentFor, hmatched, BusMessage.content]
  unfold publish
  dsimp only
  rw [latest_append, h, newMessages_of_append hms, PropertyAdaptor.lastSent,
    PropertyAdaptor.lastSent, hms, List.findSome?_append, latest, List.filterMap_filterMap,
    List.filterMap_reverse, List.getLast?_reverse, List.filterMap_congr hcontent,
    List.head?_filterMap]

theorem latest_move (h : s.Latest self) (hw : s.Wired S self key)
    (hspoil : ¬ s.Spoils self key e) (hmove : WireMove self key s e t) : t.Latest self := by
  cases hmove with
  | inside hin hstep =>
    exact fun hup hmem hcalls => h hup hmem (List.append_eq_nil_iff.1 hcalls).1
  | ruled hrules => exact h
  | @served call calls handler hcalls hup =>
    intro _ hmem hnil
    cases call with
    | Subscribe id =>
      obtain ⟨content, signals, hlast, -, hto⟩ :=
        publish_Subscribe self { s with calls := calls } id handler
      show latest BusMessage.content (publish self { s with calls := calls } _ _).toSubscriber _ = _
      rw [hto, latest_append]
      exact hlast.symm
    | Unsubscribe =>
      have hmem : self ∈ (s.adaptor.Unsubscribe self handler).1.clientServiceNames := hmem
      rw [(s.adaptor.Unsubscribe_frame self handler).1] at hmem
      exact absurd hmem (Finset.notMem_erase _ _)
  | refused hcalls hup => exact fun hn => absurd (hup.symm.trans hn) (by decide)
  | @elsewhere e helse =>
    intro hup hmem hcalls
    have hmem := (mem_elsewhere helse).1 hmem
    obtain ⟨ms, hms, hreply⟩ := elsewhere_sent helse
    refine latest_publish hms hreply ?_ (h hup hmem hcalls)
    by_contra hnot
    rw [not_or, Bool.not_eq_true, not_forall] at hnot
    obtain ⟨hmatched, content, hcontent⟩ := hnot
    exact hspoil (Or.inl ⟨hcalls, hmem, hmatched, content,
      (newMessages_of_append hms).symm ▸ not_not.1 hcontent⟩)
  | started hup =>
    intro _ hmem
    have hmem : self ∈ s.adaptor.clientServiceNames := hmem
    rw [hw.owned.down hup] at hmem
    exact absurd hmem (Finset.notMem_empty _)
  | stopped handler hup => exact fun hn => by cases hn
  | exited now hup => exact fun hn => by cases hn
  | @replied id content ms m hms hstep =>
    intro hup hmem hcalls
    have h := h hup hmem (List.append_eq_nil_iff.1 hcalls).1
    rw [hms] at h
    cases content with
    | none => exact (latest_skip rfl).symm.trans h
    | some c =>
      have hdeliver : latest BusMessage.content (.reply id (some c) :: ms) s.reported =
          latest BusMessage.content ms (some c) := latest_deliver rfl
      exact hdeliver.symm.trans h
  | @changed content ms k v hms hconnected hentry =>
    intro hup hmem hcalls
    have h := h hup hmem hcalls
    rw [hms] at h
    have hdeliver : latest BusMessage.content (.valueChanged content :: ms) s.reported =
        latest BusMessage.content ms (some content) := latest_deliver rfl
    show latest _ ms (if k = key then some content else s.reported) = _
    rw [if_pos (eq_of_entry hw.sound hentry).1]
    exact hdeliver.symm.trans h
  | ignored hms hnot =>
    intro hup hmem hcalls
    exact (hw.not_ignored (Or.inr ⟨hcalls, hmem⟩) hnot).elim
  | @appeared m ms hms hstep =>
    intro hup hmem hcalls
    have h := h hup hmem (List.append_eq_nil_iff.1 hcalls).1
    rw [hms] at h
    exact (latest_skip rfl).symm.trans h
  | @disappeared m ms hms hstep =>
    intro hup hmem hcalls
    have h := h hup hmem (List.append_eq_nil_iff.1 hcalls).1
    rw [hms] at h
    exact (latest_skip rfl).symm.trans h

/-! ### The value of the subscriber -/

/-- A wanted key whose value is not the last one will get another value. -/
def Fresh (key : String) (s : Wire C V) : Prop :=
  s.up = true → s.toSubscriber.filterMap BusMessage.notice = [] →
    (s.link.view key).pluginState = .ready → (s.link.view key).subscribed = true → s.Stale key →
    (s.link.view key).Refreshing s.Coming

omit [DecidableEq C] in
theorem Stale.congr (h : t.Stale key)
    (hvalues : t.link.provider.values key = s.link.provider.values key)
    (hreported : t.reported = s.reported) : s.Stale key := by
  unfold Stale at h ⊢
  rwa [hvalues, hreported] at h

omit [QVariant V] [DecidableEq C] in
theorem Coming.mono (h : s.Coming)
    (hcalls : ∀ id, .Subscribe id ∈ s.calls → .Subscribe id ∈ t.calls)
    (hto : s.toSubscriber.filterMap BusMessage.content ≠ [] →
      t.toSubscriber.filterMap BusMessage.content ≠ []) : t.Coming :=
  h.imp (fun ⟨id, hid⟩ => ⟨id, hcalls id hid⟩) hto

omit [QVariant V] in
theorem content_publish (s : Wire C V) (a : PropertyAdaptor C V) (id : Option ℕ)
    (h : s.toSubscriber.filterMap BusMessage.content ≠ []) :
    (s.publish self a id).toSubscriber.filterMap BusMessage.content ≠ [] := by
  unfold publish
  rw [List.filterMap_append]
  exact fun hnil => h (List.append_eq_nil_iff.1 hnil).1

theorem fresh_inside (h : s.Fresh key) {e : LinkEvent V} {m : Link V}
    (hspoil : ¬ s.Spoils self key (.link e)) (hkept : s.link.Kept key m)
    (hmove : InsideMove key s.link e m) : (s.advance key m).Fresh key := by
  intro hup hnotices hready hsubscribed hstale
  have hstale : s.Stale key := hstale.congr hkept.values rfl
  have h := h hup hnotices
  have hcoming : s.Coming → (s.advance key m).Coming := fun hc =>
    hc.mono (fun id hid => List.mem_append_left _ hid) id
  have hready : (m.view key).pluginState = .ready := hready
  have hsubscribed : (m.view key).subscribed = true := hsubscribed
  show (m.view key).Refreshing _
  cases hmove with
  | wanted hview =>
    refine KeyView.Refreshing.imp ?_ hcoming
    rw [hview]
    cases hu : (s.link.view key).toUnsubscribe with
    | false => exact Or.inl (by simp [KeyView.wanted, hu])
    | true =>
      -- The subscription only cancels an unsubscription.
      have hnot : ¬ (key ∉ s.link.plugin.pendingKeys ∧ ¬ s.Coming) := fun hc =>
        hspoil ⟨rfl, of_decide_eq_true hu, hstale, hc⟩
      rw [not_and_or, not_not, not_not] at hnot
      exact Or.inr (hnot.imp_left decide_eq_true)
  | unwanted hview =>
    rw [hview] at hsubscribed
    cases hsubscribed
  | called hpending =>
    refine Or.inr (Or.inr (Or.inl ⟨s.link.plugin.watchers.length, ?_⟩))
    rw [advance_newSubscribe hpending]
    simp
  | moved hview =>
    exact (KeyView.Refreshing.move hview (fun hr hs => h hr hs hstale) hready hsubscribed).imp
      hcoming

omit [DecidableEq C] in
/-- The value that is reported is stored. -/
theorem not_stale {content : ValueChanged V} (hsubscribed : key ∈ t.link.provider.subscribedKeys)
    {p : Provider String V}
    (hprovider : t.link.provider = (p.onPluginValueChanged key
      (createTimedValue content.values content.timestamp)).1)
    (hreported : t.reported = some content) : ¬ t.Stale key := by
  have hp : key ∈ p.subscribedKeys := by
    rw [hprovider] at hsubscribed
    unfold Provider.onPluginValueChanged at hsubscribed
    split_ifs at hsubscribed with h
    · exact h
    · exact hsubscribed
  unfold Stale
  rw [not_not, hprovider, hreported, Provider.onPluginValueChanged, if_pos hp]
  exact Function.update_self _ _ _

theorem fresh_move (hS : Set.InjOn keyToPath S) (hkey : key ∈ S) (h : s.Fresh key)
    (hw : s.Wired S self key) (hasking : s.Asking self key) (hbehind : s.Behind self)
    (hspoil : ¬ s.Spoils self key e) (hmove : WireMove self key s e t) : t.Fresh key := by
  have hs := hw.sound
  cases hmove with
  | inside hin hstep =>
    exact fresh_inside h hspoil (kept_of_inside hs.linked hin hstep)
      (insideMove_of_step hS hkey hs.linked hs.within hin hstep)
  | ruled hrules => exact h
  | @served call calls handler hcalls hup =>
    cases call with
    | Subscribe id =>
      obtain ⟨content, signals, -, -, hto⟩ :=
        publish_Subscribe self { s with calls := calls } id handler
      refine fun _ _ _ _ _ => Or.inr (Or.inr (Or.inr ?_))
      rw [handleCall, hto]
      simp [BusMessage.content]
    | Unsubscribe =>
      intro _ hnotices hready hsubscribed hstale
      rw [handleCall, filterMap_notice_publish] at hnotices
      refine (h hup hnotices hready hsubscribed hstale).imp fun hc => hc.mono ?_ ?_
      · intro id hid
        rw [hcalls, List.mem_cons] at hid
        exact hid.resolve_left ObjectCall.noConfusion
      · exact content_publish { s with calls := calls } _ _
  | refused hcalls hup => exact fun hn => absurd (hup.symm.trans hn) (by decide)
  | elsewhere helse =>
    intro hup hnotices hready hsubscribed hstale
    rw [filterMap_notice_publish] at hnotices
    exact (h hup hnotices hready hsubscribed hstale).imp fun hc =>
      hc.mono (fun _ => id) (content_publish s _ _)
  | started hup =>
    exact fun _ hnotices hready => absurd hready (not_ready_of_started (s := s) hs hnotices)
  | stopped handler hup => exact fun hn => by cases hn
  | exited now hup => exact fun hn => by cases hn
  | @replied id content ms m hms hstep =>
    intro hup hnotices hready hsubscribed hstale
    have hid : s.link.plugin.watchers[id]? = some key :=
      hw.awaited.watcher id (List.mem_append_right _ (by rw [hms]; exact List.mem_cons_self))
    simp only [Link.step, Option.ite_none_right_eq_some, Option.some.injEq] at hstep
    obtain ⟨-, rfl⟩ := hstep
    cases content with
    | some c =>
      refine absurd hstale (not_stale (p := s.link.provider) (of_decide_eq_true hsubscribed) ?_ rfl)
      simp [advance, Link.finish, hid]
    | none =>
      have hview := Link.view_finish key (l := s.link) id none
      have hvalues : (s.link.finish id none).provider = s.link.provider := by
        simp [Link.finish, hid]
      have hready : ((s.link.finish id none).view key).pluginState = .ready := hready
      have hsubscribed : ((s.link.finish id none).view key).subscribed = true := hsubscribed
      show ((s.link.finish id none).view key).Refreshing _
      rw [hview] at hready hsubscribed ⊢
      have hnil : s.toSubscriber.filterMap BusMessage.notice = [] := by
        rw [hms]
        exact hnotices
      refine (h hup hnil hready hsubscribed (hstale.congr (congrFun (congrArg _ hvalues) key)
        rfl)).imp fun hc => hc.mono (fun _ hmem => List.mem_append_left _ hmem) ?_
      rw [hms]
      exact fun hne => hne
  | @changed content ms k v hms hconnected hentry =>
    intro _ _ _ hsubscribed hstale
    obtain ⟨rfl, rfl⟩ := eq_of_entry hs hentry
    exact absurd hstale (not_stale (of_decide_eq_true hsubscribed) rfl (if_pos rfl))
  | @ignored content ms hms hnot =>
    intro hup hnotices hready hsubscribed hstale
    have hnil : s.toSubscriber.filterMap BusMessage.notice = [] := by
      rw [hms]
      exact hnotices
    rcases hasking hup hnil hready (Or.inl hsubscribed) with ht | hp | ha
    · exact Or.inl ht
    · exact Or.inr (Or.inl hp)
    · exact (hw.not_ignored ha hnot).elim
  | @appeared m ms hms hstep =>
    intro hup hnotices hready hsubscribed hstale
    obtain ⟨-, -, hkept⟩ := Link.kept_serviceRegistered key hs.linked.modern hstep
    have hstale : s.Stale key := hstale.congr hkept.values rfl
    have hmove := Link.keyMove_of_notice hS hkey hs.linked hs.within (.inl rfl) hstep
    refine KeyView.Refreshing.move hmove (fun hr hsub => ?_) hready hsubscribed
    have hasked : s.Asked self → Coming (advance key { s with toSubscriber := ms } m) := by
      rintro (hlast | ⟨hcalls, hmem⟩)
      · refine Or.inl ?_
        obtain ⟨call, hcall, hmember⟩ := Option.map_eq_some_iff.1 hlast
        cases call with
        | Subscribe id => exact ⟨id, List.mem_append_left _ (List.mem_of_getLast? hcall)⟩
        | Unsubscribe => cases hmember
      · -- The new owner has answered, and its reply is behind the notice.
        have hbehind := hbehind (by simp [hms, BusMessage.notice]) hmem
        have hnil : ms.filterMap BusMessage.notice = [] := hnotices
        rw [hms, recent_notice (by simp [BusMessage.notice]) hnil] at hbehind
        have hcontent : ms.filterMap BusMessage.content ≠ [] := by
          simpa [List.filterMap_reverse] using hbehind
        exact Or.inr hcontent
    by_contra hnot
    refine hspoil ⟨ms, hms, hnotices, hr, Or.inl (of_decide_eq_true hsub), ?_, ?_, ?_⟩
    · exact fun hmem => hnot (Or.inl (decide_eq_true hmem))
    · exact fun hmem => hnot (Or.inr (Or.inl (decide_eq_true hmem)))
    · exact fun ha => hnot (Or.inr (Or.inr (hasked ha)))
  | @disappeared m ms hms hstep =>
    intro hup hnotices
    have hdown := hw.noticed.down_of_disappeared hms hnotices
    exact absurd (hdown.symm.trans hup) (by decide)

/-! ### What the subscriber is told -/

/-- If the subscriber is a client of the property, it was told a value alike the current one. -/
def Knowing (me : C) (s : Wire C V) : Prop :=
  me ∈ s.adaptor.clientServiceNames → s.adaptor.Knows me

theorem knowing_move (h : s.Knowing self) (hw : s.Owned) (hspoil : ¬ s.Spoils self key e)
    (hmove : WireMove self key s e t) : t.Knowing self := by
  cases hmove with
  | @served call calls handler hcalls hup =>
    intro hmem
    cases call with
    | Subscribe id =>
      refine hw.sound.knows_perform (e := .Subscribe self handler) hmem h ?_
      rintro ⟨_, _, ⟨⟩, -⟩
    | Unsubscribe =>
      refine hw.sound.knows_perform (e := .Unsubscribe self handler) hmem h ?_
      rintro ⟨_, _, ⟨⟩, -⟩
  | elsewhere he => exact fun hmem => hw.sound.knows_perform hmem h fun hc => hspoil (Or.inr hc)
  | stopped handler hup =>
    intro hmem
    refine hw.sound.knows_perform (e := .forgetClients handler) hmem h ?_
    rintro ⟨_, _, ⟨⟩, -⟩
  | exited now hup => exact fun hmem => absurd hmem (Finset.notMem_empty _)
  | @refused call calls hcalls hup => cases call <;> exact h
  | _ => exact h

/-! ### Runs -/

/-- What holds on a wire whose run has not been spoiled. -/
structure Delivering (me : C) (key : String) (s : Wire C V) : Prop where
  asking : s.Asking me key
  behind : s.Behind me
  latest : s.Latest me
  fresh : s.Fresh key
  knowing : s.Knowing me

theorem delivering_init (now : ℕ) : (init now : Wire C V).Delivering self key where
  asking hup := by cases hup
  behind hnotices := absurd rfl hnotices
  latest hup := by cases hup
  fresh hup := by cases hup
  knowing hmem := absurd hmem (Finset.notMem_empty _)

theorem delivering_step (hS : Set.InjOn keyToPath S) (hkey : key ∈ S) (hw : s.Wired S self key)
    (h : s.Delivering self key) (he : s.Proper S e) (hspoil : ¬ s.Spoils self key e)
    (hstep : s.step self key e = some t) : t.Delivering self key := by
  have hmove := wireMove_of_step hstep
  exact ⟨asking_move hS hkey h.asking hw he hspoil hmove, behind_move h.behind hw hmove,
    latest_move h.latest hw hspoil hmove,
    fresh_move hS hkey h.fresh hw h.asking h.behind hspoil hmove,
    knowing_move h.knowing hw.owned hspoil hmove⟩

/-- On a wire where nothing is queued or on its way the plugin of a provider that is there is
ready. -/
theorem Settled.ready (hsettled : s.Settled) (hw : s.Wired S self key) (hup : s.up = true) :
    s.link.provider.pluginState = .ready := by
  cases hs : s.link.provider.pluginState with
  | ready => rfl
  | initializing =>
    rcases hw.sound.started.initializing hs with ⟨-, hq⟩ | hq
    · simp [hsettled.quiet.callQueue] at hq
    · rw [hsettled.quiet.appearedQueued] at hq
      cases hq
  | failed =>
    have hgone := hw.sound.linked.failed.1 hs
    have hcur := hw.noticed.current false (by
      simp [notices, known, hgone, hsettled.toSubscriber])
    exact absurd (hcur.trans hup) (by decide)

/-- **What a provider sets arrives.**  In every run over keys with different object paths, in which
only wanted keys are taken back and no event spoils the key: when nothing is queued or on its way
and the provider is there, a subscribed key is subscribed at the property, and the subscriber has
the property's value, as far as the comparison of values tells. -/
theorem delivered_of_settled (hS : Set.InjOn keyToPath S) (hkey : key ∈ S) {now : ℕ}
    {es : List (WireEvent C V)}
    (hproper : Along (step self key) (Proper S) (init now) es)
    (hspoil : Along (step self key) (fun s e => ¬ s.Spoils self key e) (init now) es)
    (hrun : run (step self key) (init now) es = some s) (hsettled : s.Settled)
    (hup : s.up = true) (hsubscribed : key ∈ s.link.provider.subscribedKeys) :
    self ∈ s.adaptor.clientServiceNames ∧ s.adaptor.propertyPrivate.subscribed = true ∧
      ∃ v time, s.link.provider.values key = some ⟨decode (encode v), time⟩ ∧
        Alike v s.adaptor.propertyPrivate.value := by
  obtain ⟨hw, hd⟩ : s.Wired S self key ∧ s.Delivering self key := by
    refine run_inv_along (P := fun s => s.Wired S self key ∧ s.Delivering self key)
      (fun s e t hs hC hstep => ?_) ⟨wired_init now, delivering_init now⟩ (hproper.and hspoil) hrun
    exact ⟨wired_step hS hkey hs.1 hC.1 hstep,
      delivering_step hS hkey hs.1 hs.2 hC.1 hC.2 hstep⟩
  have hready := hsettled.ready hw hup
  have hnil : s.toSubscriber.filterMap BusMessage.notice = [] := by rw [hsettled.toSubscriber]; rfl
  -- Nothing is scheduled or put off, so the key has been asked for.
  have hts : key ∉ s.link.provider.toSubscribe := fun hmem => by
    have := hw.sound.linked.toSubscribe hready key hmem
    simp [hsettled.quiet.callQueue] at this
  have hpending : key ∉ s.link.plugin.pendingKeys := fun hmem => by
    have := hw.sound.linked.pendingKeys key hmem
    simp [hsettled.quiet.queued] at this
  have hmem : self ∈ s.adaptor.clientServiceNames := by
    rcases hd.asking hup hnil hready (Or.inl (decide_eq_true hsubscribed)) with h | h | h
    · exact absurd (of_decide_eq_true h) hts
    · exact absurd (of_decide_eq_true h) hpending
    · rcases h with h | h
      · rw [hsettled.calls] at h
        cases h
      · exact h.2
  obtain ⟨v, ⟨content, hlast, hvalue⟩, halike⟩ := hd.knowing hmem
  have hreported : s.reported = some content := by
    have hlatest := hd.latest hup hmem hsettled.calls
    rwa [hsettled.toSubscriber, latest_nil, hlast] at hlatest
  have hfresh : ¬ s.Stale key := fun hstale => by
    rcases hd.fresh hup hnil hready (decide_eq_true hsubscribed) hstale with h | h | ⟨id, h⟩ | h
    · exact hts (of_decide_eq_true h)
    · exact hpending (of_decide_eq_true h)
    · simp [hsettled.calls] at h
    · simp [hsettled.toSubscriber] at h
  refine ⟨hmem, hw.owned.sound.subscribed.2 ⟨self, hmem⟩, v, content.timestamp, ?_, halike⟩
  rw [Stale, not_not, hreported] at hfresh
  rw [hfresh, Option.map_some, createTimedValue, hvalue]
  cases encode v <;> rfl

/-- The bus starts the provider for a call, and the property is set after it was subscribed. -/
def activated : List (WireEvent String (Option ℤ)) :=
  [.link .constructPlugin, .link .providerAppeared, .link (.subscribe "Screen.TopEdge"),
    .link .handleSubscribes, .link (.newSubscribe "Screen.TopEdge"), .start, .deliver, .serve [],
    .rule, .deliver, .adaptor (.setValue (some 7) 5), .deliver]

theorem delivered_of_settled_activated :
    ∃ s : Wire String (Option ℤ),
      run (step ":1.1" "Screen.TopEdge") (init 1) activated = some s ∧
      ":1.1" ∈ s.adaptor.clientServiceNames ∧ s.adaptor.propertyPrivate.subscribed = true ∧
      ∃ v time, s.link.provider.values "Screen.TopEdge" = some ⟨decode (encode v), time⟩ ∧
        Alike v s.adaptor.propertyPrivate.value := by
  have hproper : Along (step ":1.1" "Screen.TopEdge") (Proper {"Screen.TopEdge"})
      (init 1 : Wire String (Option ℤ)) activated :=
    .cons trivial rfl <| .cons trivial rfl <| .cons rfl rfl <| .cons trivial rfl <|
      .cons trivial rfl <| .cons trivial rfl <| .cons trivial rfl <| .cons trivial rfl <|
      .cons trivial rfl <| .cons trivial rfl <| .cons trivial rfl <| .cons trivial rfl trivial
  have hspoil : Along (step ":1.1" "Screen.TopEdge")
      (fun s e => ¬ s.Spoils ":1.1" "Screen.TopEdge" e) (init 1 : Wire String (Option ℤ))
      activated := by
    refine .cons not_false rfl <| .cons not_false rfl <| .cons ?_ rfl <| .cons not_false rfl <|
      .cons not_false rfl <| .cons not_false rfl <| .cons ?_ rfl <| .cons not_false rfl <|
      .cons not_false rfl <| .cons ?_ rfl <| .cons ?_ rfl <| .cons ?_ rfl trivial
    · rintro ⟨-, hu, -⟩
      exact absurd hu (by decide)
    · rintro ⟨ms, -, -, -, -, -, -, hasked⟩
      exact hasked (Or.inl rfl)
    · rintro ⟨ms, hms, -⟩
      cases hms
    · rintro (⟨-, -, hmatched, -⟩ | ⟨_, _, ⟨⟩, hw, -⟩)
      · cases hmatched
      · exact absurd hw (by decide)
    · rintro ⟨ms, hms, -⟩
      cases hms
  refine ⟨_, rfl, ?_⟩
  exact delivered_of_settled (Set.injOn_singleton _ _) (Set.mem_singleton _) hproper hspoil rfl
    ⟨⟨rfl, by decide, by decide⟩, rfl, rfl⟩ rfl (by decide)

end Wire

end ContextDelivery
