import ContextKit.Delivery.Ends
import ContextKit.Transition.Channel

/-!
# What always holds on a wire

The parts of the invariant that need no assumption on the run: the notices about the name of the
provider alternate and end with what is the case; the last call on its way is the last one the
plugin made; every call that waits for a reply gets one.
-/

namespace ContextDelivery
open ContextKit ContextProvider ContextSubscriber Transition

namespace Wire

variable {C V : Type} [QVariant V] [DecidableEq C] {self : C} {key : String} {S : Set String}
  {s t : Wire C V} {e : WireEvent C V}

omit [QVariant V] [DecidableEq C] in
/-- What users of the library do: they use keys of `S`, and take back what they have asked for. -/
def Proper (S : Set String) (s : Wire C V) : WireEvent C V → Prop
  | .link (.subscribe k) => k ∈ S
  | .link (.unsubscribe k) => k ∈ S ∧ k ∈ s.link.provider.subscribedKeys
  | _ => True

/-! ### The subscriber's end -/

theorem sound_move (hS : Set.InjOn keyToPath S) (hkey : key ∈ S) (h : s.link.Sound S key)
    (he : s.Proper S e) (hmove : WireMove self key s e t) : t.link.Sound S key := by
  cases hmove with
  | @inside e m hin hstep =>
    refine Link.sound_step hS hkey h (fun k hk => ?_) hstep (not_blocks hin)
    cases e with
    | subscribe k' =>
      obtain rfl := Option.some.inj hk
      exact he
    | unsubscribe k' =>
      obtain rfl := Option.some.inj hk
      exact he.1
    | _ => cases hk
  | served handler hcalls hup =>
    rename_i call _
    cases call <;> exact h
  | replied hms hstep =>
    exact Link.sound_step hS hkey h (fun k hk => by cases hk) hstep not_false
  | changed hms hconnected hentry => exact h.report _ _
  | appeared hms hstep =>
    exact Link.sound_step hS hkey h (fun k hk => by cases hk) hstep not_false
  | disappeared hms hstep =>
    exact Link.sound_step hS hkey h (fun k hk => by cases hk) hstep not_false
  | _ => exact h

/-! ### The notices about the name -/

/-- What is known about the presence of the provider. -/
def known : ServicePresence → List Bool
  | .present => [true]
  | .notPresent => [false]
  | .unknown => []

omit [QVariant V] [DecidableEq C] in
/-- What the subscriber knows about the name of the provider, and what it will hear. -/
def notices (s : Wire C V) : List Bool :=
  known s.link.listener.servicePresent ++ s.toSubscriber.filterMap BusMessage.notice

omit [QVariant V] [DecidableEq C] in
/-- The notices alternate, and the last one tells how things are; nothing is heard without a
plugin. -/
structure Noticed (s : Wire C V) : Prop where
  alternate : s.notices.IsChain (· ≠ ·)
  current : ∀ b ∈ s.notices.getLast?, b = s.up
  unheard : s.link.provider.pluginConstructed = false → s.notices = []

omit [QVariant V] [DecidableEq C] in
theorem Noticed.frame (h : s.Noticed) (hnotices : t.notices = s.notices) (hup : t.up = s.up)
    (hconstructed : s.link.provider.pluginConstructed = true →
      t.link.provider.pluginConstructed = true) : t.Noticed where
  alternate := hnotices ▸ h.alternate
  current := hnotices ▸ hup ▸ h.current
  unheard hc := by
    rw [hnotices]
    refine h.unheard ?_
    by_contra hs
    rw [hconstructed (by simpa using hs)] at hc
    cases hc

omit [QVariant V] [DecidableEq C] in
/-- The bus tells the subscriber about the name. -/
theorem Noticed.notify (h : s.Noticed) {b : Bool} {m : BusMessage V} (hm : m.notice = some b)
    (hup : s.up = !b) : Noticed ({ s with up := b }.notify m) := by
  by_cases hc : s.link.provider.pluginConstructed = true
  · have hnotices : ({ s with up := b }.notify m).notices = s.notices ++ [b] := by
      simp [Wire.notify, notices, hc, hm]
    constructor
    · rw [hnotices, List.isChain_append]
      refine ⟨h.alternate, List.isChain_singleton _, fun x hx y hy => ?_⟩
      obtain rfl := h.current x hx
      obtain rfl : b = y := by simpa using hy
      simp [hup]
    · rw [hnotices]
      simp [Wire.notify]
    · exact fun hn => absurd (hc.symm.trans hn) (by decide)
  · have hnotices : ({ s with up := b }.notify m).notices = [] := by
      simpa [Wire.notify, notices, hc] using h.unheard (by simpa using hc)
    exact ⟨hnotices ▸ List.isChain_nil, by simp [hnotices], fun _ => hnotices⟩

omit [QVariant V] in
theorem notice_envelope {matched : Bool} {id : Option ℕ} {m : Message C V} {b : BusMessage V}
    (h : envelope self matched id m = some b) : b.notice = none := by
  cases m with
  | reply client content =>
    simp only [envelope, Option.ite_none_right_eq_some, Option.map_eq_some_iff] at h
    obtain ⟨-, i, -, rfl⟩ := h
    rfl
  | signal content =>
    simp only [envelope, Option.ite_none_right_eq_some, Option.some.injEq] at h
    obtain ⟨-, rfl⟩ := h
    rfl

omit [QVariant V] in
/-- What the adaptor sends is no notice. -/
theorem exists_publish (self : C) (s : Wire C V) (a : PropertyAdaptor C V) (id : Option ℕ) :
    ∃ ms, (s.publish self a id).toSubscriber = s.toSubscriber ++ ms ∧
      ∀ m ∈ ms, m.notice = none := by
  refine ⟨_, rfl, fun b hb => ?_⟩
  obtain ⟨m, -, hm⟩ := List.mem_filterMap.1 hb
  exact notice_envelope hm

omit [QVariant V] in
theorem filterMap_notice_publish (s : Wire C V) (a : PropertyAdaptor C V) (id : Option ℕ) :
    (s.publish self a id).toSubscriber.filterMap BusMessage.notice =
      s.toSubscriber.filterMap BusMessage.notice := by
  obtain ⟨ms, hto, hms⟩ := exists_publish self s a id
  rw [hto, List.filterMap_append, List.filterMap_eq_nil_iff.2 hms, List.append_nil]

omit [QVariant V] in
theorem notices_publish (s : Wire C V) (a : PropertyAdaptor C V) (id : Option ℕ) :
    (s.publish self a id).notices = s.notices :=
  congrArg (known s.link.listener.servicePresent ++ ·) (filterMap_notice_publish s a id)

omit [QVariant V] [DecidableEq C] in
/-- A message that is no notice is taken from the queue. -/
theorem notices_skip {b : BusMessage V} {ms : List (BusMessage V)}
    (hms : s.toSubscriber = b :: ms) (hb : b.notice = none) :
    ({ s with toSubscriber := ms } : Wire C V).notices = s.notices := by
  unfold notices
  rw [hms, List.filterMap_cons_none hb]

omit [QVariant V] [DecidableEq C] in
/-- A notice is taken from the queue, and is what is known then. -/
theorem Noticed.heard (h : s.Noticed) {b : Bool} {m : BusMessage V} {ms : List (BusMessage V)}
    (hms : s.toSubscriber = m :: ms) (hm : m.notice = some b) (hup : t.up = s.up)
    (hnotices : t.notices = b :: ms.filterMap BusMessage.notice)
    (hconstructed : t.link.provider.pluginConstructed = true) : t.Noticed := by
  have hs : s.notices = known s.link.listener.servicePresent ++ t.notices := by
    rw [notices, hms, List.filterMap_cons_some hm, hnotices]
  have halt := h.alternate
  have hcur := h.current
  rw [hs] at halt hcur
  refine ⟨halt.right_of_append, fun c hc => ?_, fun hn => ?_⟩
  · rw [hup]
    refine hcur c ?_
    rw [List.getLast?_append, Option.mem_def.1 hc]
    rfl
  · exact absurd (hconstructed.symm.trans hn) (by decide)

theorem noticed_move (h : s.Noticed) (hs : s.link.Sound S key) (hmove : WireMove self key s e t) :
    t.Noticed := by
  cases hmove with
  | @inside e m hin hstep =>
    have hkept := kept_of_inside hs.linked hin hstep
    refine h.frame ?_ rfl hkept.constructed
    unfold notices
    rw [show (s.advance key m).link.listener = s.link.listener from hkept.listener]
    rfl
  | ruled hrules => exact h.frame rfl rfl id
  | @served call calls handler hcalls hup =>
    cases call <;> exact h.frame (notices_publish { s with calls := calls } _ _) rfl id
  | @refused call calls hcalls hup =>
    refine h.frame ?_ rfl id
    cases call <;> simp [refuseCall, notices, ObjectCall.id?, BusMessage.notice]
  | elsewhere he => exact h.frame (notices_publish s _ _) rfl id
  | started hup => exact h.notify rfl hup
  | stopped handler hup =>
    have h' : (s.publish self (s.adaptor.forgetClients handler).1 none).Noticed :=
      h.frame (notices_publish s _ _) rfl id
    exact h'.notify rfl hup
  | exited now hup =>
    have h' : ({ s with adaptor := .init now } : Wire C V).Noticed := h.frame rfl rfl id
    exact h'.notify rfl hup
  | replied hms hstep =>
    simp only [Link.step, Option.ite_none_right_eq_some, Option.some.injEq] at hstep
    obtain ⟨-, rfl⟩ := hstep
    exact h.frame (notices_skip hms rfl) rfl (Link.finish_pluginConstructed _ _ _).trans
  | changed hms hconnected hentry =>
    exact h.frame (notices_skip hms rfl) rfl
      (Provider.onPluginValueChanged_pluginConstructed _ _ _).trans
  | ignored hms hnot => exact h.frame (notices_skip hms rfl) rfl id
  | appeared hms hstep =>
    obtain ⟨hconstructed, hpresent, hkept⟩ :=
      Link.kept_serviceRegistered key hs.linked.modern hstep
    exact h.heard hms rfl rfl (congrArg (fun p => known p ++ _) hpresent)
      (hkept.constructed hconstructed)
  | disappeared hms hstep =>
    obtain ⟨hconstructed, hgone, hkept⟩ :=
      Link.kept_serviceUnregistered key hs.linked.modern hstep
    exact h.heard hms rfl rfl (congrArg (fun p => known p ++ _) hgone)
      (hkept.constructed hconstructed)

/-! ### The provider's end -/

/-- The property is in order between two operations, and has no clients while the provider is not
there. -/
structure Owned (s : Wire C V) : Prop where
  sound : s.adaptor.Sound
  down : s.up = false → s.adaptor.clientServiceNames = ∅

theorem owned_move (h : s.Owned) (hmove : WireMove self key s e t) : t.Owned := by
  cases hmove with
  | @served call calls handler hcalls hup =>
    have hdown : ∀ {p : Prop}, s.up = false → p := fun hn => absurd (hup.symm.trans hn) (by decide)
    cases call with
    | Subscribe id => exact ⟨h.sound.Subscribe self handler, hdown⟩
    | Unsubscribe => exact ⟨h.sound.perform (.Unsubscribe self handler), hdown⟩
  | @elsewhere e he =>
    refine ⟨h.sound.perform e, fun hn => ?_⟩
    have hdown : s.up = false := hn
    cases e with
    | setValue v now => exact h.down hdown
    | forgetClients handler => exact he.elim
    | onValueChanged values timestamp => exact absurd (hdown.symm.trans he) (by decide)
    | _ => exact absurd (hdown.symm.trans he.1) (by decide)
  | started hup => exact ⟨h.sound, fun hn => by cases hn⟩
  | stopped handler hup =>
    exact ⟨h.sound.perform (.forgetClients handler),
      fun _ => (s.adaptor.forgetClients_frame handler).1⟩
  | exited now hup => exact ⟨PropertyAdaptor.sound_init now, fun _ => rfl⟩
  | _ => exact ⟨h.sound, h.down⟩

/-- Who else calls does not change whether this subscriber is a client. -/
theorem mem_elsewhere {e : AdaptorEvent C V} (he : s.Elsewhere self e) :
    self ∈ (s.adaptor.perform e).1.clientServiceNames ↔ self ∈ s.adaptor.clientServiceNames := by
  cases e with
  | setValue v now => exact .rfl
  | Subscribe client handler =>
    rw [PropertyAdaptor.perform, (s.adaptor.Subscribe_frame client handler).1, Finset.mem_insert]
    exact or_iff_right he.2.symm
  | Unsubscribe client handler =>
    rw [PropertyAdaptor.perform, (s.adaptor.Unsubscribe_frame client handler).1, Finset.mem_erase]
    exact and_iff_right he.2.symm
  | onClientExited client handler =>
    rw [PropertyAdaptor.perform, (s.adaptor.onClientExited_frame client handler).1,
      Finset.mem_erase]
    exact and_iff_right he.2.symm
  | forgetClients handler => exact he.elim
  | onValueChanged values timestamp => exact .rfl

/-! ### The calls on their way -/

/-- The last call on its way to the property is the last one the plugin has made; and when all have
got there, a client is one by the last call. -/
structure InTransit (me : C) (key : String) (s : Wire C V) : Prop where
  last : s.calls ≠ [] → s.calls.getLast?.map ObjectCall.member = (s.link.view key).calls.getLast?
  client : s.calls = [] → me ∈ s.adaptor.clientServiceNames →
    (s.link.view key).calls.getLast? = some .subscribe

omit [QVariant V] [DecidableEq C] in
@[simp] theorem member_ofMember (id : ℕ) (m : Member) : (ObjectCall.ofMember id m).member = m := by
  cases m <;> rfl

omit [QVariant V] [DecidableEq C] in
/-- The plugin makes more calls. -/
theorem InTransit.append (h : s.InTransit self key) {id : ℕ} {ms : List Member}
    (hview : (t.link.view key).calls = (s.link.view key).calls ++ ms)
    (hcalls : t.calls = s.calls ++ ms.map (.ofMember id))
    (hclients : t.adaptor.clientServiceNames = s.adaptor.clientServiceNames) :
    t.InTransit self key := by
  rcases List.eq_nil_or_concat ms with rfl | ⟨ms, m, rfl⟩
  · rw [List.append_nil] at hview
    rw [List.map_nil, List.append_nil] at hcalls
    constructor
    · rw [hcalls, hview]
      exact h.last
    · rw [hcalls, hclients, hview]
      exact h.client
  · rw [List.concat_eq_append] at hview hcalls
    rw [List.map_append, ← List.append_assoc] at hcalls
    rw [← List.append_assoc] at hview
    constructor
    · intro _
      rw [hcalls, hview]
      simp
    · rw [hcalls]
      intro hnil
      simp at hnil

omit [QVariant V] [DecidableEq C] in
theorem advance_calls {m : Link V} {ms : List Member}
    (hview : (m.view key).calls = (s.link.view key).calls ++ ms) :
    (s.advance key m).calls = s.calls ++ ms.map (.ofMember s.link.plugin.watchers.length) := by
  show s.calls ++ newCalls key s.link.plugin m.plugin = _
  rw [newCalls_of_append hview]

omit [QVariant V] [DecidableEq C] in
/-- `Subscribe` is called for a key whose connection was put off. -/
theorem advance_newSubscribe (hpending : key ∈ s.link.plugin.pendingKeys) :
    (s.advance key { s.link with plugin := s.link.plugin.deliverNewSubscribe key }).calls =
      s.calls ++ [.Subscribe s.link.plugin.watchers.length] := by
  refine (advance_calls (?_ : _ = _ ++ [.subscribe])).trans rfl
  rw [Link.view_newSubscribe hpending]
  rfl

omit [QVariant V] [DecidableEq C] in
/-- The first call on its way has got there. -/
theorem InTransit.pop (h : s.InTransit self key) {call : ObjectCall} {calls : List ObjectCall}
    (hs : s.calls = call :: calls) (ht : t.calls = calls)
    (hview : (t.link.view key).calls = (s.link.view key).calls)
    (hclient : call = .Unsubscribe → self ∉ t.adaptor.clientServiceNames) :
    t.InTransit self key := by
  have hlast := h.last (by simp [hs])
  rw [hs, List.getLast?_cons] at hlast
  constructor
  · rw [ht, hview, ← hlast]
    intro hne
    rw [List.getLast?_eq_some_getLast hne]
    rfl
  · rw [ht, hview, ← hlast]
    rintro rfl hmem
    cases call with
    | Subscribe id => rfl
    | Unsubscribe => exact absurd hmem (hclient rfl)

theorem inTransit_move (hS : Set.InjOn keyToPath S) (hkey : key ∈ S) (h : s.InTransit self key)
    (hs : s.link.Sound S key) (howned : s.Owned) (hmove : WireMove self key s e t) :
    t.InTransit self key := by
  cases hmove with
  | @inside e m hin hstep =>
    obtain ⟨ms, hms⟩ := Link.calls_of_step hS hkey hs hstep (not_blocks hin)
    exact h.append hms (advance_calls hms) rfl
  | @served call calls handler hcalls hup =>
    cases call with
    | Subscribe id => exact h.pop hcalls rfl rfl nofun
    | Unsubscribe =>
      refine h.pop hcalls rfl rfl fun _ => ?_
      show self ∉ (s.adaptor.Unsubscribe self handler).1.clientServiceNames
      rw [(s.adaptor.Unsubscribe_frame self handler).1]
      exact Finset.notMem_erase _ _
  | refused hcalls hup =>
    refine h.pop hcalls rfl rfl fun _ => ?_
    show self ∉ s.adaptor.clientServiceNames
    rw [howned.down hup]
    exact Finset.notMem_empty _
  | elsewhere he => exact ⟨h.last, fun hnil hmem => h.client hnil ((mem_elsewhere he).1 hmem)⟩
  | stopped handler hup =>
    refine ⟨h.last, fun _ hmem => ?_⟩
    have hmem : self ∈ (s.adaptor.forgetClients handler).1.clientServiceNames := hmem
    rw [(s.adaptor.forgetClients_frame handler).1] at hmem
    exact absurd hmem (Finset.notMem_empty _)
  | exited now hup => exact ⟨h.last, fun _ hmem => absurd hmem (Finset.notMem_empty _)⟩
  | replied hms hstep =>
    obtain ⟨ns, hns⟩ := Link.calls_of_step hS hkey hs hstep not_false
    exact h.append hns (advance_calls (s := { s with toSubscriber := _ }) hns) rfl
  | changed hms hconnected hentry =>
    have hview := Link.view_onPluginValueChanged key (l := s.link)
    refine ⟨?_, ?_⟩ <;> rw [Wire.report, hview]
    · exact h.last
    · exact h.client
  | appeared hms hstep =>
    obtain ⟨ns, hns⟩ := Link.calls_of_step hS hkey hs hstep not_false
    exact h.append hns (advance_calls (s := { s with toSubscriber := _ }) hns) rfl
  | disappeared hms hstep =>
    obtain ⟨ns, hns⟩ := Link.calls_of_step hS hkey hs hstep not_false
    exact h.append hns (advance_calls (s := { s with toSubscriber := _ }) hns) rfl
  | _ => exact ⟨h.last, h.client⟩

/-! ### The calls that wait for a reply -/

/-- The `Subscribe` calls and the replies that are on their way. -/
def waiting (s : Wire C V) : List ℕ :=
  s.calls.filterMap ObjectCall.id? ++ s.toSubscriber.filterMap BusMessage.id?

/-- What is on its way is a call for the key that still waits for its reply, and every call is on
its way only once. -/
structure Awaited (key : String) (s : Wire C V) : Prop where
  nodup : s.waiting.Nodup
  watcher : ∀ id ∈ s.waiting, s.link.plugin.watchers[id]? = some key
  unfinished : ∀ id ∈ s.waiting, id ∈ s.link.plugin.unfinished

omit [QVariant V] [DecidableEq C] in
theorem Awaited.frame (h : s.Awaited key) (hwaiting : t.waiting.Perm s.waiting)
    (hwatchers : ∀ id : ℕ, s.link.plugin.watchers[id]? = some key →
      t.link.plugin.watchers[id]? = some key)
    (hunfinished : ∀ id ∈ s.link.plugin.unfinished, s.link.plugin.watchers[id]? = some key →
      id ∈ t.link.plugin.unfinished) : t.Awaited key where
  nodup := hwaiting.nodup_iff.2 h.nodup
  watcher id hid := hwatchers id (h.watcher id (hwaiting.mem_iff.1 hid))
  unfinished id hid :=
    have hs := hwaiting.mem_iff.1 hid
    hunfinished id (h.unfinished id hs) (h.watcher id hs)

omit [QVariant V] [DecidableEq C] in
theorem Awaited.idle (h : s.Awaited key) (hwaiting : t.waiting.Perm s.waiting)
    (hplugin : t.link.plugin = s.link.plugin) : t.Awaited key := by
  refine h.frame hwaiting ?_ ?_ <;> rw [hplugin]
  · exact fun _ hw => hw
  · exact fun _ hu _ => hu

omit [QVariant V] [DecidableEq C] in
/-- A move of the automaton makes no call that waits for a reply. -/
theorem newCalls_of_move {l m : Link V} (hmove : KeyMove (l.view key) (m.view key)) :
    (newCalls key l.plugin m.plugin).filterMap ObjectCall.id? = [] := by
  rcases hmove.calls with hcalls | hcalls
  · rw [newCalls_of_eq hcalls]
    rfl
  · rw [newCalls_of_append hcalls]
    rfl

omit [QVariant V] [DecidableEq C] in
theorem waiting_advance_of_move {m : Link V} (hmove : KeyMove (s.link.view key) (m.view key)) :
    (s.advance key m).waiting = s.waiting := by
  unfold waiting advance
  dsimp only
  rw [List.filterMap_append, newCalls_of_move hmove, List.append_nil]

omit [QVariant V] in
/-- Without a call to reply to, the subscriber gets signals only. -/
theorem id?_envelope {matched : Bool} {m : Message C V} {b : BusMessage V}
    (h : envelope self matched none m = some b) : b.id? = none := by
  cases m with
  | reply client content => simp [envelope] at h
  | signal content =>
    simp only [envelope, Option.ite_none_right_eq_some, Option.some.injEq] at h
    obtain ⟨-, rfl⟩ := h
    rfl

omit [QVariant V] in
theorem waiting_publish_none (s : Wire C V) (a : PropertyAdaptor C V) :
    (s.publish self a none).waiting = s.waiting := by
  have hnone : ((newMessages s.adaptor a).reverse.filterMap
      (envelope self s.matched none)).filterMap BusMessage.id? = [] := by
    rw [List.filterMap_eq_nil_iff]
    intro b hb
    obtain ⟨m, -, hm⟩ := List.mem_filterMap.1 hb
    exact id?_envelope hm
  unfold waiting publish
  dsimp only
  rw [List.filterMap_append, hnone, List.append_nil]

omit [QVariant V] [DecidableEq C] in
theorem newMessages_of_append {a b : PropertyAdaptor C V} {ms : List (Message C V)}
    (h : b.sent = ms ++ a.sent) : newMessages a b = ms := by
  unfold newMessages
  rw [h, List.length_append, Nat.add_sub_cancel, List.take_left]

/-- `Subscribe` is answered: the signals of the handler, and then the reply. -/
theorem publish_Subscribe (self : C) (s : Wire C V) (id : ℕ) (handler : List (V × ℕ)) :
    ∃ (content : ValueChanged V) (signals : List (BusMessage V)),
      (s.adaptor.Subscribe self handler).1.lastSent self = some content ∧
      (∀ b ∈ signals, b.id? = none ∧ b.notice = none) ∧
      (s.publish self (s.adaptor.Subscribe self handler).1 (some id)).toSubscriber =
        s.toSubscriber ++ signals ++ [.reply id (some content)] := by
  obtain ⟨-, content, ms, hms⟩ := s.adaptor.Subscribe_frame self handler
  have hnew : newMessages s.adaptor (s.adaptor.Subscribe self handler).1 =
      .reply self content :: ms.map .signal := newMessages_of_append hms
  refine ⟨content, (ms.map (.signal (C := C))).reverse.filterMap
    (envelope self s.matched (some id)), ?_, fun b hb => ?_, ?_⟩
  · rw [PropertyAdaptor.lastSent, hms]
    simp [Message.contentFor]
  · obtain ⟨m, hm, henv⟩ := List.mem_filterMap.1 hb
    rw [List.mem_reverse, List.mem_map] at hm
    obtain ⟨c, -, rfl⟩ := hm
    simp only [envelope, Option.ite_none_right_eq_some, Option.some.injEq] at henv
    obtain ⟨-, rfl⟩ := henv
    exact ⟨rfl, rfl⟩
  · unfold publish
    dsimp only
    rw [hnew, List.reverse_cons, List.filterMap_append, ← List.append_assoc]
    simp [envelope]

omit [QVariant V] [DecidableEq C] in
theorem waiting_notify {m : BusMessage V} (hm : m.id? = none) :
    (s.notify m).waiting = s.waiting := by
  unfold waiting notify
  split_ifs
  · simp [hm]
  · rfl

omit [QVariant V] [DecidableEq C] in
/-- A call is answered: it is on its way before and its reply after. -/
theorem waiting_answer {call : ObjectCall} {calls : List ObjectCall}
    (hcalls : s.calls = call :: calls) (ht : t.calls = calls) {ms : List (BusMessage V)}
    (hms : t.toSubscriber = s.toSubscriber ++ ms)
    (hids : ms.filterMap BusMessage.id? = call.id?.toList) : t.waiting.Perm s.waiting := by
  have hs : s.calls.filterMap ObjectCall.id? =
      call.id?.toList ++ calls.filterMap ObjectCall.id? := by
    rw [hcalls]
    cases call <;> rfl
  unfold waiting
  rw [hs, ht, hms, List.filterMap_append, hids, ← List.append_assoc, List.append_assoc]
  rw [← List.append_assoc]
  exact List.perm_append_comm.trans (by rw [List.append_assoc])

omit [QVariant V] [DecidableEq C] in
/-- A message is taken from the queue. -/
theorem waiting_take {m : BusMessage V} {ms : List (BusMessage V)}
    (hms : s.toSubscriber = m :: ms) :
    s.waiting.Perm (m.id?.toList ++ ({ s with toSubscriber := ms } : Wire C V).waiting) := by
  have hs : s.toSubscriber.filterMap BusMessage.id? =
      m.id?.toList ++ ms.filterMap BusMessage.id? := by
    rw [hms]
    cases m <;> rfl
  unfold waiting
  rw [hs, ← List.append_assoc, ← List.append_assoc]
  exact List.perm_append_comm.append_right _

omit [QVariant V] [DecidableEq C] in
/-- `Subscribe` is called. -/
theorem Awaited.called (h : s.Awaited key) (hkept : s.link.Kept key
      { s.link with plugin := s.link.plugin.deliverNewSubscribe key })
    (hpending : key ∈ s.link.plugin.pendingKeys) :
    (s.advance key { s.link with
      plugin := s.link.plugin.deliverNewSubscribe key }).Awaited key := by
  set t := s.advance key { s.link with plugin := s.link.plugin.deliverNewSubscribe key } with ht
  set n := s.link.plugin.watchers.length with hn
  have hcalls : t.calls = s.calls ++ [.Subscribe n] := advance_newSubscribe hpending
  have hwaiting : t.waiting.Perm (n :: s.waiting) := by
    have htail : t.toSubscriber = s.toSubscriber := rfl
    unfold waiting
    rw [hcalls, htail, List.filterMap_append, List.append_assoc]
    exact List.perm_middle
  have hplugin : t.link.plugin.watchers[n]? = some key ∧ n ∈ t.link.plugin.unfinished := by
    rw [ht]
    simp only [advance, ContextKitPlugin.deliverNewSubscribe, ContextKitPlugin.newSubscribe,
      if_pos hpending]
    exact ⟨by simp [hn], Finset.mem_insert_self _ _⟩
  have hnew : n ∉ s.waiting := by
    intro hmem
    have := (List.getElem?_eq_some_iff.1 (h.watcher n hmem)).1
    omega
  constructor
  · exact hwaiting.nodup_iff.2 (List.nodup_cons.2 ⟨hnew, h.nodup⟩)
  · intro id hid
    rcases List.mem_cons.1 (hwaiting.mem_iff.1 hid) with rfl | hid
    · exact hplugin.1
    · exact hkept.watchers id (h.watcher id hid)
  · intro id hid
    rcases List.mem_cons.1 (hwaiting.mem_iff.1 hid) with rfl | hid
    · exact hplugin.2
    · exact hkept.unfinished id (h.unfinished id hid) (h.watcher id hid)

omit [QVariant V] [DecidableEq C] in
/-- A reply is handled. -/
theorem Awaited.replied (h : s.Awaited key) {id : ℕ} {content : Option (ValueChanged V)}
    (hms : s.toSubscriber = .reply id content :: t.toSubscriber) (hcalls : t.calls = s.calls)
    (hplugin : t.link.plugin = s.link.plugin.onFinished id) : t.Awaited key := by
  have hwaiting : s.waiting.Perm (id :: t.waiting) := by
    refine (waiting_take hms).trans ?_
    unfold waiting
    rw [hcalls]
    exact .refl _
  obtain ⟨hnot, hnodup⟩ := List.nodup_cons.1 (hwaiting.nodup_iff.1 h.nodup)
  have hmem : ∀ i ∈ t.waiting, i ∈ s.waiting := fun i hi =>
    hwaiting.mem_iff.2 (List.mem_cons_of_mem id hi)
  refine ⟨hnodup, fun i hi => ?_, fun i hi => ?_⟩
  · rw [hplugin, ContextKitPlugin.onFinished_watchers]
    exact h.watcher i (hmem i hi)
  · have hne : i ≠ id := by
      rintro rfl
      exact hnot hi
    rw [hplugin]
    unfold ContextKitPlugin.onFinished
    split
    · exact h.unfinished i (hmem i hi)
    · exact Finset.mem_erase.2 ⟨hne, h.unfinished i (hmem i hi)⟩

theorem awaited_move (hS : Set.InjOn keyToPath S) (hkey : key ∈ S) (h : s.Awaited key)
    (hs : s.link.Sound S key) (hmove : WireMove self key s e t) : t.Awaited key := by
  cases hmove with
  | @inside e m hin hstep =>
    have hkept := kept_of_inside hs.linked hin hstep
    have hsame : (m.view key).calls = (s.link.view key).calls →
        (s.advance key m).Awaited key := by
      intro hcalls
      refine h.frame ?_ hkept.watchers hkept.unfinished
      unfold waiting advance
      rw [newCalls_of_eq hcalls, List.append_nil]
    cases insideMove_of_step hS hkey hs.linked hs.within hin hstep with
    | wanted hview => exact hsame (by rw [hview]; rfl)
    | unwanted hview => exact hsame (by rw [hview]; rfl)
    | called hpending => exact h.called hkept hpending
    | moved hview =>
      exact h.frame (.of_eq (waiting_advance_of_move hview)) hkept.watchers hkept.unfinished
  | @served call calls handler hcalls hup =>
    refine h.idle ?_ (by cases call <;> rfl)
    cases call with
    | Subscribe id =>
      obtain ⟨content, signals, -, hsignals, hto⟩ :=
        publish_Subscribe self { s with calls := calls } id handler
      refine waiting_answer hcalls rfl (hto.trans (List.append_assoc _ _ _)) ?_
      rw [List.filterMap_append, List.filterMap_eq_nil_iff.2 fun b hb => (hsignals b hb).1]
      rfl
    | Unsubscribe =>
      rw [handleCall, waiting_publish_none]
      exact waiting_answer hcalls rfl (List.append_nil _).symm rfl
  | @refused call calls hcalls hup =>
    refine h.idle (waiting_answer hcalls rfl rfl ?_) rfl
    cases call <;> rfl
  | elsewhere he => exact h.idle (.of_eq (waiting_publish_none s _)) rfl
  | started hup => exact h.idle (.of_eq (waiting_notify rfl)) rfl
  | stopped handler hup =>
    exact h.idle (.of_eq ((waiting_notify rfl).trans (waiting_publish_none s _))) rfl
  | exited now hup => exact h.idle (.of_eq (waiting_notify rfl)) rfl
  | @replied id content ms m hms hstep =>
    simp only [Link.step, Option.ite_none_right_eq_some, Option.some.injEq] at hstep
    obtain ⟨-, rfl⟩ := hstep
    have hview := congrArg KeyView.calls (Link.view_finish key (l := s.link) id
      (content.map fun c => createTimedValue c.values c.timestamp))
    refine h.replied hms ?_ rfl
    show s.calls ++ newCalls key _ _ = s.calls
    rw [newCalls_of_eq hview, List.append_nil]
  | changed hms hconnected hentry => exact h.idle (waiting_take hms).symm rfl
  | ignored hms hnot => exact h.idle (waiting_take hms).symm rfl
  | appeared hms hstep =>
    obtain ⟨-, -, hkept⟩ := Link.kept_serviceRegistered key hs.linked.modern hstep
    have hmove := Link.keyMove_of_notice hS hkey hs.linked hs.within (.inl rfl) hstep
    refine h.frame (.trans (.of_eq ?_) (waiting_take hms).symm) hkept.watchers hkept.unfinished
    exact waiting_advance_of_move (s := { s with toSubscriber := _ }) hmove
  | disappeared hms hstep =>
    obtain ⟨-, -, hkept⟩ := Link.kept_serviceUnregistered key hs.linked.modern hstep
    have hmove := Link.keyMove_of_notice hS hkey hs.linked hs.within (.inr rfl) hstep
    refine h.frame (.trans (.of_eq ?_) (waiting_take hms).symm) hkept.watchers hkept.unfinished
    exact waiting_advance_of_move (s := { s with toSubscriber := _ }) hmove
  | _ => exact h.idle (.refl _) rfl

/-! ### Every run -/

/-- What always holds on a wire. -/
structure Wired (S : Set String) (me : C) (key : String) (s : Wire C V) : Prop where
  sound : s.link.Sound S key
  noticed : s.Noticed
  owned : s.Owned
  inTransit : s.InTransit me key
  awaited : s.Awaited key

theorem wired_init (now : ℕ) : (init now : Wire C V).Wired S self key where
  sound := Link.sound_init
  noticed := ⟨List.isChain_nil, nofun, fun _ => rfl⟩
  owned := ⟨PropertyAdaptor.sound_init now, fun _ => rfl⟩
  inTransit := ⟨fun h => absurd rfl h, fun _ h => absurd h (Finset.notMem_empty _)⟩
  awaited := ⟨List.nodup_nil, nofun, nofun⟩

theorem wired_step (hS : Set.InjOn keyToPath S) (hkey : key ∈ S) (h : s.Wired S self key)
    (he : s.Proper S e) (hstep : s.step self key e = some t) : t.Wired S self key := by
  have hmove := wireMove_of_step hstep
  exact ⟨sound_move hS hkey h.sound he hmove, noticed_move h.noticed h.sound hmove,
    owned_move h.owned hmove, inTransit_move hS hkey h.inTransit h.sound h.owned hmove,
    awaited_move hS hkey h.awaited h.sound hmove⟩

end Wire

end ContextDelivery
