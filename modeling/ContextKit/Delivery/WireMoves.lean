import ContextKit.Delivery.Wire

/-!
# What an event can do to a wire

`WireMove` takes the events apart, `Kept` says what an event inside of the subscriber leaves as it
is for the key, and `InsideMove` what it does to it.
-/

namespace ContextSubscriber
open ContextKit Transition

namespace Provider

variable {K V : Type} [DecidableEq K] (p : Provider K V) (key : K)

theorem subscribe_pluginConstructed :
    (p.subscribe key).1.pluginConstructed = p.pluginConstructed := by
  by_cases h : key ∈ p.toUnsubscribe
  · rw [subscribe_of_mem p key h]
  · rw [subscribe_of_notMem p key h]

theorem unsubscribe_pluginConstructed :
    (p.unsubscribe key).pluginConstructed = p.pluginConstructed := by
  by_cases h : key ∈ p.toSubscribe
  · rw [unsubscribe_of_mem p key h]
  · rw [unsubscribe_of_notMem p key h]

theorem onPluginValueChanged_pluginConstructed (v : TimedValue V) :
    (p.onPluginValueChanged key v).1.pluginConstructed = p.pluginConstructed := by
  unfold onPluginValueChanged
  split_ifs <;> rfl

end Provider

namespace DBusNameListener

/-- After a notice the presence is known. -/
theorem setServicePresent_present (l : DBusNameListener) :
    l.setServicePresent.1.servicePresent = .present := by
  unfold setServicePresent
  split_ifs with h
  · rfl
  · exact not_not.1 h

theorem setServiceGone_notPresent (l : DBusNameListener) :
    l.setServiceGone.1.servicePresent = .notPresent := by
  unfold setServiceGone
  split_ifs with h
  · rfl
  · exact not_not.1 h

end DBusNameListener

namespace Link

variable {V : Type}

/-- What the events inside of the subscriber keep: the presence of the name, the value of the key,
and the calls for it that wait for a reply. -/
structure Kept (key : String) (l m : Link V) : Prop where
  listener : m.listener = l.listener
  constructed : l.provider.pluginConstructed = true → m.provider.pluginConstructed = true
  values : m.provider.values key = l.provider.values key
  watchers : ∀ id : ℕ, l.plugin.watchers[id]? = some key → m.plugin.watchers[id]? = some key
  unfinished : ∀ id ∈ l.plugin.unfinished, l.plugin.watchers[id]? = some key →
    id ∈ m.plugin.unfinished

variable {key : String} {l m : Link V}

theorem Kept.refl (key : String) (l : Link V) : l.Kept key l :=
  ⟨rfl, id, rfl, fun _ h => h, fun _ h _ => h⟩

/-- Nothing but keys put off in the plugin, nothing but the schedules in the provider. -/
theorem Kept.of_noted {keys : Finset String} (hplugin : l.plugin.Noted keys m.plugin)
    (hlistener : m.listener = l.listener) (hvalues : m.provider.values = l.provider.values)
    (hconstructed : m.provider.pluginConstructed = l.provider.pluginConstructed) :
    l.Kept key m where
  listener := hlistener
  constructed := by rw [hconstructed]; exact id
  values := by rw [hvalues]
  watchers id := by rw [hplugin.watchers]; exact fun h => h
  unfinished id h _ := by rwa [hplugin.unfinished]

theorem noted_appeared {p : ContextKitPlugin} (h : p.Modern) : p.Noted ∅ p.appeared :=
  (ContextKitPlugin.noted_reset h).trans_empty
    ⟨fun h => ⟨rfl, h.defaultNewProtocol⟩, by simp [ContextKitPlugin.appeared],
      by simp [ContextKitPlugin.appeared], rfl, rfl, rfl⟩

theorem kept_emit (h : l.plugin.Modern) (listener : DBusNameListener) :
    l.Kept key (l.emit (l.plugin.onProviderAppeared listener)) := by
  have happeared := noted_appeared h
  rw [emit_eq h]
  split_ifs
  · exact .of_noted (happeared.trans
      (ContextKitPlugin.noted_subscribe (happeared.modern h) _)) rfl rfl rfl
  · exact .of_noted happeared rfl rfl rfl

theorem kept_handleSubscribes (h : l.plugin.Modern) :
    l.Kept key (l.carryOut (l.provider.dequeue .handleSubscribes).handleSubscribes) := by
  have hdequeue : (l.provider.dequeue .handleSubscribes).pluginState = l.provider.pluginState := rfl
  cases hs : l.provider.pluginState with
  | ready =>
    have hsub := ContextKitPlugin.noted_subscribe h l.provider.toSubscribe
    have hunsub := ContextKitPlugin.noted_unsubscribe (hsub.modern h) l.provider.toUnsubscribe
    rw [carryOut_eq h (hdequeue.trans hs)]
    exact .of_noted (hsub.trans_empty hunsub) rfl rfl rfl
  | failed =>
    rw [Provider.handleSubscribes_failed _ (hdequeue.trans hs)]
    exact .of_noted (.refl _) rfl rfl rfl
  | initializing =>
    rw [Provider.handleSubscribes_initializing _ (hdequeue.trans hs)]
    exact .of_noted (.refl _) rfl rfl rfl

theorem kept_newSubscribe (k : String) :
    l.Kept key { l with plugin := l.plugin.deliverNewSubscribe k } := by
  unfold ContextKitPlugin.deliverNewSubscribe ContextKitPlugin.newSubscribe
  dsimp only
  split_ifs
  · refine ⟨rfl, id, rfl, fun id hid => ?_, fun id hid _ => Finset.mem_insert_of_mem hid⟩
    exact (List.getElem?_append_left (List.getElem?_eq_some_iff.1 hid).1).trans hid
  · exact ⟨rfl, id, rfl, fun _ h => h, fun _ h _ => h⟩

/-- A value for another key is reported. -/
theorem kept_report {k : String} (hne : key ≠ k) (v : TimedValue V) :
    l.Kept key { l with provider := (l.provider.onPluginValueChanged k v).1 } := by
  unfold Provider.onPluginValueChanged
  split_ifs
  · exact ⟨rfl, id, Function.update_of_ne hne _ _, fun _ h => h, fun _ h _ => h⟩
  · exact .refl key l

theorem kept_onFinished {id : ℕ} (hid : l.plugin.watchers[id]? ≠ some key) :
    l.Kept key { l with plugin := l.plugin.onFinished id } := by
  refine ⟨rfl, fun h => h, rfl, fun i hi => ?_, fun i hi hk => ?_⟩
  · rwa [ContextKitPlugin.onFinished_watchers]
  · have hne : i ≠ id := fun heq => hid (heq ▸ hk)
    show i ∈ (l.plugin.onFinished id).unfinished
    unfold ContextKitPlugin.onFinished
    split
    · exact hi
    · exact Finset.mem_erase.2 ⟨hne, hi⟩

/-- The service is registered: but for the presence, everything is kept. -/
theorem kept_serviceRegistered (key : String) (h : l.plugin.Modern)
    (hstep : l.step .serviceRegistered = some m) :
    l.provider.pluginConstructed = true ∧ m.listener.servicePresent = .present ∧
      Kept key { l with listener := m.listener } m := by
  simp only [step, Option.ite_none_right_eq_some] at hstep
  obtain ⟨hconstructed, hstep⟩ := hstep
  refine ⟨hconstructed, ?_⟩
  split_ifs at hstep with hemit
  · obtain rfl := Option.some.inj hstep
    let l' : Link V :=
      { l with listener := l.listener.setServicePresent.1, appearedAt := l.plugin.watchers.length }
    have hkept : l'.Kept key (l'.emit (l'.plugin.onProviderAppeared l'.listener)) :=
      kept_emit (l := l') h l'.listener
    refine ⟨?_, ?_⟩
    · exact (congrArg _ hkept.listener).trans l.listener.setServicePresent_present
    · exact ⟨rfl, hkept.constructed, hkept.values, hkept.watchers, hkept.unfinished⟩
  · obtain rfl := Option.some.inj hstep
    exact ⟨l.listener.setServicePresent_present, .of_noted (.refl _) rfl rfl rfl⟩

/-- The service is unregistered: but for the presence, everything is kept. -/
theorem kept_serviceUnregistered (key : String) (h : l.plugin.Modern)
    (hstep : l.step .serviceUnregistered = some m) :
    l.provider.pluginConstructed = true ∧ m.listener.servicePresent = .notPresent ∧
      Kept key { l with listener := m.listener } m := by
  simp only [step, Option.ite_none_right_eq_some] at hstep
  obtain ⟨hconstructed, hstep⟩ := hstep
  refine ⟨hconstructed, ?_⟩
  split_ifs at hstep with hemit
  · obtain rfl := Option.some.inj hstep
    rw [Provider.onPluginFailed, Provider.handleSubscribes_failed _ rfl]
    exact ⟨l.listener.setServiceGone_notPresent,
      .of_noted (ContextKitPlugin.noted_reset h) rfl rfl rfl⟩
  · obtain rfl := Option.some.inj hstep
    exact ⟨l.listener.setServiceGone_notPresent, .of_noted (.refl _) rfl rfl rfl⟩

theorem Kept.trans {n : Link V} (h : l.Kept key m) (h' : m.Kept key n) : l.Kept key n where
  listener := h'.listener.trans h.listener
  constructed := h'.constructed ∘ h.constructed
  values := h'.values.trans h.values
  watchers i hi := h'.watchers i (h.watchers i hi)
  unfinished i hi hk := h'.unfinished i (h.unfinished i hi hk) (h.watchers i hk)

/-- The reply to a call for another key. -/
theorem kept_finish {id : ℕ} (hid : l.plugin.watchers[id]? ≠ some key)
    (value : Option (TimedValue V)) : l.Kept key (l.finish id value) := by
  have hfinished := kept_onFinished hid
  unfold finish
  cases hw : l.plugin.watchers[id]? with
  | none => exact hfinished
  | some k =>
    cases value with
    | none => exact hfinished
    | some v =>
      have hne : key ≠ k := fun heq => hid (by rw [hw, heq])
      exact hfinished.trans (kept_report (l := { l with plugin := l.plugin.onFinished id }) hne v)

theorem finish_pluginConstructed (l : Link V) (id : ℕ) (value : Option (TimedValue V)) :
    (l.finish id value).provider.pluginConstructed = l.provider.pluginConstructed := by
  unfold finish
  dsimp only
  split
  · exact Provider.onPluginValueChanged_pluginConstructed _ _ _
  · rfl

end Link

end ContextSubscriber

namespace ContextDelivery
open ContextKit ContextProvider ContextSubscriber Transition

namespace Wire

variable {C V : Type} [QVariant V] [DecidableEq C] {self : C} {key : String} {s t : Wire C V}

omit [QVariant V] [DecidableEq C] in
theorem kept_of_inside {e : LinkEvent V} {m : Link V} (hl : s.link.Linked) (he : s.Inside key e)
    (hstep : s.link.step e = some m) : s.link.Kept key m := by
  cases e with
  | constructPlugin =>
    simp only [Link.step, Option.ite_none_right_eq_some, Option.some.injEq] at hstep
    obtain ⟨-, rfl⟩ := hstep
    unfold Link.construct
    split_ifs
    · exact ⟨rfl, id, rfl, fun _ h => h, fun _ h _ => h⟩
    · exact ⟨rfl, fun _ => rfl, rfl, fun _ h => h, fun _ h _ => h⟩
  | providerAppeared =>
    simp only [Link.step, Option.ite_none_right_eq_some, Option.some.injEq] at hstep
    obtain ⟨-, rfl⟩ := hstep
    have hqueue : s.link.Kept key { s.link with appearedQueued := false } :=
      .of_noted (.refl _) rfl rfl rfl
    exact hqueue.trans (Link.kept_emit (l := { s.link with appearedQueued := false }) hl.modern _)
  | handleSubscribes =>
    simp only [Link.step, Option.ite_none_right_eq_some, Option.some.injEq] at hstep
    obtain ⟨-, rfl⟩ := hstep
    exact Link.kept_handleSubscribes hl.modern
  | newSubscribe k =>
    simp only [Link.step, Option.ite_none_right_eq_some, Option.some.injEq] at hstep
    obtain ⟨-, rfl⟩ := hstep
    exact Link.kept_newSubscribe k
  | subscribe k =>
    obtain rfl := Option.some.inj hstep
    exact .of_noted (.refl _) rfl (Provider.subscribe_values _ k)
      (Provider.subscribe_pluginConstructed _ k)
  | unsubscribe k =>
    obtain rfl := Option.some.inj hstep
    exact .of_noted (.refl _) rfl (Provider.unsubscribe_values _ k)
      (Provider.unsubscribe_pluginConstructed _ k)
  | reply id value =>
    simp only [Link.step, Option.ite_none_right_eq_some, Option.some.injEq] at hstep
    obtain ⟨-, rfl⟩ := hstep
    exact Link.kept_finish he value
  | serviceRegistered => exact he.elim
  | serviceUnregistered => exact he.elim
  | blockUntilSubscribed k order value => exact he.elim

omit [QVariant V] [DecidableEq C] in
theorem not_blocks {e : LinkEvent V} (he : s.Inside key e) : ¬ Link.Blocks e := by
  cases e with
  | blockUntilSubscribed k order v => exact fun _ => he
  | _ => exact id

/-- What an event inside of the subscriber does to the key: the user asks for something, `Subscribe`
is called, or the automaton makes a move of its own. -/
inductive InsideMove (key : String) (l : Link V) : LinkEvent V → Link V → Prop
  | wanted {m : Link V} (hview : m.view key = (l.view key).wanted) :
      InsideMove key l (.subscribe key) m
  | unwanted {m : Link V} (hview : m.view key = (l.view key).unwanted) :
      InsideMove key l (.unsubscribe key) m
  | called (hpending : key ∈ l.plugin.pendingKeys) :
      InsideMove key l (.newSubscribe key) { l with plugin := l.plugin.deliverNewSubscribe key }
  | moved {e : LinkEvent V} {m : Link V} (hview : KeyMove (l.view key) (m.view key)) :
      InsideMove key l e m

omit [QVariant V] [DecidableEq C] in
theorem insideMove_of_step {S : Set String} (hS : Set.InjOn keyToPath S) (hkey : key ∈ S)
    {e : LinkEvent V} {m : Link V} (hl : s.link.Linked) (hw : s.link.Within S)
    (he : s.Inside key e) (hstep : s.link.step e = some m) : InsideMove key s.link e m := by
  by_cases hcall : e = .newSubscribe key ∧ key ∈ s.link.plugin.pendingKeys
  · obtain ⟨rfl, hpending⟩ := hcall
    simp only [Link.step, Option.ite_none_right_eq_some, Option.some.injEq] at hstep
    obtain ⟨-, rfl⟩ := hstep
    exact .called hpending
  by_cases hwish : Link.wish e = some key
  · cases e with
    | subscribe k =>
      obtain rfl := Option.some.inj hwish
      obtain rfl := Option.some.inj hstep
      exact .wanted Link.view_subscribe
    | unsubscribe k =>
      obtain rfl := Option.some.inj hwish
      obtain rfl := Option.some.inj hstep
      exact .unwanted Link.view_unsubscribe
    | _ => cases hwish
  · exact .moved (Link.keyMove_of_step hS hkey hl hw hstep hwish (not_and.1 hcall) (not_blocks he))

/-- The plugin has made the calls `ms` on the object of the key. -/
theorem newCalls_of_append {p q : ContextKitPlugin} {ms : List Member}
    (h : q.calls (keyToPath key) = p.calls (keyToPath key) ++ ms) :
    newCalls key p q = ms.map (.ofMember p.watchers.length) := by
  unfold newCalls
  rw [h, List.drop_left]

theorem newCalls_of_eq {p q : ContextKitPlugin}
    (h : q.calls (keyToPath key) = p.calls (keyToPath key)) : newCalls key p q = [] :=
  newCalls_of_append (h.trans (List.append_nil _).symm)

/-- The events of a wire, taken apart. -/
inductive WireMove (self : C) (key : String) (s : Wire C V) : WireEvent C V → Wire C V → Prop
  | inside {e : LinkEvent V} {m : Link V} (he : s.Inside key e) (hstep : s.link.step e = some m) :
      WireMove self key s (.link e) (s.advance key m)
  | ruled {rule : Bool} {rules : List Bool} (hrules : s.rules = rule :: rules) :
      WireMove self key s .rule { s with rules := rules, matched := rule }
  | served {call : ObjectCall} {calls : List ObjectCall} (handler : List (V × ℕ))
      (hcalls : s.calls = call :: calls) (hup : s.up = true) :
      WireMove self key s (.serve handler)
        ({ s with calls := calls }.handleCall self call handler)
  | refused {call : ObjectCall} {calls : List ObjectCall} (hcalls : s.calls = call :: calls)
      (hup : s.up = false) : WireMove self key s .refuse ({ s with calls := calls }.refuseCall call)
  | elsewhere {e : AdaptorEvent C V} (he : s.Elsewhere self e) :
      WireMove self key s (.adaptor e) (s.publish self (s.adaptor.perform e).1 none)
  | started (hup : s.up = false) :
      WireMove self key s .start ({ s with up := true }.notify .serviceRegistered)
  | stopped (handler : List (V × ℕ)) (hup : s.up = true) :
      WireMove self key s (.stop handler)
        ({ s.publish self (s.adaptor.forgetClients handler).1 none with
          up := false }.notify .serviceUnregistered)
  | exited (now : ℕ) (hup : s.up = true) :
      WireMove self key s (.exit now)
        ({ s with up := false, adaptor := .init now }.notify .serviceUnregistered)
  | replied {id : ℕ} {content : Option (ValueChanged V)} {ms : List (BusMessage V)} {m : Link V}
      (hms : s.toSubscriber = .reply id content :: ms)
      (hstep : s.link.step
        (.reply id (content.map fun c => createTimedValue c.values c.timestamp)) = some m) :
      WireMove self key s .deliver
        { advance key { s with toSubscriber := ms } m with reported := content.or s.reported }
  | changed {content : ValueChanged V} {ms : List (BusMessage V)} {k : String} {v : TimedValue V}
      (hms : s.toSubscriber = .valueChanged content :: ms)
      (hconnected : keyToPath key ∈ s.link.plugin.connections)
      (hentry : s.link.plugin.onNewValueChanged (keyToPath key) content.values content.timestamp =
        some (k, v)) :
      WireMove self key s .deliver ({ s with toSubscriber := ms }.report key k v content)
  | ignored {content : ValueChanged V} {ms : List (BusMessage V)}
      (hms : s.toSubscriber = .valueChanged content :: ms)
      (hnot : keyToPath key ∉ s.link.plugin.connections ∨
        s.link.plugin.objectPathToKey (keyToPath key) = none) :
      WireMove self key s .deliver { s with toSubscriber := ms }
  | appeared {m : Link V} {ms : List (BusMessage V)}
      (hms : s.toSubscriber = .serviceRegistered :: ms)
      (hstep : s.link.step .serviceRegistered = some m) :
      WireMove self key s .deliver (advance key { s with toSubscriber := ms } m)
  | disappeared {m : Link V} {ms : List (BusMessage V)}
      (hms : s.toSubscriber = .serviceUnregistered :: ms)
      (hstep : s.link.step .serviceUnregistered = some m) :
      WireMove self key s .deliver (advance key { s with toSubscriber := ms } m)

/-- A message reaches the subscriber. -/
theorem wireMove_deliver (hstep : s.step self key .deliver = some t) :
    WireMove self key s .deliver t := by
  simp only [step] at hstep
  cases hms : s.toSubscriber with
  | nil =>
    rw [hms] at hstep
    cases hstep
  | cons m ms =>
    rw [hms] at hstep
    cases m with
    | reply id content =>
      obtain ⟨l, hl, rfl⟩ := Option.map_eq_some_iff.1 hstep
      exact .replied hms hl
    | valueChanged content =>
      simp only [receive, Option.some.injEq] at hstep
      split_ifs at hstep with hconn
      · cases hentry : s.link.plugin.onNewValueChanged (keyToPath key) content.values
            content.timestamp with
        | none =>
          rw [hentry] at hstep
          subst hstep
          refine .ignored hms (Or.inr ?_)
          simpa [ContextKitPlugin.onNewValueChanged] using hentry
        | some kv =>
          rw [hentry] at hstep
          subst hstep
          exact .changed hms hconn hentry
      · subst hstep
        exact .ignored hms (Or.inl hconn)
    | serviceRegistered =>
      obtain ⟨l, hl, rfl⟩ := Option.map_eq_some_iff.1 hstep
      exact .appeared hms hl
    | serviceUnregistered =>
      obtain ⟨l, hl, rfl⟩ := Option.map_eq_some_iff.1 hstep
      exact .disappeared hms hl

theorem wireMove_of_step {e : WireEvent C V} (hstep : s.step self key e = some t) :
    WireMove self key s e t := by
  cases e with
  | link e =>
    simp only [step, Option.ite_none_right_eq_some, Option.map_eq_some_iff] at hstep
    obtain ⟨he, m, hm, rfl⟩ := hstep
    exact .inside he hm
  | rule =>
    simp only [step] at hstep
    cases hrules : s.rules with
    | nil =>
      rw [hrules] at hstep
      cases hstep
    | cons rule rules =>
      rw [hrules] at hstep
      cases hstep
      exact .ruled hrules
  | serve handler =>
    simp only [step] at hstep
    cases hcalls : s.calls with
    | nil =>
      rw [hcalls] at hstep
      cases hstep
    | cons call calls =>
      simp only [hcalls, Option.ite_none_right_eq_some, Option.some.injEq] at hstep
      obtain ⟨hup, rfl⟩ := hstep
      exact .served handler hcalls hup
  | refuse =>
    simp only [step] at hstep
    cases hcalls : s.calls with
    | nil =>
      rw [hcalls] at hstep
      cases hstep
    | cons call calls =>
      simp only [hcalls, Option.ite_none_left_eq_some, Option.some.injEq, Bool.not_eq_true] at hstep
      obtain ⟨hup, rfl⟩ := hstep
      exact .refused hcalls hup
  | adaptor e =>
    simp only [step, Option.ite_none_right_eq_some, Option.some.injEq] at hstep
    obtain ⟨he, rfl⟩ := hstep
    exact .elsewhere he
  | start =>
    simp only [step, Option.ite_none_left_eq_some, Option.some.injEq, Bool.not_eq_true] at hstep
    obtain ⟨hup, rfl⟩ := hstep
    exact .started hup
  | stop handler =>
    simp only [step, Option.ite_none_right_eq_some, Option.some.injEq] at hstep
    obtain ⟨hup, rfl⟩ := hstep
    exact .stopped handler hup
  | exit now =>
    simp only [step, Option.ite_none_right_eq_some, Option.some.injEq] at hstep
    obtain ⟨hup, rfl⟩ := hstep
    exact .exited now hup
  | deliver => exact wireMove_deliver hstep

end Wire

end ContextDelivery
