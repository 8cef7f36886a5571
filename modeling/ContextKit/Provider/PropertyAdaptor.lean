import Mathlib.Data.Finset.Card
import ContextKit.Provider.PropertyPrivate
import ContextKit.Transition.Run

/-!
# `PropertyAdaptor`: a property and its clients

The adaptor keeps the set of the clients that have subscribed and sets its `PropertyPrivate` to
subscribed or unsubscribed when the set gets its first or loses its last element.  The signal about
that reaches the user of the library, whose handler may set values before the operation goes on: the
handler is part of the event, as the list of the values it sets.

`sent` records, the newest first, what has been put on the bus for the clients: the replies to
`Subscribe`, each for its caller, and the signals `ValueChanged`, for all of them.

What a client is told is compared with the value as `setValue` compares values.  But `setValue`
compares the new value with the one emitted last, and a client that has subscribed since was told
another one, which is only alike that; where the comparison is not transitive such a client may miss
a change.  `Confuses` says when.
-/

namespace ContextProvider
open ContextKit Transition

/-- What the user of the library is told about the subscription of a property. -/
inductive SubscriptionSignal
  | firstSubscriberAppeared
  | lastSubscriberDisappeared
  deriving DecidableEq

/-- The signal that tells how the flag `subscribed` has changed. -/
def SubscriptionSignal.Tells (before after : Bool) : Option SubscriptionSignal → Prop
  | none => after = before
  | some .firstSubscriberAppeared => before = false ∧ after = true
  | some .lastSubscriberDisappeared => before = true ∧ after = false

/-- A message of the adaptor. -/
inductive Message (C V : Type)
  | reply (client : C) (content : ValueChanged V)
  | signal (content : ValueChanged V)
  deriving DecidableEq

/-- What `client` gets out of a message. -/
def Message.contentFor {C V : Type} [DecidableEq C] (client : C) :
    Message C V → Option (ValueChanged V)
  | .reply c content => if c = client then some content else none
  | .signal content => some content

structure PropertyAdaptor (C V : Type) where
  propertyPrivate : PropertyPrivate V
  clientServiceNames : Finset C
  sent : List (Message C V)

/-- What can happen to a property: its user sets it, a client calls, exits from the bus or is
forgotten, another provider is overheard.  `handler` is what the user sets, and when, in answer to a
signal about the subscription. -/
inductive AdaptorEvent (C V : Type)
  | setValue (v : V) (now : ℕ)
  | Subscribe (client : C) (handler : List (V × ℕ))
  | Unsubscribe (client : C) (handler : List (V × ℕ))
  | onClientExited (client : C) (handler : List (V × ℕ))
  | forgetClients (handler : List (V × ℕ))
  | onValueChanged (values : List V) (timestamp : ℕ)

/-- No value is set in the course of an event. -/
def AdaptorEvent.SetsNothing {C V : Type} : AdaptorEvent C V → Prop
  | .setValue _ _ => False
  | .Subscribe _ handler | .Unsubscribe _ handler | .onClientExited _ handler
  | .forgetClients handler => handler = []
  | .onValueChanged _ _ => True

variable {C V : Type} [QVariant V]

namespace PropertyPrivate

/-! ### What the slots leave to be told -/

/-- A slot made `q` of `p` and emitted `m`: what is emitted is the value, and a subscribed property
emits whenever it takes another value for the emitted one. -/
structure Tells (p q : PropertyPrivate V) (m : Option (ValueChanged V)) : Prop where
  subscribed : q.subscribed = p.subscribed
  emitted : Alike q.value q.emittedValue
  told : ∀ c, m = some c → c.values = encode q.value ∧ q.emittedValue = q.value
  silent : m = none → p.subscribed = true → q.emittedValue = p.emittedValue

/-- An emission of the value. -/
theorem tells_emission (p q : PropertyPrivate V) (hs : q.subscribed = p.subscribed)
    (he : q.emittedValue = q.value) (t : ℕ) :
    p.Tells q (if p.subscribed then some ⟨encode q.value, t⟩ else none) where
  subscribed := hs
  emitted := he ▸ Alike.refl _
  told c hc := by
    rw [Option.ite_none_right_eq_some, Option.some.injEq] at hc
    obtain ⟨-, rfl⟩ := hc
    exact ⟨rfl, he⟩
  silent hm hp := by
    rw [if_pos hp] at hm
    cases hm

theorem emitValue_tells (p : PropertyPrivate V) : p.Tells p.emitValue.1 p.emitValue.2 := by
  cases hu : p.upToDate with
  | true =>
    have heq : p.emitValue = (p, none) := if_pos hu
    rw [heq]
    exact ⟨rfl, Alike.symm (.of_differs (upToDate_iff.1 hu).2), nofun, fun _ _ => rfl⟩
  | false =>
    rw [emitValue_of_not_upToDate hu]
    exact tells_emission p { p with
      emittedValue := p.value, emittedTimestamp := p.timestamp, overheard := false }
      rfl rfl p.timestamp

theorem setValue_tells (p : PropertyPrivate V) (v : V) (now : ℕ) :
    p.Tells (p.setValue v now).1 (p.setValue v now).2 := by
  by_cases h : p.Withholds v now
  · rw [setValue_silent h]
    exact ⟨rfl, h.alike, nofun, fun _ _ => rfl⟩
  · rw [setValue_emits h]
    exact tells_emission p ⟨v, now, p.subscribed, v, now, false⟩ rfl rfl now

theorem updateOverheardValue_tells {p : PropertyPrivate V} (hp : Alike p.value p.emittedValue)
    (values : List V) (t : ℕ) :
    p.Tells (p.updateOverheardValue values t).1 (p.updateOverheardValue values t).2 := by
  have hemit := emitValue_tells { p with overheard := true }
  unfold updateOverheardValue
  dsimp only
  split_ifs with h
  · exact ⟨hemit.subscribed, hemit.emitted, hemit.told, hemit.silent⟩
  · exact ⟨rfl, hp, nofun, fun _ _ => rfl⟩

end PropertyPrivate

namespace PropertyAdaptor

/-- The adaptor of a property constructed at the time `now`. -/
def init (now : ℕ) : PropertyAdaptor C V := ⟨PropertyPrivate.init now, ∅, []⟩

omit [QVariant V] in
/-- A slot of the property ran with the result `r`: its signal is sent on. -/
def forward (a : PropertyAdaptor C V) (r : PropertyPrivate V × Option (ValueChanged V)) :
    PropertyAdaptor C V :=
  { a with propertyPrivate := r.1, sent := (r.2.map Message.signal).toList ++ a.sent }

def setValue (a : PropertyAdaptor C V) (v : V) (now : ℕ) : PropertyAdaptor C V :=
  a.forward (a.propertyPrivate.setValue v now)

/-- The user's handler sets its values. -/
def handle (a : PropertyAdaptor C V) (handler : List (V × ℕ)) : PropertyAdaptor C V :=
  handler.foldl (fun a s => a.setValue s.1 s.2) a

/-- Calls `setSubscribed` of the property. -/
def setSubscribed (a : PropertyAdaptor C V) (handler : List (V × ℕ)) :
    PropertyAdaptor C V × Option SubscriptionSignal :=
  let r := a.propertyPrivate.setSubscribed
  let a := { a with propertyPrivate := r.1 }
  if r.2 then (a.handle handler, some .firstSubscriberAppeared) else (a, none)

/-- Calls `setUnsubscribed` of the property. -/
def setUnsubscribed (a : PropertyAdaptor C V) (handler : List (V × ℕ)) :
    PropertyAdaptor C V × Option SubscriptionSignal :=
  let r := a.propertyPrivate.setUnsubscribed
  let a := { a with propertyPrivate := r.1 }
  if r.2 then (a.handle handler, some .lastSubscriberDisappeared) else (a, none)

variable [DecidableEq C]

/-- The D-Bus method `Subscribe`, up to its reply. -/
def addClient (a : PropertyAdaptor C V) (client : C) (handler : List (V × ℕ)) :
    PropertyAdaptor C V × Option SubscriptionSignal :=
  if client ∉ a.clientServiceNames then
    let a := { a with clientServiceNames := insert client a.clientServiceNames }
    if a.clientServiceNames.card = 1 then a.setSubscribed handler else (a, none)
  else (a, none)

/-- The D-Bus method `Subscribe`.  Its reply is made by `Get`. -/
def Subscribe (a : PropertyAdaptor C V) (client : C) (handler : List (V × ℕ)) :
    PropertyAdaptor C V × Option SubscriptionSignal :=
  let r := a.addClient client handler
  ({ r.1 with sent := .reply client r.1.propertyPrivate.get :: r.1.sent }, r.2)

/-- The D-Bus method `Unsubscribe`. -/
def Unsubscribe (a : PropertyAdaptor C V) (client : C) (handler : List (V × ℕ)) :
    PropertyAdaptor C V × Option SubscriptionSignal :=
  if client ∈ a.clientServiceNames then
    let a := { a with clientServiceNames := a.clientServiceNames.erase client }
    if a.clientServiceNames.card = 0 then a.setUnsubscribed handler else (a, none)
  else (a, none)

/-- A name has left the bus. -/
def onClientExited (a : PropertyAdaptor C V) (busName : C) (handler : List (V × ℕ)) :
    PropertyAdaptor C V × Option SubscriptionSignal :=
  let removed := busName ∈ a.clientServiceNames
  let a := { a with clientServiceNames := a.clientServiceNames.erase busName }
  if removed ∧ a.clientServiceNames.card = 0 then a.setUnsubscribed handler else (a, none)

omit [DecidableEq C] in
/-- The service is stopped. -/
def forgetClients (a : PropertyAdaptor C V) (handler : List (V × ℕ)) :
    PropertyAdaptor C V × Option SubscriptionSignal :=
  { a with clientServiceNames := ∅ }.setUnsubscribed handler

/-- The whole operation an event starts, and the signal about the subscription it emits. -/
def perform (a : PropertyAdaptor C V) :
    AdaptorEvent C V → PropertyAdaptor C V × Option SubscriptionSignal
  | .setValue v now => (a.setValue v now, none)
  | .Subscribe client handler => a.Subscribe client handler
  | .Unsubscribe client handler => a.Unsubscribe client handler
  | .onClientExited client handler => a.onClientExited client handler
  | .forgetClients handler => a.forgetClients handler
  | .onValueChanged values timestamp =>
    (a.forward (a.propertyPrivate.updateOverheardValue values timestamp), none)

def step (a : PropertyAdaptor C V) (e : AdaptorEvent C V) : Option (PropertyAdaptor C V) :=
  some (a.perform e).1

/-- What the last message to `client` carried. -/
def lastSent (a : PropertyAdaptor C V) (client : C) : Option (ValueChanged V) :=
  a.sent.findSome? (Message.contentFor client)

/-! ### When the subscription is signalled -/

omit [DecidableEq C] in
@[simp] theorem subscribed_handle (a : PropertyAdaptor C V) (handler : List (V × ℕ)) :
    (a.handle handler).propertyPrivate.subscribed = a.propertyPrivate.subscribed := by
  induction handler generalizing a with
  | nil => rfl
  | cons s handler ih =>
    exact (ih (a.setValue s.1 s.2)).trans
      (PropertyPrivate.setValue_tells a.propertyPrivate s.1 s.2).subscribed

omit [DecidableEq C] in
theorem setSubscribed_signal (a : PropertyAdaptor C V) (handler : List (V × ℕ)) :
    SubscriptionSignal.Tells a.propertyPrivate.subscribed
      (a.setSubscribed handler).1.propertyPrivate.subscribed (a.setSubscribed handler).2 := by
  unfold setSubscribed PropertyPrivate.setSubscribed
  by_cases hs : a.propertyPrivate.subscribed = false
  · rw [if_pos hs]
    exact ⟨hs, by simp⟩
  · rw [if_neg hs]
    exact rfl

omit [DecidableEq C] in
theorem setUnsubscribed_signal (a : PropertyAdaptor C V) (handler : List (V × ℕ)) :
    SubscriptionSignal.Tells a.propertyPrivate.subscribed
      (a.setUnsubscribed handler).1.propertyPrivate.subscribed (a.setUnsubscribed handler).2 := by
  unfold setUnsubscribed PropertyPrivate.setUnsubscribed
  by_cases hs : a.propertyPrivate.subscribed = true
  · rw [if_pos hs]
    exact ⟨hs, by simp⟩
  · rw [if_neg hs]
    exact rfl

/-- Every change of the flag is signalled once, and nothing else is. -/
theorem perform_signal (a : PropertyAdaptor C V) (e : AdaptorEvent C V) :
    SubscriptionSignal.Tells a.propertyPrivate.subscribed
      (a.perform e).1.propertyPrivate.subscribed (a.perform e).2 := by
  cases e with
  | setValue v now => exact (PropertyPrivate.setValue_tells a.propertyPrivate v now).subscribed
  | Subscribe client handler =>
    show SubscriptionSignal.Tells _ (a.addClient client handler).1.propertyPrivate.subscribed
      (a.addClient client handler).2
    unfold addClient
    dsimp only
    by_cases hmem : client ∈ a.clientServiceNames
    · rw [if_neg (not_not.2 hmem)]
      exact rfl
    · rw [if_pos hmem]
      split_ifs
      · exact setSubscribed_signal { a with
          clientServiceNames := insert client a.clientServiceNames } handler
      · exact rfl
  | Unsubscribe client handler =>
    unfold perform PropertyAdaptor.Unsubscribe
    dsimp only
    split_ifs
    · exact setUnsubscribed_signal { a with
        clientServiceNames := a.clientServiceNames.erase client } handler
    · exact rfl
    · exact rfl
  | onClientExited client handler =>
    unfold perform PropertyAdaptor.onClientExited
    dsimp only
    split_ifs
    · exact setUnsubscribed_signal { a with
        clientServiceNames := a.clientServiceNames.erase client } handler
    · exact rfl
  | forgetClients handler => exact setUnsubscribed_signal { a with clientServiceNames := ∅ } handler
  | onValueChanged values timestamp =>
    have hemit := PropertyPrivate.emitValue_tells { a.propertyPrivate with overheard := true }
    show (a.propertyPrivate.updateOverheardValue values timestamp).1.subscribed = _
    unfold PropertyPrivate.updateOverheardValue
    dsimp only
    split_ifs
    · exact hemit.subscribed
    · rfl

/-! ### What sets the value -/

omit [DecidableEq C] in
theorem setValue_value (a : PropertyAdaptor C V) (v : V) (now : ℕ) :
    (a.setValue v now).propertyPrivate.value = v :=
  PropertyPrivate.setValue_value a.propertyPrivate v now

/-- Only the user of the library sets the value. -/
theorem perform_value (a : PropertyAdaptor C V) {e : AdaptorEvent C V} (he : e.SetsNothing) :
    (a.perform e).1.propertyPrivate.value = a.propertyPrivate.value := by
  cases e with
  | setValue v now => exact he.elim
  | Subscribe client handler =>
    obtain rfl : handler = [] := he
    show (a.addClient client []).1.propertyPrivate.value = _
    unfold addClient setSubscribed PropertyPrivate.setSubscribed
    dsimp only
    split_ifs <;> rfl
  | Unsubscribe client handler =>
    obtain rfl : handler = [] := he
    unfold perform PropertyAdaptor.Unsubscribe setUnsubscribed PropertyPrivate.setUnsubscribed
    dsimp only
    split_ifs <;> rfl
  | onClientExited client handler =>
    obtain rfl : handler = [] := he
    unfold perform PropertyAdaptor.onClientExited setUnsubscribed PropertyPrivate.setUnsubscribed
    dsimp only
    split_ifs <;> rfl
  | forgetClients handler =>
    obtain rfl : handler = [] := he
    unfold perform PropertyAdaptor.forgetClients setUnsubscribed PropertyPrivate.setUnsubscribed
    dsimp only
    split_ifs <;> rfl
  | onValueChanged values timestamp =>
    exact PropertyPrivate.updateOverheardValue_value a.propertyPrivate values timestamp

/-- Whoever calls `Subscribe` is a client afterwards. -/
theorem mem_Subscribe (a : PropertyAdaptor C V) (client : C) :
    client ∈ (a.Subscribe client []).1.clientServiceNames := by
  show client ∈ (a.addClient client []).1.clientServiceNames
  unfold addClient setSubscribed PropertyPrivate.setSubscribed
  by_cases hmem : client ∈ a.clientServiceNames
  · rw [if_neg (not_not.2 hmem)]
    exact hmem
  · rw [if_pos hmem]
    dsimp only
    split_ifs <;> exact Finset.mem_insert_self client _

/-! ### What the clients are told -/

/-- The last message to `client` carried `v`. -/
def WasTold (a : PropertyAdaptor C V) (client : C) (v : V) : Prop :=
  ∃ m, a.lastSent client = some m ∧ m.values = encode v

/-- Between two operations: the property is subscribed while it has clients, its value is alike what
it has emitted, and so is what the clients were told. -/
structure Sound (a : PropertyAdaptor C V) : Prop where
  subscribed : a.propertyPrivate.subscribed = true ↔ a.clientServiceNames.Nonempty
  emitted : Alike a.propertyPrivate.value a.propertyPrivate.emittedValue
  told : ∀ client ∈ a.clientServiceNames,
    ∃ v, a.WasTold client v ∧ Alike v a.propertyPrivate.emittedValue

omit [DecidableEq C] in
@[simp] theorem clientServiceNames_setValue (a : PropertyAdaptor C V) (v : V) (now : ℕ) :
    (a.setValue v now).clientServiceNames = a.clientServiceNames := rfl

/-- A slot that emits nothing tells nobody anything. -/
theorem wasTold_forward_silent {a : PropertyAdaptor C V}
    {r : PropertyPrivate V × Option (ValueChanged V)} (h : r.2 = none) (client : C) (v : V) :
    (a.forward r).WasTold client v ↔ a.WasTold client v := by
  simp [WasTold, lastSent, PropertyAdaptor.forward, h]

/-- Every client hears a signal. -/
theorem wasTold_forward_signal {a : PropertyAdaptor C V}
    {r : PropertyPrivate V × Option (ValueChanged V)} {c : ValueChanged V} (h : r.2 = some c)
    {v : V} (hv : c.values = encode v) (client : C) : (a.forward r).WasTold client v := by
  refine ⟨c, ?_, hv⟩
  show ((r.2.map Message.signal).toList ++ a.sent).findSome? _ = some c
  rw [h]
  rfl

theorem wasTold_reply {a : PropertyAdaptor C V} {client c : C} (h : c ≠ client) (v : V) :
    WasTold { a with sent := .reply client a.propertyPrivate.get :: a.sent } c v ↔
      a.WasTold c v := by
  simp [WasTold, lastSent, Message.contentFor, h.symm]

theorem wasTold_reply_self (a : PropertyAdaptor C V) (client : C) :
    WasTold { a with sent := .reply client a.propertyPrivate.get :: a.sent } client
      a.propertyPrivate.value :=
  ⟨a.propertyPrivate.get, by simp [lastSent, Message.contentFor], rfl⟩

theorem Sound.forward {a : PropertyAdaptor C V} (h : a.Sound)
    {r : PropertyPrivate V × Option (ValueChanged V)} (hr : a.propertyPrivate.Tells r.1 r.2) :
    (a.forward r).Sound where
  subscribed := by
    show r.1.subscribed = true ↔ a.clientServiceNames.Nonempty
    rw [hr.subscribed, h.subscribed]
  emitted := hr.emitted
  told client hc := by
    show ∃ v, (a.forward r).WasTold client v ∧ Alike v r.1.emittedValue
    cases hm : r.2 with
    | none =>
      obtain ⟨v, hv, halike⟩ := h.told client hc
      rw [hr.silent hm (h.subscribed.2 ⟨client, hc⟩)]
      exact ⟨v, (wasTold_forward_silent hm client v).2 hv, halike⟩
    | some c =>
      obtain ⟨hvalues, hemitted⟩ := hr.told c hm
      exact ⟨r.1.value, wasTold_forward_signal hm hvalues client, hemitted ▸ Alike.refl _⟩

theorem Sound.setValue {a : PropertyAdaptor C V} (h : a.Sound) (v : V) (now : ℕ) :
    (a.setValue v now).Sound :=
  h.forward (PropertyPrivate.setValue_tells _ v now)

omit [DecidableEq C] in
/-- A handler sets values, and the rest of the property stays in order. -/
theorem handle_waiting (a : PropertyAdaptor C V) (handler : List (V × ℕ))
    (he : Alike a.propertyPrivate.value a.propertyPrivate.emittedValue) :
    (a.handle handler).clientServiceNames = a.clientServiceNames ∧
      (a.handle handler).propertyPrivate.subscribed = a.propertyPrivate.subscribed ∧
      Alike (a.handle handler).propertyPrivate.value
        (a.handle handler).propertyPrivate.emittedValue := by
  induction handler generalizing a with
  | nil => exact ⟨rfl, rfl, he⟩
  | cons s handler ih =>
    have htells := PropertyPrivate.setValue_tells a.propertyPrivate s.1 s.2
    obtain ⟨hclients, hs, he'⟩ := ih (a.setValue s.1 s.2) htells.emitted
    exact ⟨hclients, hs.trans htells.subscribed, he'⟩

/-- Everything about `Subscribe` but its reply: the property is in order, and whoever else is a
client was one before and has heard nothing. -/
theorem Sound.addClient {a : PropertyAdaptor C V} (h : a.Sound) (client : C)
    (handler : List (V × ℕ)) {b : PropertyAdaptor C V}
    (hb : b = (a.addClient client handler).1) :
    (b.propertyPrivate.subscribed = true ↔ b.clientServiceNames.Nonempty) ∧
      Alike b.propertyPrivate.value b.propertyPrivate.emittedValue ∧
      ∀ c ∈ b.clientServiceNames, c ≠ client →
        c ∈ a.clientServiceNames ∧ b.sent = a.sent ∧ b.propertyPrivate = a.propertyPrivate := by
  unfold PropertyAdaptor.addClient at hb
  dsimp only at hb
  by_cases hmem : client ∈ a.clientServiceNames
  · rw [if_neg (not_not.2 hmem)] at hb
    subst hb
    exact ⟨h.subscribed, h.emitted, fun c hc _ => ⟨hc, rfl, rfl⟩⟩
  · rw [if_pos hmem] at hb
    by_cases hcard : (insert client a.clientServiceNames).card = 1
    · -- The first client, so the user's handler runs before the reply.
      rw [if_pos hcard] at hb
      have hclients : a.clientServiceNames = ∅ := by
        rw [Finset.card_insert_of_notMem hmem] at hcard
        exact Finset.card_eq_zero.1 (by omega)
      have hs : a.propertyPrivate.subscribed = false := by
        by_contra hs
        obtain ⟨c, hc⟩ := h.subscribed.1 (by simpa using hs)
        simp [hclients] at hc
      have hset : a.propertyPrivate.setSubscribed =
          ({ a.propertyPrivate with subscribed := true }, true) := if_pos hs
      simp only [setSubscribed, hset, if_true] at hb
      subst hb
      obtain ⟨hc, hs', he⟩ := handle_waiting ⟨{ a.propertyPrivate with subscribed := true },
        insert client a.clientServiceNames, a.sent⟩ handler h.emitted
      refine ⟨?_, he, fun c hcc hne => ?_⟩
      · rw [hs', hc]
        exact iff_of_true rfl ⟨client, Finset.mem_insert_self _ _⟩
      · rw [hc] at hcc
        simp [hclients, hne] at hcc
    · rw [if_neg hcard] at hb
      subst hb
      have hne : a.clientServiceNames.Nonempty := by
        rw [Finset.nonempty_iff_ne_empty]
        intro hempty
        exact hcard (by simp [hempty])
      exact ⟨iff_of_true (h.subscribed.2 hne) ⟨client, Finset.mem_insert_self _ _⟩, h.emitted,
        fun c hc hcc => ⟨Finset.mem_of_mem_insert_of_ne hc hcc, rfl, rfl⟩⟩

/-- What the other clients of a `Subscribe` were told stays. -/
theorem Sound.wasTold_Subscribe {a : PropertyAdaptor C V} (h : a.Sound) {client c : C}
    {handler : List (V × ℕ)} (hc : c ∈ (a.Subscribe client handler).1.clientServiceNames)
    (hne : c ≠ client) (v : V) :
    (a.Subscribe client handler).1.WasTold c v ↔ a.WasTold c v := by
  have hsent := ((h.addClient client handler rfl).2.2 c hc hne).2.1
  refine (wasTold_reply hne v).trans ?_
  unfold WasTold lastSent
  rw [hsent]

theorem Sound.Subscribe {a : PropertyAdaptor C V} (h : a.Sound) (client : C)
    (handler : List (V × ℕ)) : (a.Subscribe client handler).1.Sound := by
  obtain ⟨hs, he, hothers⟩ := h.addClient client handler rfl
  refine ⟨hs, he, fun c hc => ?_⟩
  by_cases hcc : c = client
  · subst hcc
    exact ⟨_, wasTold_reply_self _ c, he⟩
  · obtain ⟨hmem, -, hp⟩ := hothers c hc hcc
    obtain ⟨v, hv, halike⟩ := h.told c hmem
    refine ⟨v, (h.wasTold_Subscribe hc hcc v).2 hv, ?_⟩
    show Alike v (a.addClient client handler).1.propertyPrivate.emittedValue
    rwa [hp]

/-- The last client is gone. -/
theorem sound_setUnsubscribed {a : PropertyAdaptor C V}
    (he : Alike a.propertyPrivate.value a.propertyPrivate.emittedValue)
    (hclients : a.clientServiceNames = ∅) (handler : List (V × ℕ)) :
    (a.setUnsubscribed handler).1.Sound ∧
      (a.setUnsubscribed handler).1.clientServiceNames = ∅ := by
  unfold PropertyAdaptor.setUnsubscribed PropertyPrivate.setUnsubscribed
  split_ifs with hs
  · obtain ⟨hc, hs', he'⟩ := handle_waiting ⟨{ a.propertyPrivate with subscribed := false },
      a.clientServiceNames, a.sent⟩ handler he
    have hempty := hc.trans hclients
    refine ⟨⟨?_, he', fun c hcc => ?_⟩, hempty⟩
    · show (PropertyAdaptor.handle _ _).propertyPrivate.subscribed = true ↔ _
      rw [hs']
      simp [hempty]
    · change c ∈ (PropertyAdaptor.handle _ _).clientServiceNames at hcc
      simp [hempty] at hcc
  · exact ⟨⟨by simp [hclients, hs], he, by simp [hclients]⟩, hclients⟩

/-- A client is gone, and it is not the last one. -/
theorem Sound.erase {a : PropertyAdaptor C V} (h : a.Sound) {client : C}
    (hcard : client ∈ a.clientServiceNames → (a.clientServiceNames.erase client).card ≠ 0) :
    Sound { a with clientServiceNames := a.clientServiceNames.erase client } where
  subscribed := by
    rw [h.subscribed]
    refine ⟨fun hne => ?_, fun hne => hne.mono (Finset.erase_subset _ _)⟩
    by_cases hmem : client ∈ a.clientServiceNames
    · exact Finset.card_ne_zero.1 (hcard hmem)
    · rwa [Finset.erase_eq_of_notMem hmem]
  emitted := h.emitted
  told c hc := h.told c (Finset.mem_of_mem_erase hc)

/-- What is left of an operation by which nobody becomes a client: whoever still is one has heard
nothing, and the value is the old one. -/
structure Leaves (a b : PropertyAdaptor C V) : Prop where
  sound : b.Sound
  others : ∀ c ∈ b.clientServiceNames,
    c ∈ a.clientServiceNames ∧ b.sent = a.sent ∧ b.propertyPrivate.value = a.propertyPrivate.value

theorem leaves_setUnsubscribed {a b : PropertyAdaptor C V}
    (he : Alike b.propertyPrivate.value b.propertyPrivate.emittedValue)
    (hclients : b.clientServiceNames = ∅) (handler : List (V × ℕ)) :
    a.Leaves (b.setUnsubscribed handler).1 := by
  obtain ⟨hsound, hempty⟩ := sound_setUnsubscribed he hclients handler
  exact ⟨hsound, fun c hc => by simp [hempty] at hc⟩

theorem Sound.leaves_Unsubscribe {a : PropertyAdaptor C V} (h : a.Sound) (client : C)
    (handler : List (V × ℕ)) : a.Leaves (a.Unsubscribe client handler).1 := by
  unfold PropertyAdaptor.Unsubscribe
  dsimp only
  split_ifs with hmem hcard
  · exact leaves_setUnsubscribed
      (b := { a with clientServiceNames := a.clientServiceNames.erase client })
      h.emitted (Finset.card_eq_zero.1 hcard) handler
  · exact ⟨h.erase fun _ => hcard, fun c hc => ⟨Finset.mem_of_mem_erase hc, rfl, rfl⟩⟩
  · exact ⟨h, fun c hc => ⟨hc, rfl, rfl⟩⟩

theorem Sound.leaves_onClientExited {a : PropertyAdaptor C V} (h : a.Sound) (client : C)
    (handler : List (V × ℕ)) : a.Leaves (a.onClientExited client handler).1 := by
  unfold PropertyAdaptor.onClientExited
  dsimp only
  split_ifs with hlast
  · exact leaves_setUnsubscribed
      (b := { a with clientServiceNames := a.clientServiceNames.erase client })
      h.emitted (Finset.card_eq_zero.1 hlast.2) handler
  · exact ⟨h.erase fun hmem hcard => hlast ⟨hmem, hcard⟩,
      fun c hc => ⟨Finset.mem_of_mem_erase hc, rfl, rfl⟩⟩

theorem Sound.leaves_forgetClients {a : PropertyAdaptor C V} (h : a.Sound)
    (handler : List (V × ℕ)) : a.Leaves (a.forgetClients handler).1 :=
  leaves_setUnsubscribed (b := { a with clientServiceNames := ∅ }) h.emitted rfl handler

theorem Sound.perform {a : PropertyAdaptor C V} (h : a.Sound) (e : AdaptorEvent C V) :
    (a.perform e).1.Sound := by
  cases e with
  | setValue v now => exact h.setValue v now
  | Subscribe client handler => exact h.Subscribe client handler
  | Unsubscribe client handler => exact (h.leaves_Unsubscribe client handler).sound
  | onClientExited client handler => exact (h.leaves_onClientExited client handler).sound
  | forgetClients handler => exact (h.leaves_forgetClients handler).sound
  | onValueChanged values timestamp =>
    exact h.forward (PropertyPrivate.updateOverheardValue_tells h.emitted values timestamp)

theorem sound_init (now : ℕ) : (init now : PropertyAdaptor C V).Sound where
  subscribed := by simp [init, PropertyPrivate.init]
  emitted := Alike.refl _
  told client hc := by simp [init] at hc

/-! ### The clients know the value -/

/-- The last message to `client` carried a value alike the current one. -/
def Knows (a : PropertyAdaptor C V) (client : C) : Prop :=
  ∃ v, a.WasTold client v ∧ Alike v a.propertyPrivate.value

/-- Between two operations: the property is subscribed exactly while it has clients, its value
agrees with what it has emitted, and every client knows it. -/
structure Informed (a : PropertyAdaptor C V) : Prop where
  subscribed : a.propertyPrivate.subscribed = true ↔ a.clientServiceNames ≠ ∅
  emitted : Alike a.propertyPrivate.value a.propertyPrivate.emittedValue
  known : ∀ client ∈ a.clientServiceNames, a.Knows client

/-- The value is set to one that the property takes for the emitted one, and that is not alike what
`client` was told. -/
def Confuses (a : PropertyAdaptor C V) (client : C) (e : AdaptorEvent C V) : Prop :=
  ∃ v now, e = .setValue v now ∧ a.propertyPrivate.Withholds v now ∧
    ∀ w, a.WasTold client w → ¬ Alike w v

/-- Setting a value leaves a client behind exactly if it confuses that client. -/
theorem Sound.knows_setValue_iff {a : PropertyAdaptor C V} (h : a.Sound) {client : C}
    (hc : client ∈ a.clientServiceNames) (v : V) (now : ℕ) :
    (a.setValue v now).Knows client ↔ ¬ a.Confuses client (.setValue v now) := by
  by_cases hw : a.propertyPrivate.Withholds v now
  · have hset : a.setValue v now =
        a.forward ({ a.propertyPrivate with timestamp := now, value := v }, none) :=
      congrArg a.forward (PropertyPrivate.setValue_silent hw)
    have hknows : (a.setValue v now).Knows client ↔ ∃ w, a.WasTold client w ∧ Alike w v := by
      rw [hset]
      exact exists_congr fun w => and_congr_left' (wasTold_forward_silent rfl client w)
    rw [hknows]
    constructor
    · rintro ⟨w, htold, halike⟩ ⟨_, _, ⟨⟩, -, hnot⟩
      exact hnot w htold halike
    · intro hconf
      by_contra hk
      exact hconf ⟨v, now, rfl, hw, fun w htold halike => hk ⟨w, htold, halike⟩⟩
  · have hset := PropertyPrivate.setValue_emits hw
    rw [if_pos (h.subscribed.2 ⟨client, hc⟩)] at hset
    refine iff_of_true ⟨v, ?_, ?_⟩ ?_
    · exact wasTold_forward_signal (congrArg Prod.snd hset) rfl client
    · rw [setValue_value]
      exact Alike.refl v
    · rintro ⟨_, _, ⟨⟩, hw', -⟩
      exact hw hw'

/-- Nobody who stays a client forgets what it knows. -/
theorem Leaves.knows {a b : PropertyAdaptor C V} (h : a.Leaves b) {client : C}
    (hc : client ∈ b.clientServiceNames)
    (hk : client ∈ a.clientServiceNames → a.Knows client) : b.Knows client := by
  obtain ⟨hmem, hsent, hvalue⟩ := h.others client hc
  unfold Knows WasTold lastSent
  rw [hsent, hvalue]
  exact hk hmem

/-- Whatever does not confuse a client leaves it with the value. -/
theorem Sound.knows_perform {a : PropertyAdaptor C V} (h : a.Sound) {e : AdaptorEvent C V}
    {client : C} (hc : client ∈ (a.perform e).1.clientServiceNames)
    (hk : client ∈ a.clientServiceNames → a.Knows client) (he : ¬ a.Confuses client e) :
    (a.perform e).1.Knows client := by
  cases e with
  | setValue v now => exact (h.knows_setValue_iff hc v now).2 he
  | Subscribe c handler =>
    by_cases hcc : client = c
    · subst hcc
      exact ⟨_, wasTold_reply_self _ client, Alike.refl _⟩
    · obtain ⟨hmem, -, hp⟩ := (h.addClient c handler rfl).2.2 client hc hcc
      obtain ⟨v, hv, halike⟩ := hk hmem
      refine ⟨v, (h.wasTold_Subscribe hc hcc v).2 hv, ?_⟩
      show Alike v (a.addClient c handler).1.propertyPrivate.value
      rwa [hp]
  | Unsubscribe c handler => exact (h.leaves_Unsubscribe c handler).knows hc hk
  | onClientExited c handler => exact (h.leaves_onClientExited c handler).knows hc hk
  | forgetClients handler => exact (h.leaves_forgetClients handler).knows hc hk
  | onValueChanged values timestamp =>
    have htells := PropertyPrivate.updateOverheardValue_tells h.emitted values timestamp
    have hvalue := PropertyPrivate.updateOverheardValue_value a.propertyPrivate values timestamp
    cases hm : (a.propertyPrivate.updateOverheardValue values timestamp).2 with
    | none =>
      obtain ⟨v, hv, halike⟩ := hk hc
      exact ⟨v, (wasTold_forward_silent hm client v).2 hv, hvalue.symm ▸ halike⟩
    | some m => exact ⟨_, wasTold_forward_signal hm (htells.told m hm).1 client, Alike.refl _⟩

theorem Sound.informed {a : PropertyAdaptor C V} (h : a.Sound)
    (hknown : ∀ client ∈ a.clientServiceNames, a.Knows client) : a.Informed :=
  ⟨h.subscribed.trans Finset.nonempty_iff_ne_empty, h.emitted, hknown⟩

theorem informed_init (now : ℕ) : (init now : PropertyAdaptor C V).Informed :=
  (sound_init now).informed fun client hc => by simp [init] at hc

/-- An operation leaves the clients informed exactly if it confuses none of them. -/
theorem Informed.perform {a : PropertyAdaptor C V} (h : a.Informed) (hsound : a.Sound)
    {e : AdaptorEvent C V} (he : ∀ client ∈ a.clientServiceNames, ¬ a.Confuses client e) :
    (a.perform e).1.Informed := by
  refine (hsound.perform e).informed fun client hc => ?_
  refine hsound.knows_perform hc (h.known client) ?_
  rintro ⟨v, now, rfl, hconf⟩
  exact he client hc ⟨v, now, rfl, hconf⟩

theorem not_informed_of_confuses {a : PropertyAdaptor C V} (h : a.Sound) {e : AdaptorEvent C V}
    {client : C} (hc : client ∈ a.clientServiceNames) (he : a.Confuses client e) :
    ¬ (a.perform e).1.Informed := by
  intro hinformed
  obtain ⟨v, now, rfl, -⟩ := id he
  exact (h.knows_setValue_iff hc v now).1 (hinformed.known client hc) he

/-- Where the comparison is transitive nobody is confused. -/
theorem Sound.not_confuses {a : PropertyAdaptor C V} (h : a.Sound)
    (htrans : ∀ u v w : V, Alike u v → Alike v w → Alike u w) {client : C}
    (hc : client ∈ a.clientServiceNames) (e : AdaptorEvent C V) : ¬ a.Confuses client e := by
  rintro ⟨v, now, -, hw, hnot⟩
  obtain ⟨w, htold, halike⟩ := h.told client hc
  exact hnot w htold (htrans _ _ _ halike hw.alike.symm)

/-- **Every subscribed client knows the current value** after every operation of a run, exactly if
no value that is set confuses a client. -/
theorem clients_know_value_iff (now : ℕ) (es : List (AdaptorEvent C V)) :
    Along step (fun a e => (a.perform e).1.Informed) (init now) es ↔
      Along step (fun a e => ∀ client ∈ a.clientServiceNames, ¬ a.Confuses client e)
        (init now) es := by
  constructor
  · refine Along.of_inv (P := Sound) (fun s e t hs _ ht => ?_) (fun s e hs he client hc hconf => ?_)
      (sound_init now)
    · obtain rfl := Option.some.inj ht
      exact hs.perform e
    · exact not_informed_of_confuses hs hc hconf he
  · refine Along.of_inv (P := fun a => a.Sound ∧ a.Informed) (fun s e t hs he ht => ?_)
      (fun s e hs he => hs.2.perform hs.1 he) ⟨sound_init now, informed_init now⟩
    obtain rfl := Option.some.inj ht
    exact ⟨hs.1.perform e, hs.2.perform hs.1 he⟩

/-- The second client subscribes when the value is `[1]`, which was taken for the `[true]` the first
one was told, and so is `["true"]` after that. -/
theorem exists_client_misinformed :
    ∃ a : PropertyAdaptor String (Option (List ListElement)),
      run step (init 1) [.Subscribe ":1.1" [], .setValue (some [.bool]) 2,
        .setValue (some [.int]) 3, .Subscribe ":1.2" [], .setValue (some [.string]) 4] = some a ∧
      ":1.2" ∈ a.clientServiceNames ∧ a.lastSent ":1.2" = some ⟨[some [.int]], 3⟩ ∧
      a.propertyPrivate.value = some [.string] ∧
      ¬ Alike (some [ListElement.int]) (some [ListElement.string]) :=
  ⟨_, rfl, by decide, by decide, rfl, by decide⟩

end PropertyAdaptor

end ContextProvider
