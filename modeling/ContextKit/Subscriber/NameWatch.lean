import ContextKit.Subscriber.DBusNameListener
import ContextKit.Transition.Channel
import ContextKit.Transition.Run

/-!
# A `DBusNameListener` and the bus

`startListening` makes the bus tell of a name from then on, and may ask at once whether the name has
an owner.  Both are requests to the bus, which gets them later and in order; what it sends reaches
the listener later and in order, too, and the owner may change at any moment in between.  A notice
that was overtaken by the answer, or an answer that is older than a notice, would leave the listener
with the wrong presence for good, since nothing asks again.
-/

namespace ContextSubscriber
open Transition

/-- What `startListening` asks of the bus: a match rule, and whether the name has an owner. -/
inductive NameCall
  | addMatch
  | nameHasOwner
  deriving DecidableEq

/-- What the listener hears from the bus.  The answer is an error (`none`) or says whether the name
has an owner. -/
inductive NameMessage
  | serviceRegistered
  | serviceUnregistered
  | nameHasOwner (reply : Option Bool)
  deriving DecidableEq

/-- The presence a message stands for: an error is taken for a name without an owner. -/
def NameMessage.hasOwner : NameMessage → Bool
  | .serviceRegistered => true
  | .serviceUnregistered => false
  | .nameHasOwner reply => reply = some true

def NameMessage.content (m : NameMessage) : Option Bool := some m.hasOwner

theorem NameMessage.content_eq (m : NameMessage) : m.content = some m.hasOwner := rfl

/-- How the listener is used: whether the connection to the bus is there, and whether
`startListening` is to check for an owner. -/
structure NameSetup where
  isConnected : Bool
  nameHasOwnerCheck : Bool

/-- The listener, whether the name is owned, and what is on the way to and from the bus.  `watched`
says that the bus has the match rule. -/
structure NameWatch where
  listener : DBusNameListener
  listeningStarted : Bool
  owned : Bool
  watched : Bool
  calls : List NameCall
  inbox : List NameMessage
  deriving DecidableEq

/-- What can happen.  `refuse` is an answer that is an error. -/
inductive NameEvent
  | startListening
  | changeOwner
  | handle
  | refuse
  | deliver
  deriving DecidableEq

namespace NameWatch

/-- Before anybody listens. -/
def init (owned : Bool) : NameWatch := ⟨.init, false, owned, false, [], []⟩

/-- `DBusNameListener::startListening`, for one of the two buses or a given connection.  The result
tells whether `nameDisappeared` is emitted. -/
def startListening (cfg : NameSetup) (w : NameWatch) : NameWatch × Bool :=
  if w.listeningStarted then (w, false)
  else
    let w := { w with listeningStarted := true }
    if cfg.isConnected then
      ({ w with
        calls := w.calls ++ .addMatch :: if cfg.nameHasOwnerCheck then [.nameHasOwner] else [] },
        false)
    else if cfg.nameHasOwnerCheck then
      let r := w.listener.setServiceGone
      ({ w with listener := r.1 }, r.2)
    else (w, false)

/-- The name gets an owner or loses it, and the bus sends a notice to who has a match rule. -/
def changeOwner (w : NameWatch) : NameWatch :=
  { w with
    owned := !w.owned
    inbox := w.inbox ++
      if w.watched then [if w.owned then .serviceUnregistered else .serviceRegistered] else [] }

/-- The slot that a message calls. -/
def hear (l : DBusNameListener) : NameMessage → DBusNameListener × Bool
  | .serviceRegistered => l.setServicePresent
  | .serviceUnregistered => l.setServiceGone
  | .nameHasOwner reply => l.onNameHasOwnerFinished (reply = some true)

/-- One event, with whether it makes the listener emit `nameAppeared` or `nameDisappeared`. -/
def move (cfg : NameSetup) (w : NameWatch) : NameEvent → Option (NameWatch × Bool)
  | .startListening => some (w.startListening cfg)
  | .changeOwner => some (w.changeOwner, false)
  | .handle =>
    match w.calls with
    | [] => none
    | .addMatch :: calls => some ({ w with calls := calls, watched := true }, false)
    | .nameHasOwner :: calls =>
      some ({ w with calls := calls, inbox := w.inbox ++ [.nameHasOwner (some w.owned)] }, false)
  | .refuse =>
    match w.calls with
    | .nameHasOwner :: calls =>
      some ({ w with calls := calls, inbox := w.inbox ++ [.nameHasOwner none] }, false)
    | _ => none
  | .deliver =>
    match w.inbox with
    | [] => none
    | m :: inbox =>
      let r := hear w.listener m
      some ({ w with inbox := inbox, listener := r.1 }, r.2)

def step (cfg : NameSetup) (w : NameWatch) (e : NameEvent) : Option NameWatch :=
  (w.move cfg e).map Prod.fst

/-- Nothing is on its way. -/
def Settled (w : NameWatch) : Prop := w.calls = [] ∧ w.inbox = []

/-- Whether the last thing that was sent is an error although the name has an owner, followed from
event to event. -/
def misled (w : NameWatch) (e : NameEvent) (before : Bool) : Bool :=
  match e with
  | .refuse => w.owned
  | .changeOwner => false
  | _ => before

/-- The presence of a name that has an owner, or has none. -/
def presenceOf (owned : Bool) : ServicePresence := if owned then .present else .notPresent

/-- What the listener knows. -/
def known (l : DBusNameListener) : Option Bool :=
  match l.servicePresent with
  | .present => some true
  | .notPresent => some false
  | .unknown => none

theorem servicePresent_of_known {l : DBusNameListener} {b : Bool} (h : known l = some b) :
    l.servicePresent = presenceOf b := by
  unfold known at h
  cases hl : l.servicePresent <;> rw [hl] at h <;> cases h <;> rfl

/-- Every slot leaves the listener with what the message says, and emits a signal exactly when this
is news. -/
theorem hear_eq (l : DBusNameListener) (m : NameMessage) :
    hear l m = (⟨presenceOf m.hasOwner⟩, decide (l.servicePresent ≠ presenceOf m.hasOwner)) := by
  obtain ⟨p⟩ := l
  cases m with
  | serviceRegistered => cases p <;> rfl
  | serviceUnregistered => cases p <;> rfl
  | nameHasOwner reply => rcases reply with - | ⟨- | -⟩ <;> cases p <;> rfl

theorem known_hear (l : DBusNameListener) (m : NameMessage) :
    known (hear l m).1 = some m.hasOwner := by
  rw [hear_eq]
  cases m.hasOwner <;> rfl

/-- What the listener will know once the inbox is empty. -/
def knows (w : NameWatch) : Option Bool :=
  latest NameMessage.content w.inbox (known w.listener)

/-- How far the requests have got, and what the listener is going to know by then. -/
inductive Stage (cfg : NameSetup) (w : NameWatch) (misled : Bool) : Prop
  | silent (hmisled : misled = false) (hstarted : w.listeningStarted = false)
      (hwatched : w.watched = false) (hcalls : w.calls = []) (hinbox : w.inbox = [])
      (hknown : known w.listener = none)
  | disconnected (hmisled : misled = false) (hconnected : cfg.isConnected = false)
      (hstarted : w.listeningStarted = true) (hcalls : w.calls = []) (hinbox : w.inbox = [])
      (hwatched : w.watched = false)
      (hknown : cfg.nameHasOwnerCheck = true → known w.listener = some false)
  | started (hmisled : misled = false) (hconnected : cfg.isConnected = true)
      (hstarted : w.listeningStarted = true) (hwatched : w.watched = false)
      (hinbox : w.inbox = []) (hknown : known w.listener = none)
      (hcalls : w.calls = .addMatch :: if cfg.nameHasOwnerCheck then [.nameHasOwner] else [])
  | asked (hmisled : misled = false) (hconnected : cfg.isConnected = true)
      (hstarted : w.listeningStarted = true) (hcheck : cfg.nameHasOwnerCheck = true)
      (hwatched : w.watched = true) (hcalls : w.calls = [.nameHasOwner])
  | told (hconnected : cfg.isConnected = true) (hstarted : w.listeningStarted = true)
      (hwatched : w.watched = true) (hcalls : w.calls = [])
      (hknows : w.knows = some (w.owned && !misled) ∨
        misled = false ∧ cfg.nameHasOwnerCheck = false ∧ w.knows = none)

variable {cfg : NameSetup} {w w' : NameWatch} {e : NameEvent} {b : Bool}

theorem stage_init (owned : Bool) : Stage cfg (init owned) false := .silent rfl rfl rfl rfl rfl rfl

/-- A change of the owner. -/
theorem Stage.changeOwner (h : Stage cfg w b) : Stage cfg w.changeOwner false := by
  have hinbox : w.watched = false → w.inbox = [] → w.changeOwner.inbox = [] := by
    intro hw hi
    simp [NameWatch.changeOwner, hw, hi]
  cases h with
  | silent _ hs hw hc hi hk => exact .silent rfl hs hw hc (hinbox hw hi) hk
  | disconnected _ hcon hs hc hi hw hk =>
    exact .disconnected rfl hcon hs hc (hinbox hw hi) hw hk
  | started _ hcon hs hw hi hk hc => exact .started rfl hcon hs hw (hinbox hw hi) hk hc
  | asked _ hcon hs hcheck hw hc => exact .asked rfl hcon hs hcheck hw hc
  | told hcon hs hw hc _ =>
    refine .told hcon hs hw hc (.inl ?_)
    unfold knows NameWatch.changeOwner
    dsimp only
    rw [if_pos hw, latest_append]
    cases w.owned <;> rfl

/-- What a message says is known from when it is sent, whether it is delivered or not. -/
theorem Stage.deliver (h : Stage cfg w b) {m : NameMessage} {inbox : List NameMessage}
    (hinbox : w.inbox = m :: inbox) :
    Stage cfg { w with inbox := inbox, listener := (hear w.listener m).1 } b := by
  have hne : w.inbox ≠ [] := by simp [hinbox]
  cases h with
  | silent _ _ _ _ hi | disconnected _ _ _ _ hi | started _ _ _ _ hi => exact absurd hi hne
  | asked hb hcon hs hcheck hw hc => exact .asked hb hcon hs hcheck hw hc
  | told hcon hs hw hc hk =>
    have hsame : knows { w with inbox := inbox, listener := (hear w.listener m).1 } = w.knows := by
      unfold knows
      rw [hinbox, known_hear]
      exact (latest_deliver m.content_eq).symm
    refine .told hcon hs hw hc ?_
    rw [hsame]
    exact hk

/-- The answer is the owner at the time the bus gives it, or an error. -/
theorem Stage.answer (h : Stage cfg w b) {calls : List NameCall} {reply : Option Bool}
    (hcalls : w.calls = .nameHasOwner :: calls) {c : Bool}
    (hreply : NameMessage.hasOwner (.nameHasOwner reply) = (w.owned && !c)) :
    Stage cfg { w with calls := calls, inbox := w.inbox ++ [.nameHasOwner reply] } c := by
  cases h with
  | silent _ _ _ hc | disconnected _ _ _ hc | started _ _ _ _ _ _ hc | told _ _ _ hc =>
    simp [hc] at hcalls
  | asked _ hcon hs _ hw hcalls' =>
    rw [hcalls'] at hcalls
    obtain ⟨-, rfl⟩ := List.cons.inj hcalls
    refine .told hcon hs hw rfl (.inl ?_)
    unfold knows
    rw [latest_append, latest_deliver (NameMessage.content_eq _), latest_nil, hreply]

/-- The bus gets the match rule. -/
theorem Stage.addMatch (h : Stage cfg w b) {calls : List NameCall}
    (hcalls : w.calls = .addMatch :: calls) :
    Stage cfg { w with calls := calls, watched := true } b := by
  cases h with
  | silent _ _ _ hc | disconnected _ _ _ hc | asked _ _ _ _ _ hc | told _ _ _ hc =>
    simp [hc] at hcalls
  | started hb hcon hs hw hi hk hc =>
    rw [hc] at hcalls
    obtain ⟨-, rfl⟩ := List.cons.inj hcalls
    split_ifs with hcheck
    · exact .asked hb hcon hs hcheck rfl rfl
    · refine .told hcon hs rfl rfl (.inr ⟨hb, by simpa using hcheck, ?_⟩)
      unfold knows
      rw [hi, latest_nil, hk]

theorem Stage.startListening (h : Stage cfg w b) : Stage cfg (w.startListening cfg).1 b := by
  unfold NameWatch.startListening
  by_cases hstarted : w.listeningStarted = true
  · rw [if_pos hstarted]
    exact h
  · rw [if_neg hstarted]
    cases h with
    | silent hb hs hw hc hi hk =>
      dsimp only
      split_ifs with hcon hcheck hcheck
      · exact .started hb hcon rfl hw hi hk (by simp [hc, hcheck])
      · exact .started hb hcon rfl hw hi hk (by simp [hc, hcheck])
      · refine .disconnected hb (by simpa using hcon) rfl hc hi hw fun _ => ?_
        exact known_hear w.listener .serviceUnregistered
      · exact .disconnected hb (by simpa using hcon) rfl hc hi hw fun h => absurd h hcheck
    | disconnected _ _ hs | started _ _ hs | asked _ _ hs | told _ hs => exact absurd hs hstarted

/-- **One event.** -/
theorem stage_step (h : Stage cfg w b) (hstep : w.step cfg e = some w') :
    Stage cfg w' (w.misled e b) := by
  cases e with
  | startListening =>
    obtain rfl := Option.some.inj hstep
    exact h.startListening
  | changeOwner =>
    obtain rfl := Option.some.inj hstep
    exact h.changeOwner
  | handle =>
    unfold step move at hstep
    rcases hcalls : w.calls with - | ⟨- | -, calls⟩ <;> rw [hcalls] at hstep
    · cases hstep
    · obtain rfl := Option.some.inj hstep
      exact h.addMatch hcalls
    · obtain rfl := Option.some.inj hstep
      have hb : b = false := by
        cases h with
        | silent _ _ _ hc | disconnected _ _ _ hc | started _ _ _ _ _ _ hc | told _ _ _ hc =>
          simp [hc] at hcalls
        | asked hb => exact hb
      exact h.answer hcalls (by simp [NameMessage.hasOwner, misled, hb])
  | refuse =>
    unfold step move at hstep
    rcases hcalls : w.calls with - | ⟨- | -, calls⟩ <;> rw [hcalls] at hstep
    · cases hstep
    · cases hstep
    · obtain rfl := Option.some.inj hstep
      exact h.answer hcalls (by simp [NameMessage.hasOwner, misled])
  | deliver =>
    unfold step move at hstep
    cases hinbox : w.inbox with
    | nil =>
      rw [hinbox] at hstep
      cases hstep
    | cons m inbox =>
      rw [hinbox] at hstep
      obtain rfl := Option.some.inj hstep
      exact h.deliver hinbox

/-- A slot that emits nothing has heard no news. -/
theorem hear_of_silent {l : DBusNameListener} {m : NameMessage} (h : (hear l m).2 = false) :
    (hear l m).1 = l := by
  rw [hear_eq] at h ⊢
  obtain ⟨p⟩ := l
  have hp : p = presenceOf m.hasOwner := by simpa using h
  rw [hp]

theorem startListening_of_silent (h : (w.startListening cfg).2 = false) :
    (w.startListening cfg).1.listener = w.listener := by
  unfold startListening at h ⊢
  by_cases hstarted : w.listeningStarted = true
  · rw [if_pos hstarted]
  · rw [if_neg hstarted] at h ⊢
    by_cases hcon : cfg.isConnected = true
    · simp only [hcon, if_true]
    · by_cases hcheck : cfg.nameHasOwnerCheck = true
      · simp only [hcon, hcheck, if_true] at h ⊢
        exact hear_of_silent (m := .serviceUnregistered) h
      · simp only [hcon, hcheck]
        rfl

/-- An event without a signal leaves the listener as it is. -/
theorem move_of_silent (h : w.move cfg e = some (w', false)) : w'.listener = w.listener := by
  cases e with
  | startListening =>
    have hpair := Option.some.inj h
    have hsilent := congrArg Prod.snd hpair
    obtain rfl := congrArg Prod.fst hpair
    exact startListening_of_silent hsilent
  | changeOwner =>
    obtain rfl := congrArg Prod.fst (Option.some.inj h)
    rfl
  | handle | refuse =>
    unfold move at h
    rcases hcalls : w.calls with - | ⟨- | -, calls⟩ <;> rw [hcalls] at h <;> cases h <;> rfl
  | deliver =>
    unfold move at h
    cases hinbox : w.inbox with
    | nil =>
      rw [hinbox] at h
      cases h
    | cons m inbox =>
      rw [hinbox] at h
      have hpair := Option.some.inj h
      have hsilent := congrArg Prod.snd hpair
      obtain rfl := congrArg Prod.fst hpair
      exact hear_of_silent hsilent

theorem startListening_started : (w.startListening cfg).1.listeningStarted = true := by
  unfold startListening
  dsimp only
  split_ifs with hstarted
  · exact hstarted
  all_goals rfl

/-- Nobody stops listening. -/
theorem move_started {r : NameWatch × Bool} (h : w.move cfg e = some r)
    (hstarted : w.listeningStarted = true) : r.1.listeningStarted = true := by
  cases e with
  | startListening =>
    obtain rfl := Option.some.inj h
    exact startListening_started
  | changeOwner =>
    obtain rfl := Option.some.inj h
    exact hstarted
  | handle | refuse =>
    unfold move at h
    rcases hcalls : w.calls with - | ⟨- | -, calls⟩ <;> rw [hcalls] at h <;> cases h <;>
      exact hstarted
  | deliver =>
    unfold move at h
    cases hinbox : w.inbox with
    | nil =>
      rw [hinbox] at h
      cases h
    | cons m inbox =>
      rw [hinbox] at h
      obtain rfl := Option.some.inj h
      exact hstarted

/-- What the listener knows once nothing is on its way. -/
theorem Stage.known_of_settled (h : Stage cfg w b) (hstarted : w.listeningStarted = true)
    (hsettled : w.Settled) (hcheck : cfg.nameHasOwnerCheck = true) :
    known w.listener = some (cfg.isConnected && w.owned && !b) := by
  obtain ⟨hcalls, hinbox⟩ := hsettled
  cases h with
  | silent _ hs => simp [hs] at hstarted
  | disconnected _ hcon _ _ _ _ hk => simp [hcon, hk hcheck]
  | started _ _ _ _ _ _ hc | asked _ _ _ _ _ hc => simp [hc] at hcalls
  | told hcon _ _ _ hk =>
    rcases hk with hk | ⟨-, hno, -⟩
    · rw [knows, hinbox, latest_nil] at hk
      simp [hcon, hk]
    · simp [hcheck] at hno

/-- **The presence is known in the end.**  Whatever the order of requests, answers, notices and
changes of the owner: when nothing is on its way, a listener that checks says that the name is
present exactly if it has an owner, unless the last thing it was sent is an error although the name
had one. -/
theorem servicePresent_of_settled {owned : Bool} {es : List NameEvent}
    (hrun : run (step cfg) (init owned) es = some w) (hstarted : w.listeningStarted = true)
    (hsettled : w.Settled) (hcheck : cfg.nameHasOwnerCheck = true) :
    w.listener.servicePresent = presenceOf (cfg.isConnected && w.owned &&
      !history (step cfg) misled (init owned) false es) := by
  have hstage := history_inv (P := Stage cfg) misled (fun _ _ _ _ h hst => stage_step h hst)
    (stage_init owned) hrun
  exact servicePresent_of_known (hstage.known_of_settled hstarted hsettled hcheck)

/-- A listener that checks. -/
def checking : NameSetup := ⟨true, true⟩

/-- The name gets an owner between the match rule and the answer, so that both tell of it. -/
def toldTwice : List NameEvent :=
  [.startListening, .handle, .changeOwner, .handle, .deliver, .deliver]

theorem servicePresent_of_settled_toldTwice :
    ∃ w, run (step checking) (init false) toldTwice = some w ∧
      w.listener.servicePresent = presenceOf (checking.isConnected && w.owned &&
        !history (step checking) misled (init false) false toldTwice) :=
  ⟨_, rfl, servicePresent_of_settled rfl rfl ⟨rfl, rfl⟩ rfl⟩

end NameWatch

end ContextSubscriber
