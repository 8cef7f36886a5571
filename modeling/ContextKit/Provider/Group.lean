import Mathlib.Logic.Function.Iterate
import ContextKit.Provider.PropertyAdaptor
import ContextKit.Transition.Alternate

/-!
# `Group`: the subscription of several properties as one

A `Group` forwards the first and the last of the subscriptions of its properties.  It only counts
the signals it gets: every time a `Property` object is added, its signals are connected once more,
and objects for one key share a `PropertyPrivate`, which signals to all of them.  So one subscription
calls the slot of the group once for every addition of an object with that `PropertyPrivate`
(`calls`), and the counter passes through all values in between.

The number of connections of a group is assumed to fit the counter's `int`.
-/

namespace ContextProvider
open ContextKit Transition

/-- A group: its connections, one for each `add`, and its counter.  `emitted` are the signals it has
sent and `passed` the values its counter has had. -/
structure Group (O : Type) where
  connections : List O
  propertiesSubscribedTo : ℤ
  emitted : List SubscriptionSignal
  passed : List ℤ

namespace Group

variable {O : Type}

def init : Group O := ⟨[], 0, [], [0]⟩

/-- Connects the signals of a `Property` object, once more if they are already. -/
def add (g : Group O) (property : O) : Group O :=
  { g with connections := g.connections ++ [property] }

def onFirstSubscriberAppeared (g : Group O) : Group O :=
  let n := g.propertiesSubscribedTo + 1
  { g with
    propertiesSubscribedTo := n
    emitted := if n = 1 then g.emitted ++ [.firstSubscriberAppeared] else g.emitted
    passed := g.passed ++ [n] }

def onLastSubscriberDisappeared (g : Group O) : Group O :=
  let n := g.propertiesSubscribedTo - 1
  { g with
    propertiesSubscribedTo := n
    emitted := if n = 0 then g.emitted ++ [.lastSubscriberDisappeared] else g.emitted
    passed := g.passed ++ [n] }

def isSubscribedTo (g : Group O) : Bool := decide (0 < g.propertiesSubscribedTo)

/-- The slot for a signal of one property. -/
def slot : SubscriptionSignal → Group O → Group O
  | .firstSubscriberAppeared => onFirstSubscriberAppeared
  | .lastSubscriberDisappeared => onLastSubscriberDisappeared

/-- The emissions, `true` for the first subscriber and `false` for the last. -/
def calls (g : Group O) : List Bool := g.emitted.map fun s => decide (s = .firstSubscriberAppeared)

/-- The signals alternate, the next one is told by the counter, and the counter never was below
zero. -/
structure Alternating (g : Group O) : Prop where
  nonneg : 0 ≤ g.propertiesSubscribedTo
  passed : ∀ n ∈ g.passed, 0 ≤ n
  alternates : Alternates true g.calls
  next : turn true g.calls = decide (g.propertiesSubscribedTo = 0)

theorem alternating_init : (init : Group O).Alternating :=
  ⟨le_refl _, by simp [init], trivial, rfl⟩

/-- The counter has moved to `n`. -/
theorem Alternating.passed_append {g : Group O} (h : g.Alternating) {n : ℤ} (hn : 0 ≤ n) :
    ∀ m ∈ g.passed ++ [n], 0 ≤ m := by
  intro m hm
  rcases List.mem_append.1 hm with hm | hm
  · exact h.passed m hm
  · rwa [List.mem_singleton.1 hm]

theorem Alternating.onFirstSubscriberAppeared {g : Group O} (h : g.Alternating) :
    g.onFirstSubscriberAppeared.Alternating := by
  have hn := h.nonneg
  unfold Group.onFirstSubscriberAppeared
  dsimp only
  by_cases hone : g.propertiesSubscribedTo + 1 = 1
  · have hzero : g.propertiesSubscribedTo = 0 := by omega
    have hcalls : calls { g with
        propertiesSubscribedTo := g.propertiesSubscribedTo + 1
        emitted := g.emitted ++ [.firstSubscriberAppeared]
        passed := g.passed ++ [g.propertiesSubscribedTo + 1] } = g.calls ++ [true] := by
      simp [calls]
    have hnext := h.next
    rw [hzero] at hnext
    rw [if_pos hone]
    refine ⟨by show 0 ≤ g.propertiesSubscribedTo + 1; omega, h.passed_append (by omega), ?_, ?_⟩
    · rw [hcalls, alternates_append_singleton, hnext]
      exact ⟨h.alternates, rfl⟩
    · rw [hcalls, turn_append_singleton, hnext]
      simp [hzero]
  · rw [if_neg hone]
    refine ⟨by show 0 ≤ g.propertiesSubscribedTo + 1; omega, h.passed_append (by omega),
      h.alternates, ?_⟩
    have hnext := h.next
    rw [decide_eq_false (by omega)] at hnext
    show turn true g.calls = decide (g.propertiesSubscribedTo + 1 = 0)
    rw [hnext, decide_eq_false (by omega)]

theorem Alternating.onLastSubscriberDisappeared {g : Group O} (h : g.Alternating)
    (hpos : 0 < g.propertiesSubscribedTo) : g.onLastSubscriberDisappeared.Alternating := by
  have hnext := h.next
  rw [decide_eq_false (by omega)] at hnext
  unfold Group.onLastSubscriberDisappeared
  dsimp only
  by_cases hzero : g.propertiesSubscribedTo - 1 = 0
  · have hcalls : calls { g with
        propertiesSubscribedTo := g.propertiesSubscribedTo - 1
        emitted := g.emitted ++ [.lastSubscriberDisappeared]
        passed := g.passed ++ [g.propertiesSubscribedTo - 1] } = g.calls ++ [false] := by
      simp [calls]
    rw [if_pos hzero]
    refine ⟨by show 0 ≤ g.propertiesSubscribedTo - 1; omega, h.passed_append (by omega), ?_, ?_⟩
    · rw [hcalls, alternates_append_singleton, hnext]
      exact ⟨h.alternates, rfl⟩
    · rw [hcalls, turn_append_singleton, hnext]
      simp [hzero]
  · rw [if_neg hzero]
    refine ⟨by show 0 ≤ g.propertiesSubscribedTo - 1; omega, h.passed_append (by omega),
      h.alternates, ?_⟩
    show turn true g.calls = decide (g.propertiesSubscribedTo - 1 = 0)
    rw [hnext, decide_eq_false hzero]

/-- A subscription to `n` connections. -/
theorem Alternating.appeared {g : Group O} (h : g.Alternating) (n : ℕ) :
    ((slot .firstSubscriberAppeared)^[n] g).Alternating ∧
      ((slot .firstSubscriberAppeared)^[n] g).connections = g.connections ∧
      ((slot .firstSubscriberAppeared)^[n] g).propertiesSubscribedTo =
        g.propertiesSubscribedTo + n := by
  induction n generalizing g with
  | zero => exact ⟨h, rfl, by simp⟩
  | succ n ih =>
    obtain ⟨halt, hconn, hcount⟩ := ih h.onFirstSubscriberAppeared
    refine ⟨halt, hconn, ?_⟩
    rw [Function.iterate_succ_apply]
    refine hcount.trans ?_
    show g.propertiesSubscribedTo + 1 + n = _
    push_cast
    omega

/-- The end of a subscription to `n` connections, which were counted before. -/
theorem Alternating.disappeared {g : Group O} (h : g.Alternating) (n : ℕ)
    (hn : n ≤ g.propertiesSubscribedTo) :
    ((slot .lastSubscriberDisappeared)^[n] g).Alternating ∧
      ((slot .lastSubscriberDisappeared)^[n] g).connections = g.connections ∧
      ((slot .lastSubscriberDisappeared)^[n] g).propertiesSubscribedTo =
        g.propertiesSubscribedTo - n := by
  induction n generalizing g with
  | zero => exact ⟨h, rfl, by simp⟩
  | succ n ih =>
    push_cast at hn
    have hone : g.onLastSubscriberDisappeared.propertiesSubscribedTo =
        g.propertiesSubscribedTo - 1 := rfl
    obtain ⟨halt, hconn, hcount⟩ := ih (h.onLastSubscriberDisappeared (by omega)) (by omega)
    refine ⟨halt, hconn, ?_⟩
    rw [Function.iterate_succ_apply]
    refine hcount.trans ?_
    rw [hone]
    push_cast
    omega

end Group

/-- A group with the adaptors of all properties. -/
structure GroupWorld (P O C V : Type) where
  adaptors : P → PropertyAdaptor C V
  group : Group O

/-- A property object that is not subscribed to is added, or something happens to the property `p`
with its adaptor. -/
inductive GroupEvent (P O C V : Type)
  | add (property : O)
  | perform (p : P) (e : AdaptorEvent C V)

namespace GroupWorld

variable {P O C V : Type} [QVariant V] [DecidableEq P]

/-- Properties constructed at the times `constructed`, and an empty group. -/
def init (constructed : P → ℕ) : GroupWorld P O C V :=
  ⟨fun p => PropertyAdaptor.init (constructed p), Group.init⟩

variable (priv : O → P)

omit [QVariant V] in
/-- How often a signal of `p` calls the group. -/
def calls (w : GroupWorld P O C V) (p : P) : ℕ :=
  w.group.connections.countP fun o => decide (priv o = p)

omit [QVariant V] in
/-- The signal of `p`, if there is one, goes to the group. -/
def signal (w : GroupWorld P O C V) (p : P) : Option SubscriptionSignal → Group O
  | none => w.group
  | some s => (Group.slot s)^[w.calls priv p] w.group

variable [DecidableEq C]

/-- `priv` tells the `PropertyPrivate` of each `Property` object. -/
def step (w : GroupWorld P O C V) : GroupEvent P O C V → Option (GroupWorld P O C V)
  | .add property =>
    if (w.adaptors (priv property)).propertyPrivate.subscribed = false then
      some { w with group := w.group.add property }
    else none
  | .perform p e =>
    let r := (w.adaptors p).perform e
    some ⟨Function.update w.adaptors p r.1, w.signal priv p r.2⟩

omit [QVariant V] [DecidableEq P] [DecidableEq C] in
/-- The connections to subscribed properties. -/
def subscribed (w : GroupWorld P O C V) : List O :=
  w.group.connections.filter fun o => (w.adaptors (priv o)).propertyPrivate.subscribed

/-- The counter counts the connections to subscribed properties. -/
structure Counted (w : GroupWorld P O C V) : Prop where
  sound : ∀ p, (w.adaptors p).Sound
  alternating : w.group.Alternating
  count : w.group.propertiesSubscribedTo = (w.subscribed priv).length

omit [DecidableEq P] in
theorem counted_init (constructed : P → ℕ) :
    Counted priv (init constructed : GroupWorld P O C V) :=
  ⟨fun p => PropertyAdaptor.sound_init (constructed p), Group.alternating_init, rfl⟩

variable {priv}

omit [DecidableEq P] in
theorem Counted.add {w : GroupWorld P O C V} (h : w.Counted priv) {property : O}
    (hs : (w.adaptors (priv property)).propertyPrivate.subscribed = false) :
    Counted priv { w with group := w.group.add property } := by
  have halt := h.alternating
  refine ⟨h.sound, ⟨halt.nonneg, halt.passed, halt.alternates, halt.next⟩, ?_⟩
  show w.group.propertiesSubscribedTo = _
  rw [h.count]
  simp [subscribed, Group.add, hs]

variable (priv) in
omit [QVariant V] [DecidableEq C] in
/-- The flag of `p` decides about the connections to `p`. -/
theorem length_subscribed_update (w : GroupWorld P O C V) (p : P) (a : PropertyAdaptor C V)
    {g : Group O} (hg : g.connections = w.group.connections) :
    (subscribed priv ⟨Function.update w.adaptors p a, g⟩).length +
        (if (w.adaptors p).propertyPrivate.subscribed then w.calls priv p else 0) =
      (w.subscribed priv).length +
        if a.propertyPrivate.subscribed then w.calls priv p else 0 := by
  unfold subscribed calls
  rw [hg]
  induction w.group.connections with
  | nil => simp
  | cons o l ih =>
    simp only [List.filter_cons, List.countP_cons, Function.update_apply] at ih ⊢
    by_cases ho : priv o = p
    · subst ho
      simp only [if_true, decide_true] at ih ⊢
      split_ifs at ih ⊢ <;> simp <;> omega
    · simp only [ho, if_false, decide_false] at ih ⊢
      cases (w.adaptors (priv o)).propertyPrivate.subscribed with
      | false => simpa using ih
      | true =>
        simp only [if_true, List.length_cons, Bool.false_eq_true, if_false, Nat.add_zero]
        omega

variable (priv) in
omit [QVariant V] [DecidableEq C] in
theorem calls_le_subscribed (w : GroupWorld P O C V) {p : P}
    (hs : (w.adaptors p).propertyPrivate.subscribed = true) :
    w.calls priv p ≤ (w.subscribed priv).length := by
  unfold calls subscribed
  rw [← List.countP_eq_length_filter]
  apply List.countP_mono_left
  intro o _ ho
  obtain rfl := of_decide_eq_true ho
  exact hs

theorem Counted.perform {w : GroupWorld P O C V} (h : w.Counted priv) (p : P)
    (e : AdaptorEvent C V) :
    Counted priv ⟨Function.update w.adaptors p ((w.adaptors p).perform e).1,
      w.signal priv p ((w.adaptors p).perform e).2⟩ := by
  have hsound : ∀ q, (Function.update w.adaptors p ((w.adaptors p).perform e).1 q).Sound := by
    intro q
    rw [Function.update_apply]
    split_ifs
    · exact (h.sound p).perform e
    · exact h.sound q
  have htells := PropertyAdaptor.perform_signal (w.adaptors p) e
  -- How the number of connections to subscribed properties changes, whatever is emitted.
  have hlength := fun g hg => length_subscribed_update priv w p
    ((w.adaptors p).perform e).1 (g := g) hg
  cases hsignal : ((w.adaptors p).perform e).2 with
  | none =>
    rw [hsignal] at htells
    refine ⟨hsound, h.alternating, ?_⟩
    have hsame := hlength w.group rfl
    rw [htells] at hsame
    show w.group.propertiesSubscribedTo = _
    rw [h.count]
    exact_mod_cast (Nat.add_right_cancel hsame).symm
  | some s =>
    rw [hsignal] at htells
    cases s with
    | firstSubscriberAppeared =>
      obtain ⟨hbefore, hafter⟩ := htells
      obtain ⟨halt, hconn, hcount⟩ := h.alternating.appeared (w.calls priv p)
      refine ⟨hsound, halt, ?_⟩
      have hmore := hlength _ hconn
      rw [hbefore, hafter] at hmore
      show ((Group.slot .firstSubscriberAppeared)^[w.calls priv p] w.group).propertiesSubscribedTo = _
      rw [hcount, h.count]
      exact_mod_cast hmore.symm
    | lastSubscriberDisappeared =>
      obtain ⟨hbefore, hafter⟩ := htells
      have hle := calls_le_subscribed priv w hbefore
      have hcounted := h.count
      obtain ⟨halt, hconn, hcount⟩ := h.alternating.disappeared (w.calls priv p) (by omega)
      refine ⟨hsound, halt, ?_⟩
      have hless := hlength _ hconn
      rw [hbefore, hafter] at hless
      simp only [if_true, Bool.false_eq_true, if_false] at hless
      show ((Group.slot .lastSubscriberDisappeared)^[w.calls priv p] w.group).propertiesSubscribedTo =
        ((subscribed priv ⟨Function.update w.adaptors p ((w.adaptors p).perform e).1,
          (Group.slot .lastSubscriberDisappeared)^[w.calls priv p] w.group⟩).length : ℤ)
      omega

theorem Counted.step {w t : GroupWorld P O C V} {e : GroupEvent P O C V} (h : w.Counted priv)
    (ht : GroupWorld.step priv w e = some t) : t.Counted priv := by
  cases e with
  | add property =>
    simp only [GroupWorld.step, Option.ite_none_right_eq_some, Option.some.injEq] at ht
    obtain ⟨hs, rfl⟩ := ht
    exact h.add hs
  | perform p e =>
    obtain rfl := Option.some.inj ht
    exact h.perform p e

/-- **The signals of a group alternate**, its counter never is negative, and the group is subscribed
to while some member has a client. -/
theorem signals_alternate {constructed : P → ℕ} {es : List (GroupEvent P O C V)}
    {w : GroupWorld P O C V} (h : run (step priv) (init constructed) es = some w) :
    Alternates true (w.group.emitted.map fun s => decide (s = .firstSubscriberAppeared)) ∧
      (∀ n ∈ w.group.passed, 0 ≤ n) ∧ 0 ≤ w.group.propertiesSubscribedTo ∧
      (w.group.isSubscribedTo = true ↔
        ∃ o ∈ w.group.connections, (w.adaptors (priv o)).clientServiceNames ≠ ∅) := by
  have hw : w.Counted priv :=
    run_inv (P := Counted priv) (fun _ _ _ hs ht => hs.step ht) (counted_init priv constructed) h
  refine ⟨hw.alternating.alternates, hw.alternating.passed, hw.alternating.nonneg, ?_⟩
  calc w.group.isSubscribedTo = true ↔ 0 < (w.subscribed priv).length := by
        rw [Group.isSubscribedTo, decide_eq_true_iff, hw.count]
        exact Int.natCast_pos
    _ ↔ ∃ o ∈ w.group.connections, (w.adaptors (priv o)).propertyPrivate.subscribed = true := by
        rw [List.length_pos_iff_exists_mem]
        simp [subscribed]
    _ ↔ _ := by simp only [(hw.sound _).subscribed, Finset.nonempty_iff_ne_empty]

/-- Two objects for one key, one of them added twice, and a client that comes and exits. -/
theorem signals_alternate_run :
    ∃ w : GroupWorld String (String × Bool) String (Option ℤ),
      run (step Prod.fst) (init fun _ => 0) [.add ("a", true), .add ("a", false),
        .add ("a", true), .perform "a" (.Subscribe ":1.1" []), .perform "b" (.Subscribe ":1.1" []),
        .perform "a" (.onClientExited ":1.1" []), .perform "a" (.forgetClients [])] = some w ∧
      w.group.emitted = [.firstSubscriberAppeared, .lastSubscriberDisappeared] ∧
      w.group.passed = [0, 1, 2, 3, 2, 1, 0] ∧ (∀ n ∈ w.group.passed, 0 ≤ n) := by
  have hrun : run (step Prod.fst)
    (init (fun _ => 0) : GroupWorld String (String × Bool) String (Option ℤ))
    [.add ("a", true), .add ("a", false), .add ("a", true), .perform "a" (.Subscribe ":1.1" []),
      .perform "b" (.Subscribe ":1.1" []), .perform "a" (.onClientExited ":1.1" []),
      .perform "a" (.forgetClients [])] = some _ := rfl
  exact ⟨_, hrun, rfl, rfl, (signals_alternate hrun).2.1⟩

end GroupWorld

end ContextProvider
