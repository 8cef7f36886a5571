import Mathlib.Data.Fintype.Option
import ContextKit.Provider.PropertyPrivate
import ContextKit.Subscriber.PropertyHandle
import ContextKit.Transition.Run

/-!
# Several providers of one key on one bus

The providers offer the same key and have a subscriber each.  Every `ValueChanged` goes to the
subscriber and to all other providers, which overhear it; the bus keeps the order of each sender and
promises nothing else.  The subscriber takes the newest of the values it was last told
(`latestValue` of `PropertyHandle::onValueChanged`), and the time stamps it compares are those of
the emissions, not of the intentions.

What the overhearing is for: when nothing is in flight, the newest emission should be of the newest
intention.  The account between two providers is `Heard`: whoever has received everything from a
provider with a newer emission either offers a value alike that one, or remembers that it does not
and has nothing newer to say.  A provider that misjudges a message breaks it, and so does one that
sets a value it takes for its emitted one, while it is not alike the newer one it has heard.
-/

namespace ContextProvider
open ContextKit ContextSubscriber Transition

/-- The providers, the signals on their way from each of them to each provider and to the subscriber
(`none`), what the subscriber was last told by each, and the common clock. -/
structure Bus (ι V : Type) where
  providers : ι → PropertyPrivate V
  channels : ι → Option ι → List (ValueChanged V)
  received : ι → TimedValue V
  clock : ℕ

/-- A provider sets a value at the time `now`, or the first signal from `sender` to `receiver`
arrives. -/
inductive BusEvent (ι V : Type)
  | setValue (i : ι) (v : V) (now : ℕ)
  | deliver (sender : ι) (receiver : Option ι)

namespace Bus

variable {ι V : Type} [QVariant V]

/-- Providers constructed at the times `constructed` and subscribed to, with the clock at `now`. -/
def init (constructed : ι → ℕ) (now : ℕ) : Bus ι V where
  providers i := (PropertyPrivate.init (constructed i)).setSubscribed.1
  channels _ _ := []
  received _ := ⟨QVariant.invalid, 0⟩
  clock := now

variable [DecidableEq ι]

omit [QVariant V] in
/-- The slot of the provider `i` ran with the result `r`. -/
def publish (b : Bus ι V) (i : ι) (r : PropertyPrivate V × Option (ValueChanged V)) : Bus ι V :=
  { b with
    providers := Function.update b.providers i r.1
    channels :=
      match r.2 with
      | none => b.channels
      | some m => Function.update b.channels i fun receiver =>
          if receiver = some i then b.channels i receiver else b.channels i receiver ++ [m] }

omit [QVariant V] in
/-- The first signal from `i` to `r` is taken off. -/
def pop (b : Bus ι V) (i : ι) (r : Option ι) : Bus ι V :=
  { b with
    channels := Function.update b.channels i
      (Function.update (b.channels i) r (b.channels i r).tail) }

/-- One event.  The clock is strictly increasing. -/
def step (b : Bus ι V) : BusEvent ι V → Option (Bus ι V)
  | .setValue i v now =>
    if b.clock < now then some ({ b with clock := now }.publish i ((b.providers i).setValue v now))
    else none
  | .deliver i r =>
    match b.channels i r with
    | [] => none
    | m :: _ =>
      match r with
      | none =>
        some { b.pop i none with
          received := Function.update b.received i ⟨decode m.values, m.timestamp⟩ }
      | some j =>
        some ((b.pop i (some j)).publish j
          ((b.providers j).updateOverheardValue m.values m.timestamp))

omit [DecidableEq ι] in
/-- What the provider `i` intends. -/
def current (b : Bus ι V) (i : ι) : TimedValue V :=
  ⟨(b.providers i).value, (b.providers i).timestamp⟩

/-- A provider misjudges the signal that is delivered to it. -/
def Misjudged (b : Bus ι V) (e : BusEvent ι V) : Prop :=
  ∃ i j m ms, e = .deliver i (some j) ∧ b.channels i (some j) = m :: ms ∧
    (b.providers j).Misjudges m.values m.timestamp

/-- A provider sets a value that it takes for the emitted one, and has heard a newer emission of
another provider that the value is not alike. -/
def Confused (b : Bus ι V) (e : BusEvent ι V) : Prop :=
  ∃ i j v now, e = .setValue j v now ∧ (b.providers j).Withholds v now ∧ i ≠ j ∧
    b.channels i (some j) = [] ∧
    (b.providers j).emittedTimestamp < (b.providers i).emittedTimestamp ∧
    ¬ Carries (b.providers i).announcement.values v

/-- What holds of the providers and their signals whatever they overhear.  `start` is a time before
any value was set. -/
structure Base (start : ℕ) (b : Bus ι V) : Prop where
  settled : ∀ i, (b.providers i).Settled
  clock : ∀ i, (b.providers i).timestamp ≤ b.clock
  valued : ∀ i, QVariant.isNull (b.providers i).emittedValue = false →
    start < (b.providers i).emittedTimestamp
  distinct : ∀ i j s, start < s → (b.providers i).Stamped s → (b.providers j).Stamped s → i = j
  inFlight : ∀ i r, r ≠ some i → ∀ m ∈ (b.channels i r).getLast?,
    m = (b.providers i).announcement
  received : ∀ i, b.channels i none = [] →
    (b.received i).value = decode (b.providers i).announcement.values ∧
      (QVariant.isNull (b.providers i).emittedValue = false →
        (b.received i).time = (b.providers i).emittedTimestamp)

/-- What `j` knows once it has received everything from `i`. -/
def Heard (b : Bus ι V) (i j : ι) : Prop :=
  b.channels i (some j) = [] →
    (b.providers j).emittedTimestamp < (b.providers i).emittedTimestamp →
    Carries (b.providers i).announcement.values (b.providers j).value ∨
      (b.providers j).overheard = true ∧
        (b.providers j).timestamp = (b.providers j).emittedTimestamp

/-! ### One slot on the bus -/

section

variable {start : ℕ} {b : Bus ι V}

omit [DecidableEq ι] in
theorem base_init (constructed : ι → ℕ) (now : ℕ) (h : ∀ i, constructed i ≤ now) :
    (init constructed now : Bus ι V).Base now where
  settled i := PropertyPrivate.settled_init _
  clock := h
  valued i hv := by
    change QVariant.isNull (QVariant.invalid : V) = false at hv
    rw [QVariant.isNull_invalid] at hv
    cases hv
  distinct i j s hs hi _ := by
    have hle : s ≤ constructed i := (PropertyPrivate.settled_init _).stamped_le hi
    have := h i
    omega
  inFlight i r _ m hm := by cases hm
  received i _ := by
    refine ⟨?_, fun hv => ?_⟩
    · show QVariant.invalid = decode (encode QVariant.invalid)
      rw [decode_encode, QVariant.isNull_invalid, if_pos rfl]
    · change QVariant.isNull (QVariant.invalid : V) = false at hv
      rw [QVariant.isNull_invalid] at hv
      cases hv

omit [QVariant V] in
@[simp] theorem publish_providers (i : ι) (r : PropertyPrivate V × Option (ValueChanged V)) :
    (b.publish i r).providers = Function.update b.providers i r.1 := rfl

omit [QVariant V] in
@[simp] theorem publish_received (i : ι) (r : PropertyPrivate V × Option (ValueChanged V)) :
    (b.publish i r).received = b.received := rfl

omit [QVariant V] in
@[simp] theorem publish_clock (i : ι) (r : PropertyPrivate V × Option (ValueChanged V)) :
    (b.publish i r).clock = b.clock := rfl

omit [QVariant V] in
/-- The last signal on a way of the sender is the new one, if there is one. -/
theorem publish_channels_getLast (i : ι) (q : PropertyPrivate V) (m : ValueChanged V)
    {r : Option ι} (hr : r ≠ some i) :
    ((b.publish i (q, some m)).channels i r).getLast? = some m := by
  simp [publish, hr]

omit [QVariant V] in
theorem publish_channels_of_ne {i k : ι} (hk : k ≠ i)
    (x : PropertyPrivate V × Option (ValueChanged V)) (r : Option ι) :
    (b.publish i x).channels k r = b.channels k r := by
  unfold publish
  cases x.2 with
  | none => rfl
  | some m => exact congrFun (Function.update_of_ne hk _ _) r

/-- A slot keeps the general facts.  `clock` is the time before it, and all that is known of it is
that it is as late as everything so far. -/
theorem Base.publish (h : b.Base start) {i : ι} {clock : ℕ} {q : PropertyPrivate V}
    {m : Option (ValueChanged V)} (hm : (b.providers i).Moves clock b.clock q m)
    (hall : ∀ k, (b.providers k).timestamp ≤ clock) (hstart : start ≤ clock) :
    (b.publish i (q, m)).Base start := by
  have hvalue : QVariant.isNull q.emittedValue = false → start < q.emittedTimestamp := by
    intro hv
    rcases hm.isNull with hnull | hlt
    · rw [hnull] at hv
      exact lt_of_lt_of_le (h.valued i hv) hm.grows
    · omega
  -- A time stamp of `q` is old, and then it is not one of another provider, or newer than all.
  have hown : ∀ k s, k ≠ i → start < s → q.Stamped s → ¬ (b.providers k).Stamped s := by
    intro k s hk hs hqs hks
    rcases hm.stamped hqs with hps | hlt
    · exact hk (h.distinct k i s hs hks hps)
    · have := (h.settled k).stamped_le hks
      have := hall k
      omega
  constructor
  · intro k
    rcases eq_or_ne k i with rfl | hk
    · simpa using hm.settled
    · simpa [hk] using h.settled k
  · intro k
    rcases eq_or_ne k i with rfl | hk
    · rcases hm.stamp with hst | ⟨-, hle⟩
      · simpa [hst] using h.clock k
      · simpa using hle
    · simpa [hk] using h.clock k
  · intro k
    rcases eq_or_ne k i with rfl | hk
    · simpa using hvalue
    · simpa [hk] using h.valued k
  · intro k j s hs hks hjs
    simp only [publish_providers] at hks hjs
    by_contra hne
    rcases eq_or_ne k i with rfl | hk
    · rw [Function.update_self] at hks
      rw [Function.update_of_ne (Ne.symm hne)] at hjs
      exact hown j s (Ne.symm hne) hs hks hjs
    · rw [Function.update_of_ne hk] at hks
      rcases eq_or_ne j i with rfl | hj
      · rw [Function.update_self] at hjs
        exact hown k s hk hs hjs hks
      · rw [Function.update_of_ne hj] at hjs
        exact hne (h.distinct k j s hs hks hjs)
  · intro k r hr m' hm'
    rcases eq_or_ne k i with rfl | hk
    · simp only [publish_providers, Function.update_self]
      rcases hm.announced with rfl | ⟨rfl, hann⟩
      · rw [publish_channels_getLast k q _ hr] at hm'
        exact (Option.some.inj hm').symm
      · rw [hann]
        exact h.inFlight k r hr m' hm'
    · rw [publish_channels_of_ne hk] at hm'
      simpa [hk] using h.inFlight k r hr m' hm'
  · intro k hempty
    rcases eq_or_ne k i with rfl | hk
    · simp only [publish_providers, Function.update_self]
      rcases hm.announced with rfl | ⟨rfl, hann⟩
      · have hlast := publish_channels_getLast (b := b) k q q.announcement (r := none) (by simp)
        rw [hempty] at hlast
        cases hlast
      · have hstamp : q.emittedTimestamp = (b.providers k).emittedTimestamp :=
          congrArg ValueChanged.timestamp hann
        have hnull : QVariant.isNull q.emittedValue =
            QVariant.isNull (b.providers k).emittedValue := by
          rw [← isNull_decode_encode, ← isNull_decode_encode (b.providers k).emittedValue]
          exact congrArg (fun m => QVariant.isNull (decode m.values)) hann
        rw [hann, hstamp, hnull]
        exact h.received k hempty
    · rw [publish_channels_of_ne hk] at hempty
      simpa [hk] using h.received k hempty

/-- A slot of `i` keeps the account between any two providers, if a value it sets in silence is
alike the newer emission of the other. -/
theorem Heard.publish (h : b.Base start) {i k j : ι} (hkj : k ≠ j) {clock now : ℕ}
    {q : PropertyPrivate V} {m : Option (ValueChanged V)}
    (hm : (b.providers i).Moves clock now q m) (hall : ∀ k, (b.providers k).timestamp ≤ clock)
    (hq : i = j → b.channels k (some j) = [] →
      q.emittedTimestamp < (b.providers k).emittedTimestamp →
      q.value = (b.providers j).value ∨ Carries (b.providers k).announcement.values q.value)
    (hheard : b.Heard k j) : (b.publish i (q, m)).Heard k j := by
  intro hempty hlt
  simp only [publish_providers] at hlt ⊢
  rcases eq_or_ne k i with rfl | hk
  · -- The sender: if it has emitted, its signal is on the way.
    rcases hm.announced with rfl | ⟨rfl, hann⟩
    · have hlast := publish_channels_getLast (b := b) k q q.announcement (r := some j)
        (by simpa using hkj.symm)
      rw [hempty] at hlast
      cases hlast
    · have hstamp : q.emittedTimestamp = (b.providers k).emittedTimestamp :=
        congrArg ValueChanged.timestamp hann
      rw [Function.update_self, Function.update_of_ne hkj.symm] at hlt ⊢
      rw [hann]
      exact hheard hempty (hstamp ▸ hlt)
  · rw [publish_channels_of_ne hk] at hempty
    rw [Function.update_of_ne hk] at hlt ⊢
    rcases eq_or_ne j i with rfl | hj
    · -- The receiver: what it emits anew is newer than everything.
      rw [Function.update_self] at hlt ⊢
      have hk' : (b.providers k).emittedTimestamp ≤ clock := (h.settled k).le.trans (hall k)
      rcases hq rfl hempty hlt with hval | hcarries
      · rw [hval]
        rcases hheard hempty (lt_of_le_of_lt hm.grows hlt) with heq | ⟨ho, hst⟩
        · exact Or.inl heq
        · exact Or.inr ((hm.remembers ho hst).resolve_right (by omega))
      · exact Or.inl hcarries
    · rw [Function.update_of_ne hj] at hlt ⊢
      exact hheard hempty hlt

/-! ### One event on the bus -/

omit [QVariant V] in
@[simp] theorem pop_channels (i : ι) (r : Option ι) :
    (b.pop i r).channels i r = (b.channels i r).tail := by simp [pop]

omit [QVariant V] in
theorem pop_channels_of_ne {i k : ι} {r r' : Option ι} (h : ¬ (k = i ∧ r' = r)) :
    (b.pop i r).channels k r' = b.channels k r' := by
  unfold pop
  dsimp only
  rcases eq_or_ne k i with rfl | hk
  · rw [Function.update_self, Function.update_of_ne (by simpa using h)]
  · rw [Function.update_of_ne hk]

theorem Base.inFlight_pop (h : b.Base start) (i : ι) (r : Option ι) (k : ι) {r' : Option ι}
    (hr : r' ≠ some k) (m : ValueChanged V) (hm : m ∈ ((b.pop i r).channels k r').getLast?) :
    m = (b.providers k).announcement := by
  by_cases hkr : k = i ∧ r' = r
  · obtain ⟨rfl, rfl⟩ := hkr
    rw [pop_channels, List.getLast?_tail] at hm
    split_ifs at hm
    · cases hm
    · exact h.inFlight k r' hr m hm
  · rw [pop_channels_of_ne hkr] at hm
    exact h.inFlight k r' hr m hm

/-- The subscriber is told a value. -/
theorem Base.deliver_subscriber (h : b.Base start) {i : ι} {m : ValueChanged V}
    {ms : List (ValueChanged V)} (hch : b.channels i none = m :: ms) :
    ({ b.pop i none with
      received := Function.update b.received i ⟨decode m.values, m.timestamp⟩ } :
      Bus ι V).Base start where
  settled := h.settled
  clock := h.clock
  valued := h.valued
  distinct := h.distinct
  inFlight k r hr m' hm' := h.inFlight_pop i none k hr m' hm'
  received k hempty := by
    change (b.pop i none).channels k none = [] at hempty
    rcases eq_or_ne k i with rfl | hk
    · rw [pop_channels, hch, List.tail_cons] at hempty
      subst hempty
      have hm : m = (b.providers k).announcement :=
        h.inFlight k none (by simp) m (by rw [hch]; rfl)
      simp only [Function.update_self]
      rw [hm]
      exact ⟨rfl, fun _ => rfl⟩
    · rw [pop_channels_of_ne (fun h => hk h.1)] at hempty
      simp only [Function.update_of_ne hk]
      exact h.received k hempty

/-- A signal to another provider is taken off. -/
theorem Base.pop_provider (h : b.Base start) (i j : ι) : (b.pop i (some j)).Base start where
  settled := h.settled
  clock := h.clock
  valued := h.valued
  distinct := h.distinct
  inFlight k r hr m' hm' := h.inFlight_pop i (some j) k hr m' hm'
  received k hempty := by
    rw [pop_channels_of_ne (by simp)] at hempty
    exact h.received k hempty

/-- Everything that is kept on the bus while no provider is led astray. -/
structure Inv (start : ℕ) (b : Bus ι V) : Prop where
  base : b.Base start
  start_le : start ≤ b.clock
  heard : ∀ i j, i ≠ j → b.Heard i j

theorem inv_setValue (h : b.Inv start) (i : ι) (v : V) {now : ℕ} (hnow : b.clock < now)
    (hc : ¬ b.Confused (.setValue i v now)) :
    ({ b with clock := now }.publish i ((b.providers i).setValue v now)).Inv start := by
  have hm := PropertyPrivate.setValue_moves (h.base.settled i) (h.base.clock i) hnow v
  have hbase : ({ b with clock := now } : Bus ι V).Base start :=
    { h.base with clock := fun k => (h.base.clock k).trans hnow.le }
  have hset : ∀ k, k ≠ i → b.channels k (some i) = [] →
      ((b.providers i).setValue v now).1.emittedTimestamp < (b.providers k).emittedTimestamp →
      Carries (b.providers k).announcement.values ((b.providers i).setValue v now).1.value := by
    intro k hki hempty hlt
    rw [PropertyPrivate.setValue_value]
    by_cases hw : (b.providers i).Withholds v now
    · rw [PropertyPrivate.setValue_silent hw] at hlt
      by_contra hcarries
      exact hc ⟨k, i, v, now, rfl, hw, hki, hempty, hlt, hcarries⟩
    · -- What it emits is newer than everything.
      rw [PropertyPrivate.setValue_emits hw] at hlt
      have hk : (b.providers k).emittedTimestamp ≤ b.clock :=
        (h.base.settled k).le.trans (h.base.clock k)
      exact absurd hlt (not_lt.2 (hk.trans hnow.le))
  refine ⟨hbase.publish hm h.base.clock h.start_le, h.start_le.trans hnow.le, ?_⟩
  intro k j hkj
  refine Heard.publish hbase hkj hm h.base.clock (fun hij hempty hlt => ?_) (h.heard k j hkj)
  subst hij
  exact Or.inr (hset k hkj hempty hlt)

theorem inv_deliver (h : b.Inv start) {i j : ι} {m : ValueChanged V} {ms : List (ValueChanged V)}
    (hch : b.channels i (some j) = m :: ms)
    (hj : ¬ (b.providers j).Misjudges m.values m.timestamp) :
    ((b.pop i (some j)).publish j
      ((b.providers j).updateOverheardValue m.values m.timestamp)).Inv start := by
  have hm := PropertyPrivate.updateOverheardValue_moves (h.base.settled j) hj b.clock
  have hbase := h.base.pop_provider i j
  refine ⟨hbase.publish hm h.base.clock h.start_le, h.start_le, ?_⟩
  intro k l hkl
  by_cases hdel : k = i ∧ l = j
  · obtain ⟨rfl, rfl⟩ := hdel
    -- The receiver may have been told everything now.
    intro hempty hlt
    rw [publish_channels_of_ne hkl, pop_channels, hch, List.tail_cons] at hempty
    subst hempty
    have hann : m = (b.providers k).announcement :=
      h.base.inFlight k (some l) (by simpa using hkl.symm) m (by rw [hch]; rfl)
    have hts : m.timestamp = (b.providers k).emittedTimestamp := by rw [hann]; rfl
    simp only [publish_providers, Function.update_self, Function.update_of_ne hkl] at hlt ⊢
    change _ < (b.providers k).emittedTimestamp at hlt
    rw [← hts] at hlt
    have hheard := PropertyPrivate.updateOverheardValue_heard (h.base.settled l) hj hlt
    change Carries (b.providers k).announcement.values _ ∨ _
    rwa [← hann]
  · refine Heard.publish hbase hkl hm h.base.clock ?_ fun hempty => ?_
    · intro hjl _ _
      subst hjl
      exact Or.inl (PropertyPrivate.updateOverheardValue_value _ _ _)
    · rw [pop_channels_of_ne (by simpa using hdel)] at hempty
      exact h.heard k l hkl hempty

theorem inv_step {b' : Bus ι V} {e : BusEvent ι V} (h : b.Inv start)
    (hj : ¬ b.Misjudged e ∧ ¬ b.Confused e) (hstep : b.step e = some b') : b'.Inv start := by
  cases e with
  | setValue i v now =>
    simp only [step, Option.ite_none_right_eq_some, Option.some.injEq] at hstep
    obtain ⟨hnow, rfl⟩ := hstep
    exact inv_setValue h i v hnow hj.2
  | deliver i r =>
    simp only [step] at hstep
    cases hch : b.channels i r with
    | nil => simp [hch] at hstep
    | cons m ms =>
      rw [hch] at hstep
      cases r with
      | none =>
        simp only [Option.some.injEq] at hstep
        subst hstep
        refine ⟨h.base.deliver_subscriber hch, h.start_le, fun k j hkj hempty => ?_⟩
        refine h.heard k j hkj ?_
        rw [← hempty]
        exact (pop_channels_of_ne (by simp)).symm
      | some j =>
        simp only [Option.some.injEq] at hstep
        subst hstep
        exact inv_deliver h hch fun hmis => hj.1 ⟨i, j, m, ms, rfl, hch, hmis⟩

omit [DecidableEq ι] in
/-- With nothing in flight the newest emission is of the newest intention. -/
theorem Inv.alike (h : b.Inv start) (hquiet : ∀ i r, b.channels i r = []) {i j : ι}
    (hi : QVariant.isNull (b.providers i).emittedValue = false)
    (hmaxi : (b.providers j).emittedTimestamp ≤ (b.providers i).emittedTimestamp)
    (hmaxj : (b.providers i).timestamp ≤ (b.providers j).timestamp) :
    Alike (b.providers i).emittedValue (b.providers j).value := by
  by_cases hij : i = j
  · subst hij
    exact (h.base.settled i).emitted.symm
  · have hstart := h.base.valued i hi
    have hlt : (b.providers j).emittedTimestamp < (b.providers i).emittedTimestamp := by
      refine lt_of_le_of_ne hmaxi fun heq => hij ?_
      exact h.base.distinct i j _ hstart (Or.inr rfl) (Or.inr heq.symm)
    rcases h.heard i j hij (hquiet i _) hlt with hcarries | ⟨-, hst⟩
    · exact alike_of_carries hi hcarries
    · -- `j` has nothing newer to say than what it emitted, but `i` has.
      have := (h.base.settled i).le
      omega

omit [DecidableEq ι] in
theorem inv_init {constructed : ι → ℕ} {now : ℕ} (h : ∀ i, constructed i ≤ now) :
    (init constructed now : Bus ι V).Inv now where
  base := base_init constructed now h
  start_le := le_refl _
  heard _ _ _ _ _ := Or.inl (Alike.refl _)

end

omit [DecidableEq ι] in
/-- The value the subscriber resolves from what it was last told by the providers in `l`. -/
def resolved (b : Bus ι V) (l : List ι) : Option V :=
  (latestValue none (l.map b.received)).map TimedValue.value

omit [DecidableEq ι] in
/-- The value, among those of the providers in `l` that are not null, that was set last. -/
def newest (b : Bus ι V) (l : List ι) : Option V :=
  (((l.map b.current).filter fun v => !QVariant.isNull v.value).argmax TimedValue.time).map
    TimedValue.value

omit [DecidableEq ι] in
theorem mem_offered {f : ι → TimedValue V} {l : List ι} {x : TimedValue V} :
    x ∈ (l.map f).filter (fun v => !QVariant.isNull v.value) ↔
      ∃ i ∈ l, QVariant.isNull (f i).value = false ∧ f i = x := by
  simp only [List.mem_filter, List.mem_map, Bool.not_eq_true']
  constructor
  · rintro ⟨⟨i, hi, rfl⟩, hx⟩
    exact ⟨i, hi, hx, rfl⟩
  · rintro ⟨i, hi, hx, rfl⟩
    exact ⟨⟨i, hi, rfl⟩, hx⟩

omit [DecidableEq ι] in
theorem Inv.resolved_alike {start : ℕ} {b : Bus ι V} (h : b.Inv start)
    (hquiet : ∀ i r, b.channels i r = []) (l : List ι) :
    Option.Rel Alike (b.resolved l) (b.newest l) := by
  unfold resolved newest
  rw [latestValue_eq_argmax]
  -- What the subscriber has of a provider that offers a value.
  have hreceived : ∀ i, QVariant.isNull (b.providers i).emittedValue = false →
      b.received i = ⟨(b.providers i).emittedValue, (b.providers i).emittedTimestamp⟩ := by
    intro i hi
    obtain ⟨hv, ht⟩ := h.base.received i (hquiet i none)
    rw [PropertyPrivate.announcement, decode_encode_of_not_null hi] at hv
    rw [← hv, ← ht hi]
  have hnull : ∀ i, QVariant.isNull (b.received i).value =
      QVariant.isNull (b.providers i).emittedValue := by
    intro i
    rw [(h.base.received i (hquiet i none)).1]
    exact isNull_decode_encode _
  have hemitted : ∀ i, QVariant.isNull (b.providers i).value =
      QVariant.isNull (b.providers i).emittedValue := fun i => (h.base.settled i).emitted.isNull_eq
  cases hx : ((l.map b.received).filter fun v => !QVariant.isNull v.value).argmax
      TimedValue.time with
  | none =>
    cases hy : ((l.map b.current).filter fun v => !QVariant.isNull v.value).argmax
        TimedValue.time with
    | none => exact .none
    | some y =>
      obtain ⟨i, hi, hv, -⟩ := mem_offered.1 (List.argmax_mem hy)
      have := mem_offered.2 ⟨i, hi, (hnull i).trans ((hemitted i).symm.trans hv), rfl⟩
      rw [List.argmax_eq_none.1 hx] at this
      cases this
  | some x =>
    obtain ⟨i, hi, hvi, hxi⟩ := mem_offered.1 (List.argmax_mem hx)
    rw [hnull] at hvi
    cases hy : ((l.map b.current).filter fun v => !QVariant.isNull v.value).argmax
        TimedValue.time with
    | none =>
      have := mem_offered (f := b.current).2 ⟨i, hi, (hemitted i).trans hvi, rfl⟩
      rw [List.argmax_eq_none.1 hy] at this
      cases this
    | some y =>
      obtain ⟨j, hj, hvj, hyj⟩ := mem_offered.1 (List.argmax_mem hy)
      change QVariant.isNull (b.providers j).value = false at hvj
      rw [hemitted] at hvj
      have hmaxi := List.le_of_mem_argmax (mem_offered.2 ⟨j, hj, (hnull j).trans hvj, rfl⟩) hx
      have hmaxj := List.le_of_mem_argmax
        (mem_offered.2 ⟨i, hi, (hemitted i).trans hvi, rfl⟩) hy
      rw [← hxi, hreceived i hvi, hreceived j hvj] at hmaxi
      rw [← hyj] at hmaxj
      rw [← hxi, ← hyj, hreceived i hvi]
      exact .some (h.alike hquiet hvi hmaxi hmaxj)

end Bus

/-- **The subscriber resolves the value that was set last.**  After a run in which no provider
misjudges what it overhears or is confused by what it sets, and with nothing in flight, the value
the subscriber takes is the newest one the providers intend, as far as the comparison of values
tells. -/
theorem resolved_eq_newest {ι V : Type} [QVariant V] [DecidableEq ι] {constructed : ι → ℕ} {now : ℕ}
    (hconstructed : ∀ i, constructed i ≤ now) {es : List (BusEvent ι V)} {b : Bus ι V}
    (hjudged : Along Bus.step (fun b e => ¬ b.Misjudged e ∧ ¬ b.Confused e)
      (Bus.init constructed now) es)
    (hrun : run Bus.step (Bus.init constructed now) es = some b)
    (hquiet : ∀ i r, b.channels i r = []) (l : List ι) :
    Option.Rel Alike (b.resolved l) (b.newest l) := by
  have h : b.Inv now := run_inv_along (fun _ _ _ h hj hst => Bus.inv_step h hj hst)
    (Bus.inv_init hconstructed) hjudged hrun
  exact h.resolved_alike hquiet l

/-! ### Two providers -/

/-- The first provider sets its value twice before it overhears the second, and once more after. -/
def setAgain : List (BusEvent (Fin 2) (Option ℤ)) :=
  [.setValue 0 (some 1) 1, .setValue 0 (some 1) 2, .setValue 1 (some 2) 3,
    .deliver 0 (some 1), .deliver 0 none, .deliver 1 none, .deliver 1 (some 0),
    .deliver 0 (some 1), .deliver 0 none, .setValue 0 (some 1) 4]

/-- The subscriber takes the value of the second provider, although the first one set its own
later. -/
theorem exists_resolved_ne_newest :
    ∃ b, run Bus.step (Bus.init (fun _ => 0) 0) setAgain = some b ∧
      (∀ i r, b.channels i r = []) ∧
      b.resolved [0, 1] = some (some 2) ∧ b.newest [0, 1] = some (some 1) :=
  ⟨_, rfl, by decide, by decide, by decide⟩

/-- The values are set in turns. -/
def inTurns : List (BusEvent (Fin 2) (Option ℤ)) :=
  [.setValue 0 (some 1) 1, .deliver 0 (some 1), .deliver 0 none,
    .setValue 1 (some 2) 2, .deliver 1 (some 0), .deliver 1 none,
    .setValue 0 (some 1) 3, .deliver 0 (some 1), .deliver 0 none]

theorem resolved_eq_newest_inTurns :
    ∃ b, run Bus.step (Bus.init (fun _ => 0) 0) inTurns = some b ∧
      Option.Rel Alike (b.resolved [0, 1]) (b.newest [0, 1]) := by
  have hset : ∀ {b : Bus (Fin 2) (Option ℤ)} {j : Fin 2} {v : Option ℤ} {now : ℕ},
      ¬ (b.providers j).Withholds v now →
        ¬ b.Misjudged (.setValue j v now) ∧ ¬ b.Confused (.setValue j v now) := by
    intro b j v now hw
    constructor
    · rintro ⟨_, _, _, _, he, -⟩
      cases he
    · rintro ⟨_, _, _, _, he, hw', -⟩
      cases he
      exact hw hw'
  have hdeliver : ∀ {b : Bus (Fin 2) (Option ℤ)} {i : Fin 2} {r : Option (Fin 2)},
      (∀ j m ms, r = some j → b.channels i r = m :: ms →
        ¬ (b.providers j).Misjudges m.values m.timestamp) →
        ¬ b.Misjudged (.deliver i r) ∧ ¬ b.Confused (.deliver i r) := by
    intro b i r hj
    constructor
    · rintro ⟨_, j, m, ms, he, hch, hm⟩
      cases he
      exact hj j m ms rfl hch hm
    · rintro ⟨_, _, _, _, he, -⟩
      cases he
  have hjudged : Along Bus.step (fun b e => ¬ b.Misjudged e ∧ ¬ b.Confused e)
      (Bus.init (fun _ => 0) 0) inTurns := by
    refine .cons (hset (by decide)) rfl <| .cons (hdeliver ?_) rfl <| .cons (hdeliver ?_) rfl <|
      .cons (hset (by decide)) rfl <| .cons (hdeliver ?_) rfl <| .cons (hdeliver ?_) rfl <|
      .cons (hset (by decide)) rfl <| .cons (hdeliver ?_) rfl <| .cons (hdeliver ?_) rfl trivial
    all_goals
      intro j m ms hr hch
      cases hr
    all_goals
      cases hch
      decide
  exact ⟨_, rfl, resolved_eq_newest (fun _ => le_refl 0) hjudged rfl (by decide) [0, 1]⟩

end ContextProvider
