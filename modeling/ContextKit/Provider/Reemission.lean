import Mathlib.Algebra.BigOperators.Group.Finset.Piecewise
import Mathlib.Algebra.Order.BigOperators.Group.Finset
import Mathlib.Data.Fintype.Basic
import ContextKit.Provider.PropertyPrivate
import ContextKit.Transition.Run

/-!
# How often overheard values are answered

Every `ValueChanged` of a provider may be overheard by all other providers of the key, and whoever
overhears a newer value may answer with a signal of its own.  Here the bus does its worst: a signal
that was emitted once may reach any provider any number of times, in any order and as late as it
likes.  The providers come to rest all the same, since an answer costs a provider the news it has:
`budget` is what a provider has emitted together with what it still could emit, and only its own
`setValue` raises it.
-/

namespace ContextProvider
open ContextKit Transition

/-- The providers of one key, all signals they have emitted so far and the common clock. -/
structure Providers (ι V : Type) where
  provider : ι → PropertyPrivate V
  emitted : List (ι × ValueChanged V)
  clock : ℕ

/-- A provider sets a value at the time `now`, gets its first subscriber or loses its last one, or
the signal emitted as number `n` reaches the provider `i`. -/
inductive ProvidersEvent (ι V : Type)
  | setValue (i : ι) (v : V) (now : ℕ)
  | setSubscribed (i : ι)
  | setUnsubscribed (i : ι)
  | deliver (n : ℕ) (i : ι)

variable {ι V : Type} [QVariant V]

namespace PropertyPrivate

/-- What the property could still emit without another `setValue`. -/
def pending (p : PropertyPrivate V) : ℕ := if p.upToDate then 0 else 1

/-- The times of a property at the time `clock`: the emission is not newer than the intention, and
of the intention if it is as new. -/
structure Timely (clock : ℕ) (p : PropertyPrivate V) : Prop where
  le : p.emittedTimestamp ≤ p.timestamp
  past : p.timestamp ≤ clock
  same : p.emittedTimestamp = p.timestamp → p.upToDate = true

/-- A slot made `q` of `p` and emitted `m`, which is newer than all before. -/
structure Stamps (p q : PropertyPrivate V) (m : Option (ValueChanged V)) : Prop where
  le : p.emittedTimestamp ≤ q.emittedTimestamp
  newer : ∀ c ∈ m.toList, p.emittedTimestamp < c.timestamp ∧ c.timestamp = q.emittedTimestamp

theorem pending_le_one (p : PropertyPrivate V) : p.pending ≤ 1 := by
  unfold pending
  split_ifs <;> omega

theorem upToDate_of_emitted (hrefl : ∀ v : V, QVariant.eq v v = true) {p : PropertyPrivate V}
    (ht : p.emittedTimestamp = p.timestamp) (hv : p.emittedValue = p.value) :
    p.upToDate = true := by
  simp [upToDate, ht, hv, differs, hrefl]

/-- An emission uses up what was pending. -/
theorem emitValue_pending (hrefl : ∀ v : V, QVariant.eq v v = true) (p : PropertyPrivate V) :
    p.emitValue.2.toList.length + p.emitValue.1.pending ≤ p.pending := by
  unfold emitValue
  dsimp only
  by_cases hu : p.upToDate = true
  · rw [if_pos hu]
    simp
  · have hp : p.pending = 1 := if_neg hu
    have hq : upToDate { p with
        emittedValue := p.value, emittedTimestamp := p.timestamp, overheard := false } = true :=
      upToDate_of_emitted hrefl rfl rfl
    rw [if_neg hu, hp]
    split_ifs
    · simp [pending, hq]
    · simp [pending, hq]

theorem setValue_pending (hrefl : ∀ v : V, QVariant.eq v v = true) (p : PropertyPrivate V) (v : V)
    (now : ℕ) : (p.setValue v now).2.toList.length + (p.setValue v now).1.pending ≤ 1 := by
  have hemit := emitValue_pending hrefl { p with timestamp := now, value := v }
  have hone := pending_le_one { p with timestamp := now, value := v }
  unfold setValue
  dsimp only
  split_ifs
  · exact hemit.trans hone
  · exact hemit.trans hone
  · simpa using hone

theorem updateOverheardValue_pending (hrefl : ∀ v : V, QVariant.eq v v = true)
    (p : PropertyPrivate V) (values : List V) (t : ℕ) :
    (p.updateOverheardValue values t).2.toList.length +
      (p.updateOverheardValue values t).1.pending ≤ p.pending := by
  unfold updateOverheardValue
  dsimp only
  split_ifs
  · -- Whether the property is up to date does not depend on what it has overheard.
    exact emitValue_pending hrefl { p with overheard := true }
  · simp

theorem emitValue_timely (hrefl : ∀ v : V, QVariant.eq v v = true) {clock : ℕ}
    {p : PropertyPrivate V} (hp : p.Timely clock) :
    p.emitValue.1.Timely clock ∧ p.Stamps p.emitValue.1 p.emitValue.2 := by
  unfold emitValue
  dsimp only
  by_cases hu : p.upToDate = true
  · rw [if_pos hu]
    exact ⟨hp, le_refl _, nofun⟩
  · have hlt : p.emittedTimestamp < p.timestamp :=
      lt_of_le_of_ne hp.le fun h => hu (hp.same h)
    have hq : Timely clock { p with
        emittedValue := p.value, emittedTimestamp := p.timestamp, overheard := false } :=
      ⟨le_refl _, hp.past, fun _ => upToDate_of_emitted hrefl rfl rfl⟩
    rw [if_neg hu]
    split_ifs
    · exact ⟨hq, hlt.le, nofun⟩
    · refine ⟨hq, hlt.le, fun c hc => ?_⟩
      obtain rfl : c = _ := by simpa using hc
      exact ⟨hlt, rfl⟩

theorem setValue_timely (hrefl : ∀ v : V, QVariant.eq v v = true) {clock now : ℕ}
    {p : PropertyPrivate V} (hp : p.Timely clock) (hnow : clock < now) (v : V) :
    (p.setValue v now).1.Timely now ∧ p.Stamps (p.setValue v now).1 (p.setValue v now).2 := by
  have hlt : p.emittedTimestamp < now := lt_of_le_of_lt (hp.le.trans hp.past) hnow
  have hset : Timely now { p with timestamp := now, value := v } :=
    ⟨hlt.le, le_refl _, fun h => absurd h hlt.ne⟩
  have hemit := emitValue_timely hrefl hset
  unfold setValue
  dsimp only
  split_ifs
  · exact ⟨hemit.1, hemit.2.le, hemit.2.newer⟩
  · exact ⟨hemit.1, hemit.2.le, hemit.2.newer⟩
  · exact ⟨hset, le_refl _, nofun⟩

theorem updateOverheardValue_timely (hrefl : ∀ v : V, QVariant.eq v v = true) {clock : ℕ}
    {p : PropertyPrivate V} (hp : p.Timely clock) (values : List V) (t : ℕ) :
    (p.updateOverheardValue values t).1.Timely clock ∧
      p.Stamps (p.updateOverheardValue values t).1 (p.updateOverheardValue values t).2 := by
  have hemit := emitValue_timely hrefl (p := { p with overheard := true }) ⟨hp.le, hp.past, hp.same⟩
  unfold updateOverheardValue
  dsimp only
  split_ifs
  · exact ⟨hemit.1, hemit.2.le, hemit.2.newer⟩
  · exact ⟨hp, le_refl _, nofun⟩

end PropertyPrivate

namespace Providers

/-- Providers constructed at the times `constructed`, with the clock at `now`. -/
def init (constructed : ι → ℕ) (now : ℕ) : Providers ι V :=
  ⟨fun i => PropertyPrivate.init (constructed i), [], now⟩

variable [DecidableEq ι]

omit [QVariant V] in
/-- A slot of the provider `i` ran with the result `r`. -/
def publish (s : Providers ι V) (i : ι) (r : PropertyPrivate V × Option (ValueChanged V)) :
    Providers ι V :=
  { s with
    provider := Function.update s.provider i r.1
    emitted := s.emitted ++ r.2.toList.map fun m => (i, m) }

def step (s : Providers ι V) : ProvidersEvent ι V → Option (Providers ι V)
  | .setValue i v now =>
    if s.clock < now then
      some { s.publish i ((s.provider i).setValue v now) with clock := now }
    else none
  | .setSubscribed i => some (s.publish i ((s.provider i).setSubscribed.1, none))
  | .setUnsubscribed i => some (s.publish i ((s.provider i).setUnsubscribed.1, none))
  | .deliver n i => s.emitted[n]?.map fun m =>
      s.publish i ((s.provider i).updateOverheardValue m.2.values m.2.timestamp)

omit [QVariant V] in
/-- What the provider `i` has emitted, in order. -/
def emittedBy (s : Providers ι V) (i : ι) : List (ValueChanged V) :=
  (s.emitted.filter fun m => m.1 = i).map Prod.snd

/-- What the provider `i` has emitted and could emit without another `setValue`. -/
def budget (s : Providers ι V) (i : ι) : ℕ := (s.emittedBy i).length + (s.provider i).pending

omit [QVariant V] in
theorem emittedBy_publish (s : Providers ι V) (i j : ι)
    (r : PropertyPrivate V × Option (ValueChanged V)) :
    (s.publish i r).emittedBy j =
      if i = j then s.emittedBy j ++ r.2.toList else s.emittedBy j := by
  unfold emittedBy publish
  cases r.2 with
  | none => simp
  | some m =>
    by_cases hij : i = j
    · simp [hij]
    · simp [hij]

omit [QVariant V] in
theorem provider_publish (s : Providers ι V) (i j : ι)
    (r : PropertyPrivate V × Option (ValueChanged V)) :
    (s.publish i r).provider j = if i = j then r.1 else s.provider j := by
  simp only [publish, Function.update_apply, eq_comm (a := j)]

end Providers

/-- The event is a `setValue` of the provider `i`. -/
def ProvidersEvent.sets [DecidableEq ι] (i : ι) : ProvidersEvent ι V → Bool
  | .setValue j _ _ => decide (j = i)
  | _ => false

namespace Providers

variable [DecidableEq ι]

/-- What one step is for one provider: `m` is what it emits. -/
structure SlotOf (i : ι) (e : ProvidersEvent ι V) (s t : Providers ι V) (m : Option (ValueChanged V)) :
    Prop where
  timely : (t.provider i).Timely t.clock
  stamps : (s.provider i).Stamps (t.provider i) m
  emittedBy : t.emittedBy i = s.emittedBy i ++ m.toList
  pending : m.toList.length + (t.provider i).pending ≤
    if e.sets i then 1 else (s.provider i).pending

/-- The slot of a provider `j` ran by the time `now`. -/
theorem slotOf_publish {s : Providers ι V} {i j : ι} {e : ProvidersEvent ι V} (now : ℕ)
    {r : PropertyPrivate V × Option (ValueChanged V)} (hi : (s.provider i).Timely s.clock)
    (hnow : s.clock ≤ now) (hother : e.sets i = true → j = i)
    (hr : j = i → r.1.Timely now ∧ (s.provider i).Stamps r.1 r.2 ∧
      r.2.toList.length + r.1.pending ≤ if e.sets i then 1 else (s.provider i).pending) :
    ∃ m, SlotOf i e s { s.publish j r with clock := now } m := by
  by_cases hj : j = i
  · obtain ⟨htimely, hstamps, hpending⟩ := hr hj
    have hprovider : (s.publish j r).provider i = r.1 := by rw [provider_publish, if_pos hj]
    have hby : (s.publish j r).emittedBy i = s.emittedBy i ++ r.2.toList := by
      rw [emittedBy_publish, if_pos hj]
    refine ⟨r.2, ?_, ?_, hby, ?_⟩
    · show ((s.publish j r).provider i).Timely now
      rwa [hprovider]
    · show (s.provider i).Stamps ((s.publish j r).provider i) r.2
      rwa [hprovider]
    · show r.2.toList.length + ((s.publish j r).provider i).pending ≤ _
      rwa [hprovider]
  · have hprovider : (s.publish j r).provider i = s.provider i := by
      rw [provider_publish, if_neg hj]
    have hby : (s.publish j r).emittedBy i = s.emittedBy i ++ (none : Option _).toList := by
      rw [emittedBy_publish, if_neg hj]
      simp
    have hsets : e.sets i = false := by
      by_contra hs
      exact hj (hother (by simpa using hs))
    refine ⟨none, ?_, ?_, hby, ?_⟩
    · show ((s.publish j r).provider i).Timely now
      rw [hprovider]
      exact ⟨hi.le, hi.past.trans hnow, hi.same⟩
    · show (s.provider i).Stamps ((s.publish j r).provider i) none
      rw [hprovider]
      exact ⟨le_refl _, nofun⟩
    · show 0 + ((s.publish j r).provider i).pending ≤ _
      rw [hprovider, hsets]
      simp

/-- A change of the subscription makes nothing pending. -/
theorem slotOf_subscription {s : Providers ι V} {i j : ι} {e : ProvidersEvent ι V}
    (hi : (s.provider i).Timely s.clock) (he : e.sets i = false) {p : PropertyPrivate V}
    (hp : ∃ b, p = { s.provider j with subscribed := b }) :
    ∃ m, SlotOf i e s (s.publish j (p, none)) m := by
  refine slotOf_publish s.clock hi (le_refl _) (by simp [he]) ?_
  rintro rfl
  obtain ⟨b, rfl⟩ := hp
  refine ⟨⟨hi.le, hi.past, hi.same⟩, ⟨le_refl _, nofun⟩, ?_⟩
  rw [he]
  simp [PropertyPrivate.pending, PropertyPrivate.upToDate]

theorem step_slotOf (hrefl : ∀ v : V, QVariant.eq v v = true) {s t : Providers ι V}
    {e : ProvidersEvent ι V} (h : step s e = some t) (i : ι)
    (hi : (s.provider i).Timely s.clock) : ∃ m, SlotOf i e s t m := by
  cases e with
  | setValue j v now =>
    simp only [step, Option.ite_none_right_eq_some, Option.some.injEq] at h
    obtain ⟨hnow, rfl⟩ := h
    refine slotOf_publish _ hi hnow.le (by simp [ProvidersEvent.sets]) ?_
    rintro rfl
    have htimely := PropertyPrivate.setValue_timely hrefl hi hnow v
    refine ⟨htimely.1, htimely.2, ?_⟩
    simpa [ProvidersEvent.sets] using
      PropertyPrivate.setValue_pending hrefl (s.provider j) v now
  | setSubscribed j =>
    obtain rfl := Option.some.inj h
    refine slotOf_subscription hi rfl ?_
    unfold PropertyPrivate.setSubscribed
    split_ifs
    · exact ⟨true, rfl⟩
    · exact ⟨_, rfl⟩
  | setUnsubscribed j =>
    obtain rfl := Option.some.inj h
    refine slotOf_subscription hi rfl ?_
    unfold PropertyPrivate.setUnsubscribed
    split_ifs
    · exact ⟨false, rfl⟩
    · exact ⟨_, rfl⟩
  | deliver n j =>
    simp only [step, Option.map_eq_some_iff] at h
    obtain ⟨m, -, rfl⟩ := h
    refine slotOf_publish s.clock hi (le_refl _) (by simp [ProvidersEvent.sets]) ?_
    rintro rfl
    have htimely := PropertyPrivate.updateOverheardValue_timely hrefl hi m.2.values m.2.timestamp
    exact ⟨htimely.1, htimely.2,
      PropertyPrivate.updateOverheardValue_pending hrefl (s.provider j) m.2.values m.2.timestamp⟩

/-! ### The account of a run -/

/-- What a provider has emitted is in order and within the number of its `setValue` calls. -/
structure Accounted (i : ι) (calls : ℕ) (s : Providers ι V) : Prop where
  timely : (s.provider i).Timely s.clock
  past : ∀ c ∈ s.emittedBy i, c.timestamp ≤ (s.provider i).emittedTimestamp
  increasing : (s.emittedBy i).Pairwise fun c d => c.timestamp < d.timestamp
  within : s.budget i ≤ calls

theorem accounted_init (hrefl : ∀ v : V, QVariant.eq v v = true) {constructed : ι → ℕ} {now : ℕ}
    {i : ι} (hi : constructed i ≤ now) : Accounted i 0 (init constructed now : Providers ι V) := by
  have hup : (PropertyPrivate.init (constructed i) : PropertyPrivate V).upToDate = true :=
    PropertyPrivate.upToDate_of_emitted hrefl rfl rfl
  exact {
    timely := ⟨le_refl _, hi, fun _ => hup⟩
    past := nofun
    increasing := .nil
    within := by simp [budget, init, emittedBy, PropertyPrivate.pending, hup] }

/-- A `setValue` can always be answered once, whatever was pending; nothing else raises the
budget. -/
theorem SlotOf.budget_le {i : ι} {e : ProvidersEvent ι V} {s t : Providers ι V}
    {m : Option (ValueChanged V)} (h : SlotOf i e s t m) :
    t.budget i ≤ if e.sets i then (s.emittedBy i).length + 1 else s.budget i := by
  have hpending := h.pending
  unfold budget
  rw [h.emittedBy, List.length_append]
  split_ifs at hpending ⊢ <;> omega

theorem Accounted.step (hrefl : ∀ v : V, QVariant.eq v v = true) {i : ι} {calls : ℕ}
    {s t : Providers ι V} {e : ProvidersEvent ι V} (hs : Accounted i calls s)
    (h : Providers.step s e = some t) : Accounted i (calls + if e.sets i then 1 else 0) t := by
  obtain ⟨m, hm⟩ := step_slotOf hrefl h i hs.timely
  refine ⟨hm.timely, fun c hc => ?_, ?_, ?_⟩
  · rw [hm.emittedBy, List.mem_append] at hc
    rcases hc with hc | hc
    · exact (hs.past c hc).trans hm.stamps.le
    · exact (hm.stamps.newer c hc).2.le
  · rw [hm.emittedBy, List.pairwise_append]
    refine ⟨hs.increasing, ?_, fun c hc d hd => ?_⟩
    · cases m <;> simp
    · exact lt_of_le_of_lt (hs.past c hc) (hm.stamps.newer d hd).1
  · have hbudget := hm.budget_le
    have hwithin := hs.within
    unfold budget at hbudget hwithin ⊢
    split_ifs at hbudget ⊢ <;> omega

theorem Accounted.run (hrefl : ∀ v : V, QVariant.eq v v = true) {i : ι} {calls : ℕ}
    {s t : Providers ι V} {es : List (ProvidersEvent ι V)} (hs : Accounted i calls s)
    (h : Transition.run Providers.step s es = some t) :
    Accounted i (calls + es.countP (·.sets i)) t := by
  induction es generalizing s calls with
  | nil =>
    cases h
    exact hs
  | cons e es ih =>
    obtain ⟨u, hu, hrun⟩ := run_cons_eq_some.1 h
    have ht := ih (hs.step hrefl hu) hrun
    rwa [List.countP_cons, add_comm (es.countP _), ← add_assoc]

/-- Without a `setValue` of its own a provider has no more than its budget. -/
theorem Accounted.budget_le (hrefl : ∀ v : V, QVariant.eq v v = true) {i : ι} {calls : ℕ}
    {s t : Providers ι V} {es : List (ProvidersEvent ι V)} (hs : Accounted i calls s)
    (h : Transition.run Providers.step s es = some t) (hes : ∀ e ∈ es, e.sets i = false) :
    t.budget i ≤ s.budget i := by
  -- Count the calls from what the budget is now.
  have hnow : Accounted i (s.budget i) s := ⟨hs.timely, hs.past, hs.increasing, le_refl _⟩
  have hwithin := (hnow.run hrefl h).within
  rwa [List.countP_eq_zero.2 (by simpa using hes)] at hwithin

omit [QVariant V] in
/-- Every signal was emitted by some provider. -/
theorem length_emitted [Fintype ι] (s : Providers ι V) :
    s.emitted.length = ∑ i, (s.emittedBy i).length := by
  unfold emittedBy
  induction s.emitted with
  | nil => simp
  | cons m l ih =>
    have hcons : ∀ i, (((m :: l).filter fun m => m.1 = i).map Prod.snd).length =
        (if m.1 = i then 1 else 0) + ((l.filter fun m => m.1 = i).map Prod.snd).length := by
      intro i
      by_cases hm : m.1 = i
      · simp [hm, add_comm]
      · simp [hm]
    rw [Finset.sum_congr rfl fun i _ => hcons i, Finset.sum_add_distrib, ← ih]
    simp [add_comm]

/-- **No overhearing storm.**  Whatever reaches whom, a provider emits at most as often as it is set,
with increasing time stamps, and at most once from one of its `setValue` calls to the next; so the
mutual answers come to an end when no more values are set. -/
theorem no_storm [Fintype ι] (hrefl : ∀ v : V, QVariant.eq v v = true) {constructed : ι → ℕ}
    {now : ℕ} (hnow : ∀ i, constructed i ≤ now) {es : List (ProvidersEvent ι V)}
    {s : Providers ι V} (h : run step (init constructed now) es = some s) :
    (∀ i, (s.emittedBy i).length ≤ es.countP (·.sets i)) ∧
      (∀ i, (s.emittedBy i).Pairwise fun c d => c.timestamp < d.timestamp) ∧
      (∀ i e fs t, run step s (e :: fs) = some t → (∀ f ∈ fs, f.sets i = false) →
        (t.emittedBy i).length ≤ (s.emittedBy i).length + 1) ∧
      ∀ fs t, run step s fs = some t → (∀ i, ∀ f ∈ fs, f.sets i = false) →
        t.emitted.length ≤ s.emitted.length + Fintype.card ι := by
  have hacc : ∀ i, Accounted i (es.countP (·.sets i)) s := fun i => by
    simpa using (accounted_init hrefl (hnow i)).run hrefl h
  have honce : ∀ i e fs t, run step s (e :: fs) = some t → (∀ f ∈ fs, f.sets i = false) →
      (t.emittedBy i).length ≤ (s.emittedBy i).length + 1 := by
    intro i e fs t ht hfs
    obtain ⟨u, hu, hrun⟩ := run_cons_eq_some.1 ht
    obtain ⟨m, hm⟩ := step_slotOf hrefl hu i (hacc i).timely
    have hfirst := hm.budget_le
    have hrest := ((hacc i).step hrefl hu).budget_le hrefl hrun hfs
    have hone := PropertyPrivate.pending_le_one (s.provider i)
    unfold budget at hfirst hrest
    split_ifs at hfirst <;> omega
  refine ⟨fun i => ?_, fun i => (hacc i).increasing, honce, fun fs t ht hfs => ?_⟩
  · have hwithin := (hacc i).within
    unfold budget at hwithin
    omega
  · cases fs with
    | nil =>
      cases ht
      omega
    | cons e fs =>
      rw [length_emitted, length_emitted]
      calc ∑ i, (t.emittedBy i).length
          ≤ ∑ i, ((s.emittedBy i).length + 1) := Finset.sum_le_sum fun i _ =>
            honce i e fs t ht fun f hf => hfs i f (List.mem_cons_of_mem _ hf)
        _ = ∑ i, (s.emittedBy i).length + Fintype.card ι := by
            rw [Finset.sum_add_distrib, Fintype.card, Finset.card_eq_sum_ones]

/-- Two providers answer each other once. -/
theorem no_storm_run :
    ∃ s : Providers Bool (Option ℤ),
      run step (init (fun _ => 0) 0) [.setSubscribed true, .setSubscribed false,
        .setValue true (some 1) 1, .setValue false (some 2) 2, .setValue true (some 1) 3,
        .deliver 1 true, .deliver 2 false, .deliver 0 false] = some s ∧
      (s.emittedBy true).map (·.timestamp) = [1, 3] ∧ (s.emittedBy false).length ≤ 1 := by
  have hrun : run step (init (fun _ => 0) 0 : Providers Bool (Option ℤ)) [.setSubscribed true,
    .setSubscribed false, .setValue true (some 1) 1, .setValue false (some 2) 2,
    .setValue true (some 1) 3, .deliver 1 true, .deliver 2 false, .deliver 0 false] = some _ := rfl
  have hrefl : ∀ v : Option ℤ, QVariant.eq v v = true := fun v => decide_eq_true rfl
  exact ⟨_, hrun, by decide, (no_storm hrefl (fun _ => le_refl _) hrun).1 false⟩

end Providers

end ContextProvider
