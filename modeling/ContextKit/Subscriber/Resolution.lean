import Mathlib.Data.List.Chain
import ContextKit.Subscriber.PropertyHandle
import ContextKit.Transition.Run

/-!
# What a handle makes of the values of its providers

`PropertyHandle::onValueChanged` reads the value of its key from every provider it is routed to.
`IsCandidate` says which of them it settles on, and `resolves` what one call does with it.  A
`Resolution` is a handle with its providers, of which one after the other stores a value; along a
run of those the handle never tells of a value twice in a row, and never holds one that the type
check refuses.
-/

namespace ContextSubscriber
open ContextKit Transition

variable {P K V : Type} [QVariant V]

/-- `w` is one of the values of a list that are not null, it is newer than all such values before
it and not older than those after it. -/
def IsNewest (vs : List (TimedValue V)) (w : TimedValue V) : Prop :=
  ∃ l r, vs = l ++ w :: r ∧ QVariant.isNull w.value = false ∧
    (∀ x ∈ l, QVariant.isNull x.value = false → x.time < w.time) ∧
    ∀ x ∈ r, QVariant.isNull x.value = false → x.time ≤ w.time

/-- The value a handle settles on: the newest that is not null, otherwise null. -/
def IsCandidate (vs : List (TimedValue V)) (c : V) : Prop :=
  (∃ w, IsNewest vs w ∧ c = w.value) ∨
    (∀ x ∈ vs, QVariant.isNull x.value = true) ∧ c = QVariant.invalid

/-- The type check does not stand in the way of `c`. -/
def Setup.Accepts (cfg : Setup P K V) (key : K) (c : V) : Prop :=
  cfg.typeCheckEnabled = true → QVariant.isNull c = true ∨ cfg.typeCheck key c = true

/-- The condition under which the type check refuses `c` does not hold. -/
theorem Setup.accepts_iff (cfg : Setup P K V) (key : K) (c : V) : cfg.Accepts key c ↔
    (cfg.typeCheckEnabled && !QVariant.isNull c && !cfg.typeCheck key c) = false := by
  unfold Setup.Accepts
  cases cfg.typeCheckEnabled <;> cases QVariant.isNull c <;> cases cfg.typeCheck key c <;> simp

/-- What a call of `onValueChanged` that finds the candidate `c` makes of the handle: it is stored
and told of if it is accepted and differs from the stored value, otherwise nothing happens. -/
structure Resolves (cfg : Setup P K V) (key : K) (c : V) (h : PropertyHandle P V)
    (r : PropertyHandle P V × Bool) : Prop where
  changes : cfg.Accepts key c → differs h.myValue c = true → r = ({ h with myValue := c }, true)
  keeps : ¬ (cfg.Accepts key c ∧ differs h.myValue c = true) → r = (h, false)

/-! ### One call -/

/-- The loop once it has found the value `u`: it ends with `u`, or with a newer one. -/
theorem latestValue_some (u : TimedValue V) (vs : List (TimedValue V)) :
    ∃ w, latestValue (some u) vs = some w ∧
      (w = u ∧ (∀ x ∈ vs, QVariant.isNull x.value = false → x.time ≤ u.time) ∨
        IsNewest vs w ∧ u.time < w.time) := by
  induction vs generalizing u with
  | nil => exact ⟨u, rfl, Or.inl ⟨rfl, by simp⟩⟩
  | cons v vs ih =>
    unfold latestValue
    by_cases hn : QVariant.isNull v.value = true
    · obtain ⟨w, hw, hcase⟩ := ih u
      refine ⟨w, by rw [if_pos hn, hw], hcase.imp ?_ ?_⟩
      · rintro ⟨rfl, hle⟩
        exact ⟨rfl, List.forall_mem_cons.2 ⟨by simp [hn], hle⟩⟩
      · rintro ⟨⟨l, r, rfl, hw, hl, hr⟩, hlt⟩
        exact ⟨⟨v :: l, r, rfl, hw, List.forall_mem_cons.2 ⟨by simp [hn], hl⟩, hr⟩, hlt⟩
    · rw [if_neg hn]
      have hn : QVariant.isNull v.value = false := by simpa using hn
      dsimp only
      have hult : u.lt v = true ↔ u.time < v.time := decide_eq_true_iff
      by_cases hlt : u.time < v.time
      · -- A newer value takes the place of `u`.
        obtain ⟨w, hw, hcase⟩ := ih v
        refine ⟨w, by rw [if_pos (hult.2 hlt), hw], Or.inr ?_⟩
        rcases hcase with ⟨rfl, hle⟩ | ⟨⟨l, r, rfl, hwn, hl, hr⟩, hvw⟩
        · exact ⟨⟨[], vs, rfl, hn, by simp, hle⟩, hlt⟩
        · exact ⟨⟨v :: l, r, rfl, hwn, List.forall_mem_cons.2 ⟨fun _ => hvw, hl⟩, hr⟩, by omega⟩
      · obtain ⟨w, hw, hcase⟩ := ih u
        refine ⟨w, by rw [if_neg (mt hult.1 hlt), hw], hcase.imp ?_ ?_⟩
        · rintro ⟨rfl, hle⟩
          exact ⟨rfl, List.forall_mem_cons.2 ⟨fun _ => by omega, hle⟩⟩
        · rintro ⟨⟨l, r, rfl, hwn, hl, hr⟩, huw⟩
          exact ⟨⟨v :: l, r, rfl, hwn, List.forall_mem_cons.2 ⟨fun _ => by omega, hl⟩, hr⟩, huw⟩

/-- The loop from the start: the newest value, if there is one at all. -/
theorem latestValue_none (vs : List (TimedValue V)) :
    (∃ w, latestValue none vs = some w ∧ IsNewest vs w) ∨
      latestValue none vs = none ∧ ∀ x ∈ vs, QVariant.isNull x.value = true := by
  induction vs with
  | nil => exact Or.inr ⟨rfl, by simp⟩
  | cons v vs ih =>
    unfold latestValue
    by_cases hn : QVariant.isNull v.value = true
    · rw [if_pos hn]
      refine ih.imp ?_ ?_
      · rintro ⟨w, hw, l, r, rfl, hwn, hl, hr⟩
        exact ⟨w, hw, v :: l, r, rfl, hwn, List.forall_mem_cons.2 ⟨by simp [hn], hl⟩, hr⟩
      · rintro ⟨hw, hall⟩
        exact ⟨hw, List.forall_mem_cons.2 ⟨hn, hall⟩⟩
    · rw [if_neg hn]
      have hn : QVariant.isNull v.value = false := by simpa using hn
      obtain ⟨w, hw, hcase⟩ := latestValue_some v vs
      refine Or.inl ⟨w, hw, ?_⟩
      rcases hcase with ⟨rfl, hle⟩ | ⟨⟨l, r, rfl, hwn, hl, hr⟩, hlt⟩
      · exact ⟨[], vs, rfl, hn, by simp, hle⟩
      · exact ⟨v :: l, r, rfl, hwn, List.forall_mem_cons.2 ⟨fun _ => hlt, hl⟩, hr⟩

/-- Every call finds a candidate, which depends on the providers alone, and changes the value to it
unless the type check refuses it. -/
theorem PropertyHandle.onValueChanged_eq (cfg : Setup P K V) (key : K) (get : P → TimedValue V)
    (providers : List P) :
    ∃ c, IsCandidate (providers.map get) c ∧
      ∀ h : PropertyHandle P V, h.myProviders = providers →
        h.onValueChanged cfg key get =
          if cfg.typeCheckEnabled && !QVariant.isNull c && !cfg.typeCheck key c then (h, false)
          else h.changeValue c := by
  rcases latestValue_none (providers.map get) with ⟨w, hw, hnew⟩ | ⟨hw, hnull⟩
  · refine ⟨w.value, Or.inl ⟨w, hnew, rfl⟩, fun h hh => ?_⟩
    unfold onValueChanged
    rw [hh, hw]
  · refine ⟨QVariant.invalid, Or.inr ⟨hnull, rfl⟩, fun h hh => ?_⟩
    unfold onValueChanged
    rw [hh, hw]

/-- What a call does with its candidate is what `Resolves` says. -/
theorem resolves (cfg : Setup P K V) (key : K) (get : P → TimedValue V)
    (h : PropertyHandle P V) :
    ∃ c, IsCandidate (h.myProviders.map get) c ∧
      Resolves cfg key c h (h.onValueChanged cfg key get) := by
  obtain ⟨c, hc, hcall⟩ := PropertyHandle.onValueChanged_eq cfg key get h.myProviders
  refine ⟨c, hc, ?_⟩
  have hacc := cfg.accepts_iff key c
  rw [hcall h rfl]
  constructor
  · intro ha hd
    rw [if_neg (by rw [hacc.1 ha]; decide), PropertyHandle.changeValue, if_pos hd]
  · intro hn
    by_cases ha : cfg.Accepts key c
    · rw [if_neg (by rw [hacc.1 ha]; decide), PropertyHandle.changeValue,
        if_neg fun hd => hn ⟨ha, hd⟩]
    · exact if_pos (by simpa [hacc, and_assoc] using ha)

/-! ### Runs -/

/-- A handle, the providers it may be routed to, and the values it has told of so far. -/
structure Resolution (P K V : Type) where
  providers : P → Provider K V
  handle : PropertyHandle P V
  emitted : List V

namespace Resolution

variable [DecidableEq P] [DecidableEq K]

/-- A provider stores a value and signals it, and `HandleSignalRouter` calls the handle of that
key. -/
def step (cfg : Setup P K V) (key : K) (s : Resolution P K V) :
    P × K × TimedValue V → Option (Resolution P K V)
  | (p, k, newValue) =>
    let r := (s.providers p).onPluginValueChanged k newValue
    let providers := Function.update s.providers p r.1
    if key ∈ r.2 then
      let h := s.handle.onValueChanged cfg key fun q => (providers q).get key
      some ⟨providers, h.1, if h.2 then s.emitted ++ [h.1.myValue] else s.emitted⟩
    else some { s with providers := providers }

/-- What a handle that held `v` at the start has told of: no value twice in a row, the last one is
the value it holds, and all values it holds are accepted. -/
structure Told (cfg : Setup P K V) (key : K) (v : V) (s : Resolution P K V) : Prop where
  chain : (v :: s.emitted).IsChain fun a b => differs a b = true
  last : (v :: s.emitted).getLast? = some s.handle.myValue
  accepted : cfg.Accepts key v → cfg.Accepts key s.handle.myValue

/-- What one event does to the handle: a call with its candidate, or nothing. -/
theorem step_cases {cfg : Setup P K V} {key : K} {s t : Resolution P K V} {p : P} {k : K}
    {newValue : TimedValue V} (h : s.step cfg key (p, k, newValue) = some t) :
    t.providers = Function.update s.providers p
        ((s.providers p).onPluginValueChanged k newValue).1 ∧
      ((k = key ∧ key ∈ (s.providers p).subscribedKeys ∧
          ∃ c, IsCandidate (s.handle.myProviders.map fun q => (t.providers q).get key) c ∧
            (cfg.Accepts key c → differs s.handle.myValue c = true →
              t.handle = { s.handle with myValue := c } ∧ t.emitted = s.emitted ++ [c]) ∧
            (¬ (cfg.Accepts key c ∧ differs s.handle.myValue c = true) →
              t.handle = s.handle ∧ t.emitted = s.emitted)) ∨
        ¬ (k = key ∧ key ∈ (s.providers p).subscribedKeys) ∧
          t.handle = s.handle ∧ t.emitted = s.emitted) := by
  have hmem : key ∈ ((s.providers p).onPluginValueChanged k newValue).2 ↔
      k = key ∧ key ∈ (s.providers p).subscribedKeys := by
    unfold Provider.onPluginValueChanged
    by_cases hk : k ∈ (s.providers p).subscribedKeys
    · rw [if_pos hk, Finset.mem_singleton]
      exact ⟨fun he => ⟨he.symm, he ▸ hk⟩, fun he => he.1.symm⟩
    · rw [if_neg hk]
      simp only [Finset.notMem_empty, false_iff]
      rintro ⟨rfl, hs⟩
      exact hk hs
  unfold step at h
  dsimp only at h
  by_cases hs : key ∈ ((s.providers p).onPluginValueChanged k newValue).2
  · rw [if_pos hs] at h
    obtain rfl := Option.some.inj h
    refine ⟨rfl, Or.inl ⟨(hmem.1 hs).1, (hmem.1 hs).2, ?_⟩⟩
    obtain ⟨c, hc, hr⟩ := resolves cfg key (fun q => (Function.update s.providers p
      ((s.providers p).onPluginValueChanged k newValue).1 q).get key) s.handle
    refine ⟨c, hc, fun ha hd => ?_, fun hn => ?_⟩
    · dsimp only
      rw [hr.changes ha hd]
      exact ⟨rfl, rfl⟩
    · dsimp only
      rw [hr.keeps hn]
      exact ⟨rfl, rfl⟩
  · rw [if_neg hs] at h
    obtain rfl := Option.some.inj h
    exact ⟨rfl, Or.inr ⟨fun he => hs (hmem.2 he), rfl, rfl⟩⟩

theorem told_step {cfg : Setup P K V} {key : K} {v : V} {s t : Resolution P K V}
    {e : P × K × TimedValue V} (h : Told cfg key v s) (hstep : s.step cfg key e = some t) :
    Told cfg key v t := by
  obtain ⟨p, k, newValue⟩ := e
  obtain ⟨-, ⟨-, -, c, -, hchange, hkeep⟩ | ⟨-, hh, he⟩⟩ := step_cases hstep
  · by_cases hc : cfg.Accepts key c ∧ differs s.handle.myValue c = true
    · obtain ⟨hh, he⟩ := hchange hc.1 hc.2
      constructor
      · rw [he, ← List.cons_append, List.isChain_append]
        refine ⟨h.chain, .singleton c, ?_⟩
        simpa [h.last] using hc.2
      · rw [he, ← List.cons_append, hh, List.getLast?_concat]
      · rw [hh]
        exact fun _ => hc.1
    · obtain ⟨hh, he⟩ := hkeep hc
      exact ⟨by rw [he]; exact h.chain, by rw [he, hh]; exact h.last, by rw [hh]; exact h.accepted⟩
  · exact ⟨by rw [he]; exact h.chain, by rw [he, hh]; exact h.last, by rw [hh]; exact h.accepted⟩

end Resolution

/-- **What a handle resolves to.**  Each time a provider stores a value of the key, the handle finds
the newest of the values that are not null, the first of them on a tie, and stores it and tells of
it exactly if it is null or passes the type check, and differs from the value it holds.  Along a run
no two values it tells of in a row are the same, and it only ever holds values that are accepted. -/
theorem resolution_run [DecidableEq P] [DecidableEq K] {cfg : Setup P K V} {key : K}
    {es : List (P × K × TimedValue V)} {s t : Resolution P K V} (hemitted : s.emitted = [])
    (hrun : run (Resolution.step cfg key) s es = some t) :
    (∀ (a b : Resolution P K V) (p : P) (newValue : TimedValue V),
      key ∈ (a.providers p).subscribedKeys → a.step cfg key (p, key, newValue) = some b →
      (b.providers p).get key = newValue ∧
        ∃ c, IsCandidate (a.handle.myProviders.map fun q => (b.providers q).get key) c ∧
          (cfg.Accepts key c → differs a.handle.myValue c = true →
            b.handle = { a.handle with myValue := c } ∧ b.emitted = a.emitted ++ [c]) ∧
          (¬ (cfg.Accepts key c ∧ differs a.handle.myValue c = true) →
            b.handle = a.handle ∧ b.emitted = a.emitted)) ∧
      (s.handle.myValue :: t.emitted).IsChain (fun a b => differs a b = true) ∧
      (cfg.Accepts key s.handle.myValue → cfg.Accepts key t.handle.myValue) := by
  have h0 : Resolution.Told cfg key s.handle.myValue s :=
    ⟨by rw [hemitted]; exact .singleton _, by rw [hemitted]; rfl, id⟩
  have h : Resolution.Told cfg key s.handle.myValue t :=
    run_inv (P := Resolution.Told cfg key s.handle.myValue)
      (fun _ _ _ h hst => Resolution.told_step h hst) h0 hrun
  refine ⟨fun a b p newValue hsub hstep => ?_, h.chain, h.accepted⟩
  obtain ⟨hproviders, ⟨-, -, hc⟩ | ⟨hno, -⟩⟩ := Resolution.step_cases hstep
  · refine ⟨?_, hc⟩
    rw [hproviders, Function.update_self, Provider.onPluginValueChanged, if_pos hsub]
    simp only [Provider.get, Function.update_self, Option.getD_some]
  · exact absurd ⟨rfl, hsub⟩ hno

/-- Two providers of one key, one of them listed twice, under a check that refuses 0. -/
def twoProviders : Resolution ℕ String (Option ℤ) where
  providers := fun _ => { Provider.init with subscribedKeys := {"Screen.TopEdge"} }
  handle := { PropertyHandle.init with myProviders := [1, 2, 1] }
  emitted := []

def refusingZero : Setup ℕ String (Option ℤ) := ⟨false, 0, true, fun _ v => decide (v ≠ some 0)⟩

/-- The value 0 is newer than 5 and refused; the value 7 is taken. -/
theorem resolution_run_twoProviders :
    ∃ t, run (Resolution.step refusingZero "Screen.TopEdge") twoProviders
        [(1, "Screen.TopEdge", ⟨some 5, 1⟩), (2, "Screen.TopEdge", ⟨some 0, 2⟩),
          (2, "Screen.TopEdge", ⟨some 7, 3⟩)] = some t ∧
      t.emitted = [some 5, some 7] ∧
      (twoProviders.handle.myValue :: t.emitted).IsChain (fun a b => differs a b = true) := by
  have hrun : run (Resolution.step refusingZero "Screen.TopEdge") twoProviders
      [(1, "Screen.TopEdge", ⟨some 5, 1⟩), (2, "Screen.TopEdge", ⟨some 0, 2⟩),
        (2, "Screen.TopEdge", ⟨some 7, 3⟩)] = some _ := rfl
  exact ⟨_, hrun, rfl, (resolution_run rfl hrun).2.1⟩

end ContextSubscriber
