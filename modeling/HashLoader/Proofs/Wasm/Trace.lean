import HashLoader.Proofs.Wasm.Provenance

/-!
# Traces of short runs

`State.run` ends for a reason that no computation follows: the budget shrinks from checkpoint to
checkpoint. `State.trace` is given a number of steps instead. A run that ends within them is
evaluated together with the states that it visits, and `trace_eq_some` says that it is the run and
that there are no other states. So what is said of all visited states can be tested on a list.
-/

namespace HashLoader.Wasm

variable {inst : Instance} {budget : Nat}

/-- The states that a run goes through and what it ends with, if that takes at most `n` steps. -/
def State.trace (inst : Instance) (budget : Nat) : Nat → State → Option (List State × Outcome × Store)
  | 0, _ => none
  | n + 1, s =>
    match s.step inst with
    | .next t => (trace inst budget n t).map fun (visited, result) => (s :: visited, result)
    | .checkpoint t =>
      if budget ≤ t.store.consumed then some ([s], .failed .outOfCycles, t.store)
      else (trace inst budget n t).map fun (visited, result) => (s :: visited, result)
    | .done results store => some ([s], .finished results, store)
    | .failed why store => some ([s], .failed why, store)

/-- A run that visits a state is there already, or visits it from the state after one step on. -/
theorem State.Visits.head {s t : State} (h : s.Visits inst budget t) :
    t = s ∨ (∃ u, s.step inst = .next u ∧ u.Visits inst budget t) ∨
      ∃ u, s.step inst = .checkpoint u ∧ u.store.consumed < budget ∧ u.Visits inst budget t := by
  induction h with
  | start => exact .inl rfl
  | next hvisits hstep ih =>
    rcases ih with rfl | ⟨v, hv, hrest⟩ | ⟨v, hv, hbudget, hrest⟩
    · exact .inr (.inl ⟨_, hstep, .start⟩)
    · exact .inr (.inl ⟨v, hv, .next hrest hstep⟩)
    · exact .inr (.inr ⟨v, hv, hbudget, .next hrest hstep⟩)
  | checkpoint hvisits hstep hbudget ih =>
    rcases ih with rfl | ⟨v, hv, hrest⟩ | ⟨v, hv, hbudget', hrest⟩
    · exact .inr (.inr ⟨_, hstep, hbudget, .start⟩)
    · exact .inr (.inl ⟨v, hv, .checkpoint hrest hstep hbudget⟩)
    · exact .inr (.inr ⟨v, hv, hbudget', .checkpoint hrest hstep hbudget⟩)

/-- A run that is decided at its first state gives what is decided there. -/
theorem State.Ends.run_eq {s : State} {result : Outcome × Store} (h : s.Ends inst budget result) :
    s.run inst budget = result := by
  unfold State.Ends at h
  rw [State.run]
  split
  · next hstep =>
    rw [hstep] at h
    exact h.elim
  · next hstep =>
    rw [hstep] at h
    rw [if_pos h.1, h.2]
  · next hstep =>
    rw [hstep] at h
    exact h.symm
  · next hstep =>
    rw [hstep] at h
    exact h.symm

/-- Such a run visits no other state. -/
theorem State.Ends.eq_of_visits {s t : State} {result : Outcome × Store}
    (h : s.Ends inst budget result) (hvisits : s.Visits inst budget t) : t = s := by
  unfold State.Ends at h
  rcases hvisits.head with ht | ⟨u, hstep, -⟩ | ⟨u, hstep, hbudget, -⟩
  · exact ht
  · rw [hstep] at h
    exact h.elim
  · rw [hstep] at h
    exact absurd h.1 (Nat.not_le.2 hbudget)

/-- A run goes on from a state to the next one. -/
def State.GoesTo (inst : Instance) (budget : Nat) (s t : State) : Prop :=
  s.step inst = .next t ∨ s.step inst = .checkpoint t ∧ t.store.consumed < budget

/-- A state that a run goes to is visited. -/
theorem State.GoesTo.visits {s t : State} (h : s.GoesTo inst budget t) : s.Visits inst budget t := by
  obtain hstep | ⟨hstep, hbudget⟩ := h
  · exact .next .start hstep
  · exact .checkpoint .start hstep hbudget

/-- All that is visited after a state is visited from the next one on. -/
theorem State.GoesTo.eq_or_visits {s t u : State} (h : s.GoesTo inst budget t)
    (hvisits : s.Visits inst budget u) : u = s ∨ t.Visits inst budget u := by
  rcases hvisits.head with heq | ⟨v, hv, hrest⟩ | ⟨v, hv, -, hrest⟩
  · exact .inl heq
  · obtain hstep | ⟨hstep, -⟩ := h
    · cases hstep.symm.trans hv
      exact .inr hrest
    · cases hstep.symm.trans hv
  · obtain hstep | ⟨hstep, -⟩ := h
    · cases hstep.symm.trans hv
    · cases hstep.symm.trans hv
      exact .inr hrest

/-- What a run has there is what the step leaves. -/
theorem State.GoesTo.store_eq {s t : State} (h : s.GoesTo inst budget t) :
    t.store = (s.step inst).store := by
  obtain hstep | ⟨hstep, -⟩ := h
  · rw [hstep]
    rfl
  · rw [hstep]
    rfl

/-- What holds where a run is decided, and goes back from each state to the one before, holds of
every state. This is the recursion of `run`. -/
theorem State.run_induction (inst : Instance) (budget : Nat) {motive : State → Prop}
    (goes : ∀ s t, s.GoesTo inst budget t → motive t → motive s)
    (ends : ∀ s result, s.Ends inst budget result → motive s) (s : State) : motive s := by
  fun_induction State.run inst budget s with
  | case1 s t hstep _ ih => exact goes s t (.inl hstep) ih
  | case2 s t hstep _ hbudget =>
    refine ends s (.failed .outOfCycles, t.store) ?_
    rw [State.Ends, hstep]
    exact ⟨hbudget, rfl⟩
  | case3 s t hstep _ hbudget ih => exact goes s t (.inr ⟨hstep, Nat.not_le.1 hbudget⟩) ih
  | case4 s results store hstep =>
    refine ends s (.finished results, store) ?_
    rw [State.Ends, hstep]
  | case5 s why store hstep =>
    refine ends s (.failed why, store) ?_
    rw [State.Ends, hstep]

/-- A trace goes on where the run does, and ends where the run is decided. -/
theorem State.trace_cases {n : Nat} {s : State} {visited : List State} {result : Outcome × Store}
    (h : s.trace inst budget (n + 1) = some (visited, result)) :
    (∃ u later, s.GoesTo inst budget u ∧ u.trace inst budget n = some (later, result) ∧
        visited = s :: later) ∨
      s.Ends inst budget result ∧ visited = [s] := by
  -- Where the run goes on, this state comes before those of the rest.
  have hgoes : ∀ {u : State}, s.GoesTo inst budget u →
      (u.trace inst budget n).map (fun x => (s :: x.1, x.2)) = some (visited, result) →
      ∃ u later, s.GoesTo inst budget u ∧ u.trace inst budget n = some (later, result) ∧
        visited = s :: later := by
    intro u hu htrace
    obtain ⟨⟨later, result'⟩, hrest, heq⟩ := Option.map_eq_some_iff.1 htrace
    obtain ⟨rfl, rfl⟩ := Prod.mk.inj heq
    exact ⟨u, later, hu, hrest, rfl⟩
  unfold trace at h
  split at h
  · next u hstep => exact .inl (hgoes (.inl hstep) h)
  · next u hstep =>
    split at h
    · next hbudget =>
      obtain ⟨rfl, rfl⟩ := Prod.mk.inj (Option.some.inj h)
      refine .inr ⟨?_, rfl⟩
      rw [Ends, hstep]
      exact ⟨hbudget, rfl⟩
    · next hbudget => exact .inl (hgoes (.inr ⟨hstep, Nat.not_le.1 hbudget⟩) h)
  · next results store hstep =>
    obtain ⟨rfl, rfl⟩ := Prod.mk.inj (Option.some.inj h)
    refine .inr ⟨?_, rfl⟩
    rw [Ends, hstep]
  · next why store hstep =>
    obtain ⟨rfl, rfl⟩ := Prod.mk.inj (Option.some.inj h)
    refine .inr ⟨?_, rfl⟩
    rw [Ends, hstep]

/-- A trace ends as the run does and lists the states that the run visits, and no others. -/
theorem State.trace_eq_some {n : Nat} {s : State} {visited : List State} {result : Outcome × Store}
    (h : s.trace inst budget n = some (visited, result)) :
    s.run inst budget = result ∧ ∀ t, t ∈ visited ↔ s.Visits inst budget t := by
  induction n generalizing s visited result with
  | zero => cases h
  | succ n ih =>
    obtain ⟨u, later, hu, hrest, rfl⟩ | ⟨hends, rfl⟩ := State.trace_cases h
    · obtain ⟨hresult, hvisited⟩ := ih hrest
      refine ⟨hu.visits.run_eq.trans hresult, fun t => ?_⟩
      rw [List.mem_cons, hvisited]
      constructor
      · rintro (rfl | ht)
        · exact .start
        · exact hu.visits.trans ht
      · exact hu.eq_or_visits
    · refine ⟨hends.run_eq, fun t => ?_⟩
      rw [List.mem_singleton]
      constructor
      · rintro rfl
        exact .start
      · exact hends.eq_of_visits

/-- The states that a call goes through and what it gives, if it enters a function and takes at most
`n` steps. -/
def Activation.trace (a : Activation) (budget n : Nat) : Option (List State × Outcome × Store) :=
  (a.start? budget).bind (State.trace a.inst budget n)

/-- A trace of a call ends as the call does and lists all states that it goes through. -/
theorem Activation.trace_eq_some {a : Activation} {n : Nat} {visited : List State}
    {result : Outcome × Store} (h : a.trace budget n = some (visited, result)) :
    a.result budget = result ∧
      ∀ s t, a.start? budget = some s → s.Visits a.inst budget t → t ∈ visited := by
  obtain ⟨s, hs, htrace⟩ := Option.bind_eq_some_iff.1 h
  obtain ⟨hresult, hvisited⟩ := State.trace_eq_some htrace
  refine ⟨(Activation.result_of_start hs).trans hresult, fun s' t hs' ht => ?_⟩
  obtain rfl := Option.some.inj (hs.symm.trans hs')
  exact (hvisited t).2 ht

/-- A call goes through the states that a trace of it lists. -/
theorem Activation.visits_of_trace {a : Activation} {n : Nat} {visited : List State}
    {result : Outcome × Store} (h : a.trace budget n = some (visited, result)) {t : State}
    (ht : t ∈ visited) : ∃ s, a.start? budget = some s ∧ s.Visits a.inst budget t := by
  obtain ⟨s, hs, htrace⟩ := Option.bind_eq_some_iff.1 h
  exact ⟨s, hs, ((State.trace_eq_some htrace).2 t).1 ht⟩

end HashLoader.Wasm
