import HashLoader.Proofs.Wasm.StoreEffects
import HashLoader.Proofs.Wasm.Trace

/-!
# What a budget decides

A budget decides where a run is broken off, and nothing else. A run that is not broken off under a
budget goes the same way under every larger one (`State.run_of_le`), by the recursion of the run:
each step is the same, and a checkpoint that is passed is passed with more cycles too. A run that is
broken off has used up its budget (`State.budget_le_of_outOfCycles`), since no step fails for want
of cycles by itself.

Cycles are never given back (`State.consumed_le_run`), so what a call costs is what the store counts
after it and did not count before: `Activation.cost`.

The other bound on a run is the one on its frames, which no budget changes. A call is the only step
that adds a frame, and it traps where there is no room (`State.call_inFrames`), so no state of a
call has more (`Activation.frames_le`).
-/

namespace HashLoader.Wasm

/-! ## Steps do not run out of cycles -/

/-- A basic instruction does not fail for want of cycles. -/
theorem Basic.exec_ne_outOfCycles (inst : Instance) (op : Basic) (w : Workspace) (store : Store) :
    op.exec inst w ≠ .failed .outOfCycles store := by
  obtain ⟨locals, operands, s⟩ := w
  simp only [exec]
  repeat' split
  all_goals
    intro h
    cases h

namespace State

variable {inst : Instance} {s : State} {why : Failure} {store : Store}

/-- Leaving a function does not fail. -/
theorem leave_ne_failed (s : State) : s.leave ≠ .failed why store := by
  unfold leave
  dsimp only
  split <;> nofun

/-- A branch does not fail. -/
theorem branch_ne_failed (s : State) (l : Nat) : s.branch l ≠ .failed why store := by
  unfold branch
  split
  · exact s.leave_ne_failed
  · dsimp only
    split <;> nofun

/-- A call does not fail for want of cycles. -/
theorem call_ne_outOfCycles (inst : Instance) (index : Nat) (s : State) :
    s.call inst index ≠ .failed .outOfCycles store := by
  unfold call
  repeat' split
  all_goals
    intro h
    cases h

/-- Nor does an indirect call. -/
theorem callIndirect_ne_outOfCycles (inst : Instance) (table : Nat) (type : FuncType) (s : State) :
    s.callIndirect inst table type ≠ .failed .outOfCycles store := by
  unfold callIndirect
  split
  · split
    · nofun
    · nofun
    · split
      · nofun
      · split
        · exact call_ne_outOfCycles _ _ _
        · nofun
  · nofun

/-- Taking a condition does not, if what goes on with it does not. -/
theorem withCondition_ne_outOfCycles {f : BitVec 32 → State → Step}
    (h : ∀ c t, f c t ≠ .failed .outOfCycles store) :
    s.withCondition f ≠ .failed .outOfCycles store := by
  unfold withCondition
  split
  · exact h _ _
  · nofun

/-- No step fails for want of cycles. Only a run compares them with a budget. -/
theorem step_ne_outOfCycles (inst : Instance) (s : State) (store : Store) :
    s.step inst ≠ .failed .outOfCycles store := by
  -- A step leads to a state or a trap, or is one that the lemmas before are about.
  have hnext : ∀ t, Step.next t ≠ .failed .outOfCycles store := fun t => Step.noConfusion
  have hcheckpoint : ∀ t, Step.checkpoint t ≠ .failed .outOfCycles store := fun t => Step.noConfusion
  have htrap : ∀ cause left, Step.failed (.trap cause) left ≠ .failed .outOfCycles store := by
    intro cause left h
    cases h
  obtain ⟨⟨locals, operands, code, labels, arity⟩, callers, s⟩ := s
  simp only [step]
  split
  · split
    · exact leave_ne_failed _
    · exact hnext _
  · next i rest =>
    split
    · next op =>
      have hexec := op.exec_ne_outOfCycles inst ⟨locals, operands, s.charge op.cost⟩ store
      split
      · exact hnext _
      · next hfailed =>
        rw [hfailed] at hexec
        intro heq
        cases heq
        exact hexec rfl
    · exact htrap _ _
    · exact hnext _
    · exact hcheckpoint _
    · exact withCondition_ne_outOfCycles fun c t => hnext _
    · exact branch_ne_failed _ _
    · refine withCondition_ne_outOfCycles fun c t => ?_
      split
      · exact hnext _
      · exact branch_ne_failed _ _
    · exact withCondition_ne_outOfCycles fun c t => branch_ne_failed _ _
    · exact leave_ne_failed _
    · exact call_ne_outOfCycles _ _ _
    · exact callIndirect_ne_outOfCycles _ _ _ _

/-! ## Runs -/

/-- A run gives no cycles back. -/
theorem consumed_le_run (inst : Instance) (budget : Nat) (s : State) :
    s.store.consumed ≤ (s.run inst budget).2.consumed := by
  induction s using State.run_induction inst budget with
  | goes s t hgoes ih =>
    have hstep := s.consumed_le_step inst
    rw [← hgoes.store_eq] at hstep
    rw [hgoes.visits.run_eq]
    exact Nat.le_trans hstep ih
  | ends s result hends =>
    rw [hends.run_eq, hends.store_eq]
    exact s.consumed_le_step inst

variable {budget budget' : Nat}

/-- A run that is broken off has used up its budget. -/
theorem budget_le_of_outOfCycles (h : (s.run inst budget).1 = .failed .outOfCycles) :
    budget ≤ (s.run inst budget).2.consumed := by
  induction s using State.run_induction inst budget with
  | goes s t hgoes ih =>
    rw [hgoes.visits.run_eq] at h ⊢
    exact ih h
  | ends s result hends =>
    rw [hends.run_eq] at h ⊢
    unfold State.Ends at hends
    cases hstep : s.step inst with
    | next t =>
      rw [hstep] at hends
      exact hends.elim
    | checkpoint t =>
      rw [hstep] at hends
      rw [hends.2]
      exact hends.1
    | done results left =>
      rw [hstep] at hends
      rw [hends] at h
      cases h
    | failed why left =>
      rw [hstep] at hends
      rw [hends] at h
      cases h
      exact absurd hstep (s.step_ne_outOfCycles inst left)

/-- Under a larger budget a run goes the same way, unless it was broken off. -/
theorem run_of_le (hle : budget ≤ budget')
    (hout : (s.run inst budget).1 = .failed .outOfCycles → budget = budget') :
    s.run inst budget' = s.run inst budget := by
  induction s using State.run_induction inst budget with
  | goes s t hgoes ih =>
    -- What is passed with the smaller budget is passed with the larger one.
    have hgoes' : s.GoesTo inst budget' t :=
      hgoes.imp id fun ⟨hstep, hbudget⟩ => ⟨hstep, Nat.lt_of_lt_of_le hbudget hle⟩
    rw [hgoes.visits.run_eq] at hout ⊢
    rw [hgoes'.visits.run_eq, ih hout]
  | ends s result hends =>
    rw [hends.run_eq] at hout ⊢
    refine State.Ends.run_eq ?_
    unfold State.Ends at hends ⊢
    cases hstep : s.step inst with
    | next t =>
      rw [hstep] at hends
      exact hends
    | checkpoint t =>
      rw [hstep] at hends
      have heq : budget = budget' := hout (by rw [hends.2])
      rw [← heq]
      exact hends
    | done results left | failed why left =>
      rw [hstep] at hends
      exact hends

end State

/-! ## Frames -/

/-- A step leads to a state that has no more frames than a run may have, if it leads to a state. -/
def Step.InFrames : Step → Prop
  | .next s | .checkpoint s => s.callers.length < maxFrames
  | .done _ _ | .failed _ _ => True

namespace State

variable {inst : Instance} {s : State}

/-- Leaving a function takes a frame off. -/
theorem leave_inFrames (h : s.callers.length < maxFrames) : s.leave.InFrames := by
  unfold leave
  dsimp only
  split
  · trivial
  · next c rest hcallers =>
    rw [hcallers, List.length_cons] at h
    exact Nat.lt_of_succ_lt h

/-- A branch stays in its function or leaves it. -/
theorem branch_inFrames (l : Nat) (h : s.callers.length < maxFrames) : (s.branch l).InFrames := by
  unfold branch
  split
  · exact leave_inFrames h
  · dsimp only
    split
    · exact h
    · exact h

/-- A call adds a frame only where there is room for it. -/
theorem call_inFrames (index : Nat) (h : s.callers.length < maxFrames) :
    (s.call inst index).InFrames := by
  unfold call
  split
  · split
    · trivial
    · next hroom => exact Nat.not_le.1 hroom
  · split
    · split
      · exact h
      · trivial
    · trivial
  · trivial

/-- An indirect call is a call or fails. -/
theorem callIndirect_inFrames (table : Nat) (type : FuncType) (h : s.callers.length < maxFrames) :
    (s.callIndirect inst table type).InFrames := by
  unfold callIndirect
  split
  · split
    · trivial
    · trivial
    · split
      · trivial
      · split
        · exact call_inFrames _ h
        · trivial
  · trivial

/-- Taking a condition adds no frame. -/
theorem withCondition_inFrames {f : BitVec 32 → State → Step} (h : s.callers.length < maxFrames)
    (hf : ∀ c t, t.callers.length < maxFrames → (f c t).InFrames) :
    (s.withCondition f).InFrames := by
  unfold withCondition
  split
  · exact hf _ _ h
  · trivial

/-- No step leads beyond the frames. -/
theorem step_inFrames (h : s.callers.length < maxFrames) : (s.step inst).InFrames := by
  obtain ⟨⟨locals, operands, code, labels, arity⟩, callers, store⟩ := s
  simp only [step]
  split
  · split
    · exact leave_inFrames h
    · exact h
  · split
    · split
      · exact h
      · trivial
    · trivial
    · exact h
    · exact h
    · exact withCondition_inFrames h fun c t ht => ht
    · exact branch_inFrames _ h
    · refine withCondition_inFrames h fun c t ht => ?_
      split
      · exact ht
      · exact branch_inFrames _ ht
    · exact withCondition_inFrames h fun c t ht => branch_inFrames _ ht
    · exact leave_inFrames h
    · exact call_inFrames _ h
    · exact callIndirect_inFrames _ _ h

/-- Neither does a run. -/
theorem Visits.inFrames {budget : Nat} {t : State} (h : s.callers.length < maxFrames)
    (hvisits : s.Visits inst budget t) : t.callers.length < maxFrames := by
  induction hvisits with
  | start => exact h
  | @next t u hvisits hstep ih =>
    show (Step.next u).InFrames
    rw [← hstep]
    exact step_inFrames ih
  | @checkpoint t u hvisits hstep hbudget ih =>
    show (Step.checkpoint u).InFrames
    rw [← hstep]
    exact step_inFrames ih

end State

/-! ## Calls from outside -/

namespace Activation

variable {a : Activation} {budget budget' : Nat}

/-- At no time has a call from outside entered more functions than it may have frames for. -/
theorem frames_le {s t : State} (hstart : a.start? budget = some s)
    (hvisits : s.Visits a.inst budget t) : t.callers.length + 1 ≤ maxFrames := by
  have hfirst : s.callers.length < maxFrames := by
    unfold start? at hstart
    split at hstart
    · dsimp only at hstart
      split at hstart
      · cases hstart
      · cases hstart
        exact Nat.lt_of_lt_of_le Nat.one_pos (by decide)
    · cases hstart
  exact hvisits.inFrames hfirst

/-- The cycles that a call uses up. -/
def cost (a : Activation) (budget : Nat) : Nat := (a.result budget).2.consumed - a.store.consumed

/-- The ways a call can go. It enters a function and the run starts, or the budget does not last for
that, or no function is entered, whatever the budget. -/
theorem result_cases (a : Activation) :
    (∃ s : State, a.store.consumed ≤ s.store.consumed ∧
      ∀ budget, a.result budget = if budget ≤ s.store.consumed
        then (.failed .outOfCycles, s.store) else s.run a.inst budget) ∨
    ∃ result, (∀ budget, a.result budget = result) ∧ result.1 ≠ .failed .outOfCycles ∧
      result.2.consumed = a.store.consumed := by
  unfold result Instance.invoke
  split
  · next f hf =>
    exact .inl ⟨⟨State.frameOf f a.args.reverse, [], a.store.charge 1⟩, Nat.le_add_right _ _,
      fun _ => rfl⟩
  · refine .inr ⟨_, fun _ => rfl, ?_, ?_⟩
    · split
      · split <;> nofun
      · nofun
    · split
      · next address len _ =>
        rw [Store.debug_eq]
        cases a.store.message? address len with
        | none => rfl
        | some message => rfl
      · rfl
  · exact .inr ⟨_, fun _ => rfl, nofun, rfl⟩

/-- A call gives no cycles back, so its cost adds up with what was used before. -/
theorem consumed_result (a : Activation) (budget : Nat) :
    (a.result budget).2.consumed = a.store.consumed + a.cost budget := by
  have hle : a.store.consumed ≤ (a.result budget).2.consumed := by
    obtain ⟨s, hs, hresult⟩ | ⟨result, hresult, -, hsame⟩ := a.result_cases
    · rw [hresult]
      split
      · exact hs
      · exact Nat.le_trans hs (s.consumed_le_run a.inst budget)
    · rw [hresult]
      exact Nat.le_of_eq hsame.symm
  rw [cost]
  omega

/-- A call that is broken off has used up the budget, together with what was used before. -/
theorem budget_le_of_outOfCycles (h : (a.result budget).1 = .failed .outOfCycles) :
    budget ≤ (a.result budget).2.consumed := by
  obtain ⟨s, -, hresult⟩ | ⟨result, hresult, hnot, -⟩ := a.result_cases
  · rw [hresult] at h ⊢
    split at h
    · next hbudget =>
      rw [if_pos hbudget]
      exact hbudget
    · next hbudget =>
      rw [if_neg hbudget]
      exact State.budget_le_of_outOfCycles h
  · rw [hresult] at h
    exact absurd h hnot

/-- Under a larger budget a call gives the same, unless it was broken off. -/
theorem result_of_le (hle : budget ≤ budget')
    (hout : (a.result budget).1 = .failed .outOfCycles → budget = budget') :
    a.result budget' = a.result budget := by
  obtain ⟨s, -, hresult⟩ | ⟨result, hresult, -, -⟩ := a.result_cases
  · rw [hresult] at hout
    rw [hresult, hresult]
    split at hout
    · next hbudget =>
      rw [← hout rfl]
    · next hbudget =>
      have hbudget' : ¬ budget' ≤ s.store.consumed := by omega
      rw [if_neg hbudget, if_neg hbudget']
      exact State.run_of_le hle hout
  · rw [hresult, hresult]

end Activation

end HashLoader.Wasm
