import HashLoader.Wasm.Machine

/-!
# Runs

A run takes steps until the code is done, fails, or has used up its budget. `State.weight` is the
size of the code that is left; `step_descends` says that every step makes it smaller, or leads to
a checkpoint with more cycles consumed than before. Together with the check of the budget that is
why every run ends.
-/

namespace HashLoader.Wasm

/-- The size of what runs after a construct, and of leaving it. -/
def Label.weight (l : Label) : Nat := 1 + Code.weight l.next

/-- The size of what is left of a function, and of leaving it. -/
def Frame.weight (f : Frame) : Nat :=
  1 + Code.weight f.code + f.labels.foldr (fun l n => l.weight + n) 0

/-- The size of all code that is left. -/
def State.weight (s : State) : Nat := s.frame.weight + s.callers.foldr (fun f n => f.weight + n) 0

/-- A step from `s` goes down: it shortens the code that is left, or reaches a checkpoint with more
cycles consumed. -/
def Step.Descends (s : State) : Step → Prop
  | .next t => s.store.consumed ≤ t.store.consumed ∧ t.weight < s.weight
  | .checkpoint t => s.store.consumed < t.store.consumed ∨
      s.store.consumed = t.store.consumed ∧ t.weight < s.weight
  | .done _ _ | .failed _ _ => True

theorem Step.Descends.of_le {s s' : State} {x : Step} (hc : s.store.consumed ≤ s'.store.consumed)
    (hw : s'.weight ≤ s.weight) (h : x.Descends s') : x.Descends s := by
  cases x with
  | next t => exact ⟨by have := h.1; omega, by have := h.2; omega⟩
  | checkpoint t =>
    simp only [Step.Descends] at h ⊢
    omega
  | done => trivial
  | failed => trivial

theorem Instr.weight_pos (i : Instr) : 0 < i.weight := by
  cases i <;> simp only [Instr.weight] <;> omega

@[simp]
theorem Store.consumed_mapMemory (s : Store) (shared : Bool) (f : Memory → Memory) :
    (s.mapMemory shared f).consumed = s.consumed := by
  cases shared <;> rfl

@[simp]
theorem Store.consumed_setGlobal (s : Store) (index : Nat) (v : Value) :
    (s.setGlobal index v).consumed = s.consumed := rfl

/-- Basic instructions are paid for before they run. -/
theorem Basic.consumed_exec {inst : Instance} {op : Basic} {w w' : Workspace}
    (h : op.exec inst w = .ok w') : w'.store.consumed = w.store.consumed := by
  obtain ⟨locals, operands, s⟩ := w
  -- Whatever the instruction does, the store it leaves is the one it got, up to a change of a
  -- memory or of a global variable.
  simp only [exec] at h
  repeat' split at h
  all_goals cases h
  all_goals simp

namespace State

theorem leave_descends (s : State) : s.leave.Descends s := by
  unfold leave
  split
  · trivial
  · next c rest h =>
    refine ⟨Nat.le_refl _, ?_⟩
    simp only [State.weight, Frame.weight, h, List.foldr_cons]
    omega

theorem weight_drop_le (l : List Label) (n : Nat) :
    (l.drop n).foldr (fun l n => l.weight + n) 0 ≤ l.foldr (fun l n => l.weight + n) 0 := by
  induction l generalizing n with
  | nil => simp
  | cons a rest ih =>
    cases n with
    | zero => simp
    | succ n =>
      have := ih n
      simp only [List.drop_succ_cons, List.foldr_cons]
      omega

theorem branch_descends {s s' : State} (l : Nat) (hc : s.store.consumed < s'.store.consumed)
    (hw : s'.weight ≤ s.weight) : (s'.branch l).Descends s := by
  unfold branch
  split
  · exact (leave_descends s').of_le (Nat.le_of_lt hc) hw
  · next label outer h =>
    have hsum := weight_drop_le s'.frame.labels l
    rw [h] at hsum
    simp only [List.foldr_cons] at hsum
    split
    · exact .inl hc
    · refine ⟨Nat.le_of_lt hc, Nat.lt_of_lt_of_le ?_ hw⟩
      simp only [State.weight, Frame.weight, Label.weight] at *
      omega

theorem call_descends (inst : Instance) (f : Nat) {s s' : State}
    (hc : s.store.consumed < s'.store.consumed) (hw : s'.weight < s.weight) :
    (s'.call inst f).Descends s := by
  unfold call
  split
  · split
    · trivial
    · exact .inl (Nat.lt_of_lt_of_le hc (Nat.le_add_right _ _))
  · split
    · next len address rest _ =>
      split
      · next store h =>
        obtain ⟨b, -, rfl⟩ := Option.map_eq_some_iff.1 h
        exact ⟨Nat.le_of_lt hc, hw⟩
      · trivial
    · trivial
  · trivial

theorem callIndirect_descends (inst : Instance) (table : Nat) (t : FuncType) {s s' : State}
    (hc : s.store.consumed < s'.store.consumed) (hw : s'.weight < s.weight) :
    (s'.callIndirect inst table t).Descends s := by
  unfold callIndirect
  split
  · split
    · trivial
    · trivial
    · split
      · trivial
      · split
        · exact call_descends inst _ hc hw
        · trivial
  · trivial

theorem withCondition_descends {s s' : State} {f : BitVec 32 → State → Step}
    (h : ∀ c t, t.store = s'.store → t.frame.code = s'.frame.code → t.weight = s'.weight →
      (f c t).Descends s) :
    (s'.withCondition f).Descends s := by
  unfold withCondition
  split
  · exact h _ _ rfl rfl rfl
  · trivial

theorem weight_enter (s : State) (params arity : Nat) (again : Option Code) (body : Code) :
    (s.enter params arity again body).weight = s.weight + Code.weight body + 1 := by
  simp only [enter, State.weight, Frame.weight, List.foldr_cons, Label.weight]
  omega

theorem step_descends (inst : Instance) (s : State) : (s.step inst).Descends s := by
  obtain ⟨⟨locals, operands, code, labels, arity⟩, callers, store⟩ := s
  simp only [step]
  split
  -- No code is left in the innermost construct, so it or the function is left.
  · split
    · exact leave_descends _
    · next label outer =>
      refine ⟨Nat.le_refl _, ?_⟩
      simp only [State.weight, Frame.weight, Label.weight, List.foldr_cons,
        Code.weight]
      omega
  -- What is left after an instruction is smaller by the weight of the instruction.
  · next i rest =>
    have hhere : (⟨⟨locals, operands, rest, labels, arity⟩, callers, store⟩ : State).weight
        + i.weight = (⟨⟨locals, operands, i :: rest, labels, arity⟩, callers, store⟩ : State).weight
        := by
      simp only [State.weight, Frame.weight, Code.weight]
      omega
    have hpaid : (⟨⟨locals, operands, rest, labels, arity⟩, callers, store.charge 1⟩ : State).weight
        = (⟨⟨locals, operands, rest, labels, arity⟩, callers, store⟩ : State).weight := rfl
    have hpos := i.weight_pos
    have hc : store.consumed < (store.charge 1).consumed := Nat.lt_succ_self _
    split
    -- Basic instructions.
    · next op =>
      split
      · next w hw =>
        have hstore := Basic.consumed_exec hw
        refine ⟨by rw [hstore]; exact Nat.le_add_right _ _, ?_⟩
        simp only [State.weight, Frame.weight] at hhere ⊢
        omega
      · trivial
    · trivial
    -- Entering a construct puts its body in the place of the instruction. A loop costs nothing, but
    -- its body is smaller than the loop.
    · next t body =>
      refine ⟨Nat.le_refl _, ?_⟩
      rw [weight_enter]
      simp only [Instr.weight] at hhere
      omega
    · next t body =>
      refine .inr ⟨rfl, ?_⟩
      rw [weight_enter]
      simp only [Instr.weight] at hhere
      omega
    · next t yes no =>
      refine withCondition_descends fun c u hstore hnext hweight => ?_
      have hbody : Code.weight (if c = 0 then no else yes) ≤ Code.weight yes + Code.weight no := by
        split <;> omega
      refine ⟨by simp only [enter, hstore]; omega, ?_⟩
      rw [weight_enter]
      simp only [Instr.weight] at hhere
      omega
    -- Branches and calls are paid for.
    · exact branch_descends _ hc (by omega)
    · refine withCondition_descends fun c u hstore hnext hweight => ?_
      split
      · exact ⟨by rw [hstore]; exact Nat.le_of_lt hc, by omega⟩
      · exact branch_descends _ (by rw [hstore]; exact hc) (by omega)
    · refine withCondition_descends fun c u hstore hnext hweight => ?_
      exact branch_descends _ (by rw [hstore]; exact hc) (by omega)
    · exact (leave_descends _).of_le (Nat.le_refl _) (by omega)
    · exact call_descends inst _ hc (by omega)
    · exact callIndirect_descends inst _ _ hc (by omega)

end State

/-- How a run ends. -/
inductive Outcome
  | finished (results : List Value)
  | failed (why : Failure)
deriving DecidableEq, Repr

theorem State.step_next {inst : Instance} {s t : State} (h : s.step inst = .next t) :
    s.store.consumed ≤ t.store.consumed ∧ t.weight < s.weight := by
  have hd := s.step_descends inst
  rwa [h] at hd

theorem State.step_checkpoint {inst : Instance} {s t : State} (h : s.step inst = .checkpoint t) :
    s.store.consumed < t.store.consumed ∨
      s.store.consumed = t.store.consumed ∧ t.weight < s.weight := by
  have hd := s.step_descends inst
  rwa [h] at hd

/-- Runs until the code is done, fails, or is at a checkpoint with the budget used up. -/
def State.run (inst : Instance) (budget : Nat) (s : State) : Outcome × Store :=
  match h : s.step inst with
  | .next t =>
    have := State.step_next h
    t.run inst budget
  | .checkpoint t =>
    have := State.step_checkpoint h
    if budget ≤ t.store.consumed then (.failed .outOfCycles, t.store) else t.run inst budget
  | .done results store => (.finished results, store)
  | .failed why store => (.failed why, store)
termination_by (budget - s.store.consumed, s.weight)
decreasing_by all_goals (rw [Prod.lex_def]; dsimp only; omega)

/-- Calls a function from outside, first argument first. -/
def Instance.invoke (inst : Instance) (budget index : Nat) (args : List Value) (store : Store) :
    Outcome × Store :=
  match inst.functions[index]? with
  | some (.code f) =>
    let store := store.charge 1
    if budget ≤ store.consumed then (.failed .outOfCycles, store)
    else State.run inst budget ⟨State.frameOf f args.reverse, [], store⟩
  | some .debug =>
    match args with
    | [.i32 address, .i32 len] =>
      match store.debug address len with
      | some store => (.finished [], store)
      | none => (.failed .messageOutOfBounds, store)
    | _ => (.failed .stuck, store)
  | none => (.failed .stuck, store)

end HashLoader.Wasm
