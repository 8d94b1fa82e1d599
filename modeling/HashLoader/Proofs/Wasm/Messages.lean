import HashLoader.Proofs.Wasm.StoreEffects
import HashLoader.Proofs.Wasm.Trace

/-!
# The messages of a run

`State.path` is the list of the states that a run visits (`mem_path_iff`), in their order, by the
recursion of the run itself. What a run adds to the messages is what these states send
(`messages_run`), if messages are kept: every step adds what it sends, and this is added up along
the path. So it is for a call from outside (`Activation.messages_result`), however the call ends.

Nothing of this comes back to the code. `Store.mute` is the store that keeps no messages and has
none, and a state with it takes the same steps (`step_mute`). So a run on it ends in the same way
and leaves the same store up to the messages (`run_mute`), and so does a call from outside
(`Activation.result_mute`), and so does the making of an instance (`Module.instantiate_mute`).
-/

namespace HashLoader.Wasm

/-! ## The states of a run in order -/

/-- The states that a run goes through, in order. -/
def State.path (inst : Instance) (budget : Nat) (s : State) : List State :=
  match h : s.step inst with
  | .next t =>
    have := State.step_next h
    s :: t.path inst budget
  | .checkpoint t =>
    have := State.step_checkpoint h
    if budget ≤ t.store.consumed then [s] else s :: t.path inst budget
  | .done _ _ | .failed _ _ => [s]
termination_by (budget - s.store.consumed, s.weight)
decreasing_by all_goals (rw [Prod.lex_def]; dsimp only; omega)

section Runs

variable {inst : Instance} {budget : Nat} {s t : State}

/-- One step of the path. -/
theorem State.path_eq_match (inst : Instance) (budget : Nat) (s : State) :
    s.path inst budget = match s.step inst with
      | .next t => s :: t.path inst budget
      | .checkpoint t => if budget ≤ t.store.consumed then [s] else s :: t.path inst budget
      | .done _ _ | .failed _ _ => [s] := by
  rw [State.path]
  split <;> next hstep => simp only [hstep]

/-- A run that goes on from a state goes through it and then through the states from there on. -/
theorem State.GoesTo.path_eq (h : s.GoesTo inst budget t) :
    s.path inst budget = s :: t.path inst budget := by
  rw [State.path_eq_match]
  obtain hstep | ⟨hstep, hbudget⟩ := h
  · rw [hstep]
  · rw [hstep]
    exact if_neg (Nat.not_le.2 hbudget)

/-- A run that is decided at a state goes no further. -/
theorem State.Ends.path_eq {result : Outcome × Store} (h : s.Ends inst budget result) :
    s.path inst budget = [s] := by
  unfold State.Ends at h
  rw [State.path_eq_match]
  cases hstep : s.step inst with
  | next t =>
    rw [hstep] at h
    exact h.elim
  | checkpoint t =>
    rw [hstep] at h
    exact if_pos h.1
  | done results store => rfl
  | failed why store => rfl

/-- The path lists the states that the run visits. -/
theorem State.mem_path_iff : t ∈ s.path inst budget ↔ s.Visits inst budget t := by
  induction s using State.run_induction inst budget with
  | goes s u hgoes ih =>
    rw [hgoes.path_eq, List.mem_cons, ih]
    constructor
    · rintro (rfl | hvisits)
      · exact .start
      · exact hgoes.visits.trans hvisits
    · exact hgoes.eq_or_visits
  | ends s result hends =>
    rw [hends.path_eq, List.mem_singleton]
    constructor
    · rintro rfl
      exact .start
    · exact hends.eq_of_visits

/-- A run does not change whether messages are kept. -/
theorem State.captures_run (inst : Instance) (budget : Nat) (s : State) :
    (s.run inst budget).2.captures = s.store.captures := by
  induction s using State.run_induction inst budget with
  | goes s t hgoes ih => rw [hgoes.visits.run_eq, ih, hgoes.store_eq, s.captures_step]
  | ends s result hends => rw [hends.run_eq, hends.store_eq, s.captures_step]

/-- What a state sends comes before what the others send. -/
theorem State.filterMap_sends_cons (inst : Instance) (s : State) (rest : List State) :
    (s :: rest).filterMap (State.sends? inst)
      = (s.sends? inst).toList ++ rest.filterMap (State.sends? inst) := by
  rw [List.filterMap_cons]
  cases s.sends? inst with
  | none => rfl
  | some message => rfl

/-- What a run adds to the messages is what the states on its path send, if messages are kept. -/
theorem State.messages_run (inst : Instance) (budget : Nat) (s : State) :
    (s.run inst budget).2.messages.toList = s.store.messages.toList
      ++ s.store.captured ((s.path inst budget).filterMap (State.sends? inst)) := by
  induction s using State.run_induction inst budget with
  | goes s t hgoes ih =>
    have hcaptures : t.store.captures = s.store.captures := by rw [hgoes.store_eq, s.captures_step]
    calc (s.run inst budget).2.messages.toList
      _ = t.store.messages.toList
          ++ t.store.captured ((t.path inst budget).filterMap (sends? inst)) := by
        rw [hgoes.visits.run_eq, ih]
      _ = s.store.messages.toList ++ s.store.captured (s.sends? inst).toList
          ++ s.store.captured ((t.path inst budget).filterMap (sends? inst)) := by
        rw [Store.captured_congr hcaptures, hgoes.store_eq, s.messages_step]
      _ = s.store.messages.toList
          ++ s.store.captured ((s.path inst budget).filterMap (sends? inst)) := by
        rw [hgoes.path_eq, filterMap_sends_cons, Store.captured_append, List.append_assoc]
  | ends s result hends =>
    rw [hends.run_eq, hends.store_eq, s.messages_step, hends.path_eq, filterMap_sends_cons,
      List.filterMap_nil, List.append_nil]

end Runs

/-! ## Stores that keep no messages -/

/-- The store that keeps no messages, and without those that it has. -/
def Store.mute (s : Store) : Store := { s with captures := false, messages := #[] }

/-- The effect without messages. -/
def Effect.mute : Effect → Effect
  | ok w => .ok { w with store := w.store.mute }
  | failed why store => .failed why store.mute

/-- The state without messages. -/
def State.mute (s : State) : State := { s with store := s.store.mute }

/-- The step without messages. -/
def Step.mute : Step → Step
  | next s => .next s.mute
  | checkpoint s => .checkpoint s.mute
  | done results store => .done results store.mute
  | failed why store => .failed why store.mute

theorem Store.mute_mapMemory (s : Store) (shared : Bool) (f : Memory → Memory) :
    s.mute.mapMemory shared f = (s.mapMemory shared f).mute := by
  cases shared <;> rfl

/-- A message that is not kept is sent all the same. -/
theorem Store.debug_mute (s : Store) (address len : BitVec 32) :
    s.mute.debug address len = (s.debug address len).map Store.mute := by
  have hmessage : s.mute.message? address len = s.message? address len := rfl
  rw [debug_eq, debug_eq, hmessage]
  cases s.message? address len with
  | none => rfl
  | some message => rfl

/-- A basic instruction does not look at messages. -/
theorem Basic.exec_mute (inst : Instance) (op : Basic) (locals : Array Value) (operands : List Value)
    (store : Store) : op.exec inst ⟨locals, operands, store.mute⟩
      = (op.exec inst ⟨locals, operands, store⟩).mute := by
  have hmemory : ∀ shared, store.mute.memory shared = store.memory shared := fun _ => rfl
  have hglobals : store.mute.globals = store.globals := rfl
  simp only [exec, hmemory, hglobals, Store.mute_mapMemory]
  split <;> try first | rfl | (split <;> rfl)
  split
  · rfl
  · split
    · rfl
    · rfl

namespace State

variable {inst : Instance} {s : State}

theorem leave_mute (s : State) : s.mute.leave = s.leave.mute := by
  unfold leave
  dsimp only [mute]
  split
  · rfl
  · rfl

theorem branch_mute (s : State) (l : Nat) : s.mute.branch l = (s.branch l).mute := by
  unfold branch
  dsimp only [mute]
  split
  · exact s.leave_mute
  · split
    · rfl
    · rfl

theorem call_mute (inst : Instance) (index : Nat) (s : State) :
    s.mute.call inst index = (s.call inst index).mute := by
  unfold call
  split
  · have hcallers : s.mute.callers = s.callers := rfl
    rw [hcallers]
    split
    · rfl
    · rfl
  · dsimp only [mute]
    split
    · next len address rest hoperands =>
      rw [Store.debug_mute]
      cases s.store.debug address len with
      | none => rfl
      | some store => rfl
    · rfl
  · rfl

theorem callIndirect_mute (inst : Instance) (table : Nat) (type : FuncType) (s : State) :
    s.mute.callIndirect inst table type = (s.callIndirect inst table type).mute := by
  have htables : s.mute.store.tables = s.store.tables := rfl
  have hframe : s.mute.frame = s.frame := rfl
  unfold callIndirect
  rw [htables, hframe]
  split
  · next entry rest entries _ _ =>
    split
    · rfl
    · rfl
    · next index _ =>
      split
      · rfl
      · split
        · exact call_mute inst index { s with frame := { s.frame with operands := rest } }
        · rfl
  · rfl

theorem withCondition_mute {f : BitVec 32 → State → Step} (h : ∀ c t, f c t.mute = (f c t).mute) :
    s.mute.withCondition f = (s.withCondition f).mute := by
  have hframe : s.mute.frame = s.frame := rfl
  unfold withCondition
  rw [hframe]
  split
  · next c rest _ => exact h c { s with frame := { s.frame with operands := rest } }
  · rfl

/-- A step does not look at messages: what it does is the same without them. -/
theorem step_mute (inst : Instance) (s : State) : s.mute.step inst = (s.step inst).mute := by
  obtain ⟨⟨locals, operands, code, labels, arity⟩, callers, store⟩ := s
  have hcharge : ∀ cycles, store.mute.charge cycles = (store.charge cycles).mute := fun _ => rfl
  simp only [mute, step, hcharge]
  split
  · split
    · exact leave_mute ⟨⟨locals, operands, [], [], arity⟩, callers, store⟩
    · rfl
  · next i rest =>
    split
    · next op =>
      rw [Basic.exec_mute]
      cases op.exec inst ⟨locals, operands, store.charge op.cost⟩ with
      | ok w => rfl
      | failed why left => rfl
    · rfl
    · rfl
    · rfl
    · refine withCondition_mute (s := ⟨_, _, _⟩) fun c t => ?_
      rfl
    · exact branch_mute ⟨_, _, _⟩ _
    · refine withCondition_mute (s := ⟨_, _, _⟩) fun c t => ?_
      split
      · rfl
      · exact branch_mute t _
    · refine withCondition_mute (s := ⟨_, _, _⟩) fun c t => ?_
      exact branch_mute t _
    · exact leave_mute ⟨_, _, _⟩
    · exact call_mute inst _ ⟨_, _, _⟩
    · exact callIndirect_mute inst _ _ ⟨_, _, _⟩

/-- Without messages a run goes on as it does with them. -/
theorem GoesTo.mute {budget : Nat} {t : State} (h : s.GoesTo inst budget t) :
    s.mute.GoesTo inst budget t.mute := by
  obtain hstep | ⟨hstep, hbudget⟩ := h
  · exact .inl (by rw [step_mute, hstep]; rfl)
  · exact .inr ⟨by rw [step_mute, hstep]; rfl, hbudget⟩

/-- Without messages a run is decided as it is with them. -/
theorem Ends.mute {budget : Nat} {result : Outcome × Store} (h : s.Ends inst budget result) :
    s.mute.Ends inst budget (result.1, result.2.mute) := by
  unfold Ends at h ⊢
  rw [step_mute]
  cases hstep : s.step inst with
  | next t =>
    rw [hstep] at h
    exact h.elim
  | checkpoint t =>
    rw [hstep] at h
    obtain ⟨hbudget, rfl⟩ := h
    exact ⟨hbudget, rfl⟩
  | done results store | failed why store =>
    rw [hstep] at h
    obtain rfl := h
    rfl

/-- A run without messages ends in the same way and leaves the same but for them. -/
theorem run_mute (inst : Instance) (budget : Nat) (s : State) :
    s.mute.run inst budget = ((s.run inst budget).1, (s.run inst budget).2.mute) := by
  induction s using State.run_induction inst budget with
  | goes s t hgoes ih => rw [hgoes.mute.visits.run_eq, hgoes.visits.run_eq, ih]
  | ends s result hends => rw [hends.mute.run_eq, hends.run_eq]

end State

/-! ## Calls from outside -/

namespace Activation

variable {a : Activation} {budget : Nat}

/-- The messages that a call sends, in order: those that the states on the path of its run send, if
it enters a function. -/
def sent (a : Activation) (budget : Nat) : List String :=
  match a.start? budget with
  | some s => (s.path a.inst budget).filterMap (State.sends? a.inst)
  | none =>
    match a.inst.functions[a.index]?, a.args with
    | some .debug, [.i32 address, .i32 len] => (a.store.message? address len).toList
    | _, _ => []

/-- A call does not change whether messages are kept. -/
theorem captures_result (a : Activation) (budget : Nat) :
    (a.result budget).2.captures = a.store.captures := by
  cases hstart : a.start? budget with
  | some s =>
    rw [result_of_start hstart, State.captures_run, store_of_start hstart]
    rfl
  | none =>
    -- A call that is not started has failed for want of cycles, or is of no function of the module.
    cases hcallee : a.inst.functions[a.index]? with
    | none =>
      unfold result Instance.invoke
      rw [hcallee]
    | some c =>
      cases c with
      | code f =>
        rw [result_of_unpaid hcallee hstart]
        rfl
      | debug =>
        unfold result Instance.invoke
        rw [hcallee]
        dsimp only
        split
        · next address len _ =>
          rw [Store.debug_eq]
          cases a.store.message? address len with
          | none => rfl
          | some message => rfl
        · rfl

/-- A call puts the messages that it sends behind the others if messages are kept, also if it fails.
-/
theorem messages_result (a : Activation) (budget : Nat) :
    (a.result budget).2.messages.toList
      = a.store.messages.toList ++ a.store.captured (a.sent budget) := by
  have hnothing : a.store.messages.toList = a.store.messages.toList ++ a.store.captured [] := by
    rw [Store.captured_nil, List.append_nil]
  unfold sent
  split
  · next s hstart =>
    rw [result_of_start hstart, State.messages_run, store_of_start hstart]
    rfl
  · next hnone =>
    -- Without a start nothing is sent, unless the function called is the one that sends.
    cases hcallee : a.inst.functions[a.index]? with
    | none =>
      unfold result Instance.invoke
      rw [hcallee]
      exact hnothing
    | some c =>
      cases c with
      | code f =>
        rw [result_of_unpaid hcallee hnone]
        exact hnothing
      | debug =>
        unfold result Instance.invoke
        rw [hcallee]
        dsimp only
        split
        · next address len hargs =>
          rw [Store.debug_eq, hargs]
          dsimp only
          cases a.store.message? address len with
          | none => exact hnothing
          | some message => exact a.store.messages_record message
        · next hshape =>
          split
          · next address len _ hargs => exact (hshape _ _ hargs).elim
          · exact hnothing

/-- The call without messages. -/
def mute (a : Activation) : Activation := { a with store := a.store.mute }

/-- Without messages a call starts as it does with them. -/
theorem start?_mute (a : Activation) (budget : Nat) :
    a.mute.start? budget = (a.start? budget).map State.mute := by
  have hconsumed : (a.store.mute.charge 1).consumed = (a.store.charge 1).consumed := rfl
  unfold start?
  dsimp only [mute]
  rw [hconsumed]
  split
  · split
    · rfl
    · rfl
  · rfl

/-- Without messages a call gives the same and leaves the same but for them. -/
theorem result_mute (a : Activation) (budget : Nat) :
    a.mute.result budget = ((a.result budget).1, (a.result budget).2.mute) := by
  cases hstart : a.start? budget with
  | some s =>
    have hstart' : a.mute.start? budget = some s.mute := by rw [start?_mute, hstart, Option.map_some]
    rw [result_of_start hstart, result_of_start hstart']
    exact s.run_mute a.inst budget
  | none =>
    -- No function is entered: the budget does not last, or it is the host that is called.
    have hnone : a.mute.start? budget = none := by rw [start?_mute, hstart, Option.map_none]
    cases hcallee : a.inst.functions[a.index]? with
    | none =>
      have hcallee' : a.mute.inst.functions[a.mute.index]? = none := hcallee
      unfold result Instance.invoke
      rw [hcallee, hcallee']
      rfl
    | some c =>
      have hcallee' : a.mute.inst.functions[a.mute.index]? = some c := hcallee
      cases c with
      | code f =>
        rw [result_of_unpaid hcallee hstart, result_of_unpaid hcallee' hnone]
        rfl
      | debug =>
        have hargs : a.mute.args = a.args := rfl
        have hstore : a.mute.store = a.store.mute := rfl
        unfold result Instance.invoke
        rw [hcallee, hcallee', hargs, hstore]
        dsimp only
        split
        · next address len _ =>
          rw [Store.debug_mute]
          cases a.store.debug address len with
          | none => rfl
          | some store => rfl
        · rfl

end Activation

/-! ## Instances -/

namespace Module

/-- Writing the segments does not look at messages. -/
theorem initializedStore_mute (m : Module) (s : Store) :
    m.initializedStore s.mute = (m.initializedStore s).map Store.mute := by
  have helement : ∀ e (s : Store),
      Store.putElements s.mute e = (Store.putElements s e).map Store.mute := by
    intro e s
    unfold Store.putElements
    have htables : s.mute.tables = s.tables := rfl
    have hglobals : s.mute.globals = s.globals := rfl
    rw [htables, hglobals]
    split
    · rfl
    · rfl
  have hdata : ∀ d (s : Store), Store.putData m.importsMemory s.mute d
      = (Store.putData m.importsMemory s d).map Store.mute := by
    intro d s
    have hmemory : s.mute.memory m.importsMemory = s.memory m.importsMemory := rfl
    have hglobals : s.mute.globals = s.globals := rfl
    simp only [Store.putData, hmemory, hglobals, Store.mute_mapMemory]
    split
    · rfl
    · rfl
  -- Both loops write one segment at a time, so it is enough that each write does not look.
  have hinitial : m.initialStore s.mute = (m.initialStore s).mute := rfl
  unfold initializedStore
  rw [hinitial, foldlM_map_ok helement]
  cases m.elements.foldlM Store.putElements (m.initialStore s) with
  | error cause => rfl
  | ok filled => exact foldlM_map_ok hdata _ _

/-- Without messages an instance is made as it is with them. -/
theorem instantiate_mute (m : Module) (budget : Nat) (s : Store) :
    m.instantiate budget s.mute
      = ((m.instantiate budget s).1, (m.instantiate budget s).2.mute) := by
  unfold instantiate
  rw [initializedStore_mute]
  cases m.initializedStore s with
  | error cause => rfl
  | ok filled =>
    rw [Except.map]
    dsimp only
    cases m.start with
    | none => rfl
    | some index =>
      have hresult := Activation.result_mute ⟨m.toInstance, index, [], filled⟩ budget
      unfold Activation.result Activation.mute at hresult
      dsimp only at hresult ⊢
      rw [hresult]
      rcases m.toInstance.invoke budget index [] filled with ⟨outcome, left⟩
      cases outcome with
      | finished results => rfl
      | failed why => rfl

end Module

end HashLoader.Wasm
