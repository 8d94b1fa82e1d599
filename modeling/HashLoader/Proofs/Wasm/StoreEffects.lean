import HashLoader.Proofs.Wasm.Provenance

/-!
# What a step does to the store

A step does one of three things to the store: it uses up cycles and nothing else, or it lets a basic
instruction work on it, or it sends a message. `State.Leaves` says so, with what each of them
leaves, and `step_leaves` that there is nothing else. Which message a step sends is told by
`State.sends?` from what the next instruction calls, without running it.

Facts that a run needs of every step follow by cases: no step gives cycles back
(`consumed_le_step`), a step puts the message that it sends behind the others and leaves these alone
(`messages_step`), and it keeps the bytes of the shared memory that it does not store into
(`step_keeps`).
-/

namespace HashLoader.Wasm

/-- The message of `len` bytes at an address of the shared memory. What is longer than the longest
message is cut, and what is left has to lie inside the memory. -/
def Store.message? (s : Store) (address len : BitVec 32) : Option String :=
  (s.shared.read address.toNat (min len.toNat maxMessage)).map Utf8.lossy

/-- Those of some messages that are kept: all or none. -/
def Store.captured (s : Store) (sent : List String) : List String := if s.captures then sent else []

@[simp]
theorem Store.captured_nil (s : Store) : s.captured [] = [] := ite_self []

theorem Store.captured_append (s : Store) (front back : List String) :
    s.captured (front ++ back) = s.captured front ++ s.captured back := by
  unfold captured
  split
  · rfl
  · rfl

theorem Store.captured_congr {s t : Store} (h : t.captures = s.captures) (sent : List String) :
    t.captured sent = s.captured sent := by
  unfold captured
  rw [h]

/-- A message is put behind the others if messages are kept. -/
theorem Store.messages_record (s : Store) (message : String) :
    (s.record message).messages.toList = s.messages.toList ++ s.captured [message] := by
  have hmessages : (s.record message).messages
      = if s.captures then s.messages.push message else s.messages := rfl
  rw [hmessages, captured]
  split
  · exact Array.toList_push
  · exact (List.append_nil _).symm

/-- A message is sent if there is one. -/
theorem Store.debug_eq (s : Store) (address len : BitVec 32) :
    s.debug address len = (s.message? address len).map s.record := by
  rw [debug, message?, Option.map_map]
  rfl

/-- The message that a call sends, given the operands that it finds. -/
def Callee.sends? (c : Callee) (operands : List Value) (store : Store) : Option String :=
  match c, operands with
  | debug, .i32 len :: .i32 address :: _ => store.message? address len
  | _, _ => none

/-- The store that a basic instruction leaves. -/
def Effect.store : Effect → Store
  | ok w => w.store
  | failed _ store => store

/-- Basic instructions use up no cycles themselves and send no messages. -/
theorem Basic.exec_leaves (inst : Instance) (op : Basic) (w : Workspace) :
    w.store.Idle (op.exec inst w).store := by
  obtain ⟨locals, operands, store⟩ := w
  have hsame : store.Idle store := ⟨rfl, rfl, rfl⟩
  have hmemory : ∀ shared f, store.Idle (store.mapMemory shared f) := fun shared f =>
    ⟨store.consumed_mapMemory shared f, store.captures_mapMemory shared f,
      store.messages_mapMemory shared f⟩
  simp only [exec]
  -- Only two instructions change a memory.
  split <;> try first | exact hsame | exact ⟨rfl, rfl, rfl⟩ | (split <;> exact hsame)
  · split
    · exact hsame
    split
    · exact hmemory _ _
    · exact hsame
  · split
    · exact hmemory _ _
    · exact hsame

namespace State

variable {inst : Instance} {s : State}

/-- What the next instruction calls, and the operands that the callee finds, if it is a call that
gets so far. -/
def callee? (inst : Instance) (s : State) : Option (Callee × List Value) :=
  match s.frame.code with
  | .call index :: _ => (inst.functions[index]?).map fun c => (c, s.frame.operands)
  | .callIndirect table type :: _ =>
    match s.frame.operands with
    | .i32 entry :: rest =>
      match (s.store.tables[table]?).bind fun t => t.get? entry.toNat with
      | some (some index) =>
        ((inst.functions[index]?).filter fun c => c.type = type).map fun c => (c, rest)
      | _ => none
    | _ => none
  | _ => none

/-- The message that the next instruction sends. -/
def sends? (inst : Instance) (s : State) : Option String :=
  (s.callee? inst).bind fun (c, operands) => c.sends? operands s.store

/-- What a step leaves of the store. -/
inductive Leaves (inst : Instance) (s : State) : Store → Prop
  /-- Cycles were used up. -/
  | paid (cycles : Nat) : s.sends? inst = none → Leaves inst s (s.store.charge cycles)
  /-- A basic instruction worked on what was paid for. -/
  | worked {op : Basic} {rest : Code} : s.frame.code = .basic op :: rest →
      Leaves inst s
        (op.exec inst ⟨s.frame.locals, s.frame.operands, s.store.charge op.cost⟩).store
  /-- A message was sent. -/
  | sent {message : String} : s.sends? inst = some message →
      Leaves inst s ((s.store.charge 1).record message)

/-- Leaving a function leaves the store alone. -/
theorem store_leave (s : State) : s.leave.store = s.store := by
  unfold leave
  dsimp only
  split
  · rfl
  · rfl

/-- A branch leaves the store alone. -/
theorem store_branch (s : State) (l : Nat) : (s.branch l).store = s.store := by
  unfold branch
  split
  · exact s.store_leave
  · dsimp only
    split
    · rfl
    · rfl

/-- Taking a condition leaves the store alone if what goes on with it does. -/
theorem store_withCondition {f : BitVec 32 → State → Step}
    (h : ∀ c t, (f c t).store = t.store) : (s.withCondition f).store = s.store := by
  unfold withCondition
  split
  · exact h _ _
  · rfl

/-- A call pays for entering a function, or sends the message that is meant. -/
theorem call_store (inst : Instance) (index : Nat) (s : State) :
    (∃ cycles, (s.call inst index).store = s.store.charge cycles ∧
      (inst.functions[index]?).bind (·.sends? s.frame.operands s.store) = none) ∨
    ∃ message, (s.call inst index).store = s.store.record message ∧
      (inst.functions[index]?).bind (·.sends? s.frame.operands s.store) = some message := by
  unfold call
  split
  · next f hf =>
    rw [hf]
    split
    · exact .inl ⟨0, rfl, rfl⟩
    · exact .inl ⟨1, rfl, rfl⟩
  · next hdebug =>
    rw [hdebug]
    split
    · next len address rest hoperands =>
      rw [hoperands, Store.debug_eq]
      cases hmessage : s.store.message? address len with
      | none => exact .inl ⟨0, rfl, hmessage⟩
      | some message => exact .inr ⟨message, rfl, hmessage⟩
    · next hoperands =>
      refine .inl ⟨0, rfl, ?_⟩
      rw [Option.bind_some, Callee.sends?]
      exact fun len address rest _ hshape => hoperands len address rest hshape
  · next hnone =>
    rw [hnone]
    exact .inl ⟨0, rfl, rfl⟩

/-- What was paid before a call and what the call pays add up. -/
theorem leaves_of_call {s s' : State} {index : Nat} (hpaid : s'.store = s.store.charge 1)
    (hsends : s.sends? inst = (inst.functions[index]?).bind (·.sends? s'.frame.operands s'.store)) :
    s.Leaves inst (s'.call inst index).store := by
  obtain ⟨cycles, hstore, hnone⟩ | ⟨message, hstore, hsome⟩ := call_store inst index s'
  · have hsum : (s.store.charge 1).charge cycles = s.store.charge (1 + cycles) := by
      rw [Store.charge, Store.charge, Store.charge, Nat.add_assoc]
    rw [hstore, hpaid, hsum]
    exact .paid _ (hsends.trans hnone)
  · rw [hstore, hpaid]
    exact .sent (hsends.trans hsome)

/-- An indirect call is a call if it gets to a callee. It is paid for in any case. -/
theorem leaves_of_callIndirect {s s' : State} {table : Nat} {type : FuncType} {rest : Code}
    (hcode : s.frame.code = .callIndirect table type :: rest)
    (hoperands : s'.frame.operands = s.frame.operands) (hpaid : s'.store = s.store.charge 1) :
    s.Leaves inst (s'.callIndirect inst table type).store := by
  have htables : s'.store.tables = s.store.tables := by
    rw [hpaid]
    rfl
  -- Where there is no callee, the step only pays.
  have hnothing : s.callee? inst = none → s.Leaves inst s'.store := by
    intro hnone
    rw [hpaid]
    exact .paid 1 (by rw [sends?, hnone, Option.bind_none])
  simp only [callee?, hcode, ← hoperands, ← htables] at hnothing
  unfold callIndirect
  split
  · next entry operands entries hoperands' htable =>
    simp only [hoperands', htable, Option.bind_some] at hnothing
    split
    · next hentry => exact hnothing (by rw [hentry])
    · next hentry => exact hnothing (by rw [hentry])
    · next index hentry =>
      split
      · next hindex => exact hnothing (by rw [hentry]; simp only [hindex]; rfl)
      · next c hindex =>
        split
        · next htype =>
          -- A callee of the right type: the step is the call.
          refine leaves_of_call hpaid ?_
          have hcallee : s.callee? inst = some (c, operands) := by
            simp [callee?, hcode, ← hoperands, ← htables, hoperands', htable, hentry, hindex, htype]
          rw [sends?, hcallee, hindex, hpaid]
          rfl
        · next htype => exact hnothing (by simp [hentry, hindex, htype])
  · next hshape =>
    refine hnothing ?_
    split
    · next entry operands hoperands' =>
      cases htable : s'.store.tables[table]? with
      | none => rfl
      | some entries => exact (hshape _ _ _ hoperands' htable).elim
    · rfl

/-- Every step leaves the store in one of these ways. -/
theorem step_leaves (inst : Instance) (s : State) : s.Leaves inst (s.step inst).store := by
  obtain ⟨⟨locals, operands, code, labels, arity⟩, callers, store⟩ := s
  simp only [step]
  split
  · split
    · rw [store_leave]
      exact .paid 0 rfl
    · exact .paid 0 rfl
  · next i rest =>
    split
    · next op =>
      -- A basic instruction works on the store, also where it fails.
      have hworked : Leaves inst ⟨⟨locals, operands, .basic op :: rest, labels, arity⟩, callers, store⟩
          (op.exec inst ⟨locals, operands, store.charge op.cost⟩).store := .worked rfl
      split
      · next hw =>
        rw [hw] at hworked
        exact hworked
      · next hw =>
        rw [hw] at hworked
        exact hworked
    · exact .paid 0 rfl
    -- No other instruction does more to the store than to be paid for, but for calls.
    · exact .paid 0 rfl
    · exact .paid 0 rfl
    · rw [store_withCondition fun c t => rfl]
      exact .paid 1 rfl
    · rw [store_branch]
      exact .paid 1 rfl
    · rw [store_withCondition]
      · exact .paid 1 rfl
      · intro c t
        split
        · rfl
        · exact store_branch _ _
    · rw [store_withCondition fun c t => store_branch _ _]
      exact .paid 1 rfl
    · rw [store_leave]
      exact .paid 0 rfl
    · next index =>
      refine leaves_of_call rfl ?_
      simp only [sends?, callee?]
      cases inst.functions[index]? with
      | none => rfl
      | some c => rfl
    · exact leaves_of_callIndirect rfl rfl rfl

/-- What is left is never fewer cycles. -/
theorem Leaves.consumed_le {left : Store} (h : s.Leaves inst left) :
    s.store.consumed ≤ left.consumed := by
  cases h with
  | paid cycles => exact Nat.le_add_right _ _
  | @worked op rest =>
    rw [(op.exec_leaves inst _).consumed]
    exact Nat.le_add_right _ _
  | sent => exact Nat.le_add_right _ _

/-- What is left keeps messages or not, as before. -/
theorem Leaves.captures_eq {left : Store} (h : s.Leaves inst left) :
    left.captures = s.store.captures := by
  cases h with
  | paid cycles => rfl
  | @worked op rest => exact (op.exec_leaves inst _).captures
  | sent => rfl

/-- What is left are the messages that there were, and behind them the one that is sent, if messages
are kept. -/
theorem Leaves.messages_eq {left : Store} (h : s.Leaves inst left) :
    left.messages.toList = s.store.messages.toList ++ s.store.captured (s.sends? inst).toList := by
  cases h with
  | paid cycles hnone =>
    rw [hnone, Option.toList_none, Store.captured_nil, List.append_nil]
    rfl
  | @worked op rest hcode =>
    have hnone : s.sends? inst = none := by rw [sends?, callee?, hcode, Option.bind_none]
    rw [(op.exec_leaves inst _).messages, hnone, Option.toList_none, Store.captured_nil,
      List.append_nil]
    rfl
  | sent hsome =>
    rw [hsome, Option.toList_some]
    exact (s.store.charge 1).messages_record _

/-- No step gives cycles back. -/
theorem consumed_le_step (inst : Instance) (s : State) :
    s.store.consumed ≤ (s.step inst).store.consumed :=
  (s.step_leaves inst).consumed_le

/-- No step changes whether messages are kept. -/
theorem captures_step (inst : Instance) (s : State) :
    (s.step inst).store.captures = s.store.captures :=
  (s.step_leaves inst).captures_eq

/-- A step puts the message that it sends behind the others, if messages are kept. -/
theorem messages_step (inst : Instance) (s : State) :
    (s.step inst).store.messages.toList
      = s.store.messages.toList ++ s.store.captured (s.sends? inst).toList :=
  (s.step_leaves inst).messages_eq

end State

end HashLoader.Wasm
