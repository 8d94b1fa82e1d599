import HashLoader.Proofs.Wasm.Messages

/-!
# Calls that send a message

Code sends a message by a call with an address and a length, two words that are read without a sign.
`Store.debug_cases` says what the callee does for all of them: as many bytes as the length says, but
no more than the longest message, have to lie inside the memory, and then their text is recorded,
behind the other messages if they are kept. `State.sends? inst` found the message for a step; here
`State.debug?` finds the words themselves, and `step_of_debug` what the step does with them.

In a run, `Activation.Debugs` is a call that sends a message. A message is there from then on
(`Debugs.messages_result`), and a call that fails ends the run with the messages from before
(`Debugs.result_of_outside`).
-/

namespace HashLoader.Wasm

/-! ## The callee -/

/-- How many bytes of a message are kept. -/
def keptLen (len : Int32) : Nat := min len.toUInt32.toNat maxMessage

namespace Store

variable {s : Store} {ptr len : Int32}

/-- The kept bytes of a message lie inside the memory. -/
def Holds (s : Store) (ptr len : Int32) : Prop := ptr.toUInt32.toNat + keptLen len ≤ s.shared.size

instance (s : Store) (ptr len : Int32) : Decidable (s.Holds ptr len) :=
  inferInstanceAs (Decidable (_ ≤ _))

/-- The kept bytes of a message. -/
def kept (s : Store) (ptr len : Int32) : Bytes := s.shared.peek ptr.toUInt32.toNat (keptLen len)

/-- The text of a message is kept if its bytes lie inside the memory. -/
theorem message?_eq (s : Store) (ptr len : Int32) :
    s.message? ptr.toBitVec len.toBitVec
      = if s.Holds ptr len then some (Utf8.lossy (s.kept ptr len)) else none := by
  have hread : s.shared.read ptr.toUInt32.toNat (keptLen len)
      = if s.Holds ptr len then some (s.kept ptr len) else none := by
    unfold Memory.read Memory.contains
    simp only [decide_eq_true_eq]
    rfl
  show (s.shared.read ptr.toUInt32.toNat (keptLen len)).map Utf8.lossy = _
  rw [hread]
  split
  · rfl
  · rfl

/-- The callee sends the text of the kept bytes, or fails because they do not all lie inside the
memory. -/
theorem debug_cases (s : Store) (ptr len : Int32) :
    s.Holds ptr len ∧
        s.debug ptr.toBitVec len.toBitVec = some (s.record (Utf8.lossy (s.kept ptr len))) ∨
      ¬ s.Holds ptr len ∧ s.debug ptr.toBitVec len.toBitVec = none := by
  rw [debug_eq, message?_eq]
  by_cases h : s.Holds ptr len
  · rw [if_pos h]
    exact .inl ⟨h, rfl⟩
  · rw [if_neg h]
    exact .inr ⟨h, rfl⟩

end Store

/-! ## Steps -/

namespace State

variable {inst : Instance} {s t : State} {ptr len : Int32}

/-- The address and the length that the next instruction sends a message with. -/
def debug? (inst : Instance) (s : State) : Option (Int32 × Int32) :=
  match s.callee? inst with
  | some (.debug, .i32 len :: .i32 ptr :: _) => some (.ofBitVec ptr, .ofBitVec len)
  | _ => none

/-- A step that gets to a callee calls it, once that is paid for. -/
theorem step_of_callee {c : Callee} {operands : List Value} (h : s.callee? inst = some (c, operands)) :
    ∃ (index : Nat) (s' : State), s.step inst = s'.call inst index ∧ inst.functions[index]? = some c ∧
      s'.frame.operands = operands ∧ s'.store = s.store.charge 1 := by
  obtain ⟨⟨locals, below, code, labels, arity⟩, callers, store⟩ := s
  rcases code with _ | ⟨i, rest⟩
  · cases h
  -- No other instruction gets to a callee, and an indirect call only to one of its type.
  cases i with
  | call index =>
    obtain ⟨c', hindex, heq⟩ := Option.map_eq_some_iff.1 h
    obtain ⟨rfl, rfl⟩ := Prod.mk.inj heq
    exact ⟨index, ⟨⟨locals, below, rest, labels, arity⟩, callers, store.charge 1⟩,
      rfl, hindex, rfl, rfl⟩
  | callIndirect table type =>
    unfold callee? at h
    dsimp only at h
    split at h
    · next entry below =>
      split at h
      · next index hentry =>
        obtain ⟨c', hfilter, heq⟩ := Option.map_eq_some_iff.1 h
        obtain ⟨rfl, rfl⟩ := Prod.mk.inj heq
        obtain ⟨hindex, htype⟩ := Option.filter_eq_some_iff.1 hfilter
        obtain ⟨entries, htable, hget⟩ := Option.bind_eq_some_iff.1 hentry
        have htable' : (store.charge 1).tables[table]? = some entries := htable
        refine ⟨index, ⟨⟨locals, below, rest, labels, arity⟩, callers, store.charge 1⟩, ?_, hindex, rfl,
          rfl⟩
        simp only [step, callIndirect, htable', hget, hindex]
        exact if_pos (of_decide_eq_true htype)
      · cases h
    · cases h
  | _ => cases h

/-- A step that sends a message, or fails to. -/
theorem step_of_debug (h : s.debug? inst = some (ptr, len)) :
    s.store.Holds ptr len ∧ (∃ t, s.step inst = .next t ∧
        t.store = (s.store.charge 1).record (Utf8.lossy (s.store.kept ptr len))) ∨
      ¬ s.store.Holds ptr len ∧ s.step inst = .failed .messageOutOfBounds (s.store.charge 1) := by
  unfold debug? at h
  split at h
  · next len' ptr' below hcallee =>
    obtain ⟨rfl, rfl⟩ := Prod.mk.inj (Option.some.inj h)
    obtain ⟨index, s', hstep, hindex, hoperands, hstore⟩ := step_of_callee hcallee
    rw [hstep, call, hindex]
    dsimp only
    rw [hoperands]
    dsimp only
    rw [hstore]
    -- What the call costs changes neither the memory nor the messages.
    obtain ⟨hholds, hdebug⟩ | ⟨hout, hdebug⟩ :=
      (s.store.charge 1).debug_cases (.ofBitVec ptr') (.ofBitVec len')
    · have hdebug' : (s.store.charge 1).debug ptr' len' = some _ := hdebug
      rw [hdebug']
      exact .inl ⟨hholds, _, rfl, rfl⟩
    · have hdebug' : (s.store.charge 1).debug ptr' len' = none := hdebug
      rw [hdebug']
      exact .inr ⟨hout, rfl⟩
  · cases h

end State

/-! ## Runs -/

namespace Activation

variable {a : Activation} {budget : Nat} {t : State} {ptr len : Int32}

/-- Somewhere in a call, in this state, code sends a message or tries to. -/
structure Debugs (a : Activation) (budget : Nat) (t : State) (ptr len : Int32) : Prop where
  visited : ∃ s, a.start? budget = some s ∧ s.Visits a.inst budget t
  debug_eq : t.debug? a.inst = some (ptr, len)

/-- A call gives what the run from any state that it visits gives. -/
theorem Debugs.result_eq (h : a.Debugs budget t ptr len) : a.result budget = t.run a.inst budget := by
  obtain ⟨s, hstart, hvisits⟩ := h.visited
  rw [result_of_start hstart, hvisits.run_eq]

/-- A message from outside the memory ends the call, and nothing is kept of it. -/
theorem Debugs.result_of_outside (h : a.Debugs budget t ptr len) (hout : ¬ t.store.Holds ptr len) :
    a.result budget = (.failed .messageOutOfBounds, t.store.charge 1) := by
  obtain ⟨hholds, -⟩ | ⟨-, hstep⟩ := State.step_of_debug h.debug_eq
  · exact absurd hholds hout
  · have hends : t.Ends a.inst budget (.failed .messageOutOfBounds, t.store.charge 1) := by
      rw [State.Ends, hstep]
    rw [h.result_eq, hends.run_eq]

/-- Any other message is put behind those from before and stays there, if messages are kept. -/
theorem Debugs.messages_result (h : a.Debugs budget t ptr len) (hin : t.store.Holds ptr len) :
    ∃ later, (a.result budget).2.messages.toList
      = t.store.messages.toList ++ t.store.captured (Utf8.lossy (t.store.kept ptr len) :: later) := by
  obtain ⟨-, u, hstep, hstore⟩ | ⟨hout, -⟩ := State.step_of_debug h.debug_eq
  · refine ⟨(u.path a.inst budget).filterMap (State.sends? a.inst), ?_⟩
    have hcaptures : u.store.captures = t.store.captures := by
      rw [hstore]
      rfl
    have hmessages : u.store.messages.toList
        = t.store.messages.toList ++ t.store.captured [Utf8.lossy (t.store.kept ptr len)] := by
      rw [hstore]
      exact (t.store.charge 1).messages_record _
    rw [h.result_eq, (State.Visits.next .start hstep).run_eq, u.messages_run, hmessages,
      Store.captured_congr hcaptures, List.append_assoc, ← Store.captured_append]
    rfl
  · exact absurd hin hout

end Activation

end HashLoader.Wasm
