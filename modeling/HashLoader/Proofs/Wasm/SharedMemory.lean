import HashLoader.Proofs.Wasm.StoreEffects

/-!
# What code leaves alone in the shared memory

Code changes the shared memory by store instructions only. `State.stores?` is the range that the
next instruction stores into, if it is one of them and the range lies inside the memory. A step
keeps every byte outside that range (`step_keeps`), so a run keeps every byte that none of its steps
stores into (`run_keeps`), and so does a call from outside (`Activation.result_keeps`). Growing and
sending messages change no byte.
-/

namespace HashLoader.Wasm

/-- A byte is as it was, and the memory did not shrink. -/
structure Memory.Keeps (address : Nat) (before after : Memory) : Prop where
  byte : after.byte address = before.byte address
  pages : before.pages ≤ after.pages

/-- A memory that did not change keeps every byte. -/
theorem Memory.Keeps.refl (address : Nat) (m : Memory) : m.Keeps address m := ⟨rfl, Nat.le_refl _⟩

/-- What two changes keep one after the other, both keep together. -/
theorem Memory.Keeps.trans {address : Nat} {m₁ m₂ m₃ : Memory} (h : m₁.Keeps address m₂)
    (h' : m₂.Keeps address m₃) : m₁.Keeps address m₃ :=
  ⟨h'.byte.trans h.byte, Nat.le_trans h.pages h'.pages⟩

/-- Putting bytes keeps those outside the range. -/
theorem Memory.keeps_put {m : Memory} {address start : Nat} {data : Bytes}
    (h : ¬ (start ≤ address ∧ address < start + data.length)) :
    m.Keeps address (m.put start data) :=
  ⟨by rw [byte_put, if_neg h], Nat.le_of_eq (pages_put m start data).symm⟩

/-- Growing keeps every byte. -/
theorem Memory.keeps_grow {m grown : Memory} {extra : Nat} (h : m.grow extra = some grown)
    (address : Nat) : m.Keeps address grown := by
  obtain ⟨-, hgrown⟩ := Option.ite_none_right_eq_some.1 h
  obtain rfl := Option.some.inj hgrown
  exact ⟨rfl, Nat.le_add_right _ _⟩

/-- Changing a memory changes the shared one only if it is the one that is meant. -/
theorem Store.shared_mapMemory (s : Store) (shared : Bool) (f : Memory → Memory) :
    (s.mapMemory shared f).shared = if shared then f s.shared else s.shared := by
  cases shared <;> rfl

/-- Sending a message changes no memory. -/
theorem Store.shared_debug {s s' : Store} {address len : BitVec 32}
    (h : s.debug address len = some s') : s'.shared = s.shared := by
  obtain ⟨b, -, rfl⟩ := Option.map_eq_some_iff.1 h
  rfl

/-! ## Steps -/

/-- The start and the length of the range of the shared memory that an instruction stores into. -/
def Basic.stores? (inst : Instance) (operands : List Value) (store : Store) :
    Basic → Option (Nat × Nat)
  | .store _ size offset =>
    match operands with
    | _ :: .i32 a :: _ =>
      if inst.usesShared && store.shared.contains (a.toNat + offset) size then
        some (a.toNat + offset, size)
      else none
    | _ => none
  | _ => none

/-- A basic instruction keeps the shared memory, up to the range that it stores into. -/
theorem Basic.exec_keeps {inst : Instance} {op : Basic} {locals : Array Value}
    {operands : List Value} {store : Store} {address : Nat}
    (h : ∀ start size, op.stores? inst operands store = some (start, size) →
      ¬ (start ≤ address ∧ address < start + size)) :
    store.shared.Keeps address (op.exec inst ⟨locals, operands, store⟩).store.shared := by
  simp only [exec]
  -- Only two instructions change a memory.
  split <;> try first | exact .refl _ _ | (split <;> exact .refl _ _)
  · next width size offset v a rest =>
    split
    · exact .refl _ _
    split
    · next hcontains =>
      simp only [Effect.store, Store.shared_mapMemory]
      split
      · next hshared =>
        rw [hshared] at hcontains
        refine Memory.keeps_put ?_
        rw [Bytes.length_ofNatLE]
        refine h _ _ ?_
        rw [stores?, hshared, Bool.true_and]
        exact if_pos hcontains
      · exact .refl _ _
    · exact .refl _ _
  · next n rest =>
    split
    · next grown hgrown =>
      simp only [Effect.store, Store.shared_mapMemory]
      split
      · next hshared =>
        rw [hshared] at hgrown
        exact Memory.keeps_grow hgrown address
      · exact .refl _ _
    · exact .refl _ _

namespace State

variable {inst : Instance} {s : State}

/-- The start and the length of the range of the shared memory that the next instruction stores
into. -/
def stores? (inst : Instance) (s : State) : Option (Nat × Nat) :=
  match s.frame.code with
  | .basic op :: _ => op.stores? inst s.frame.operands s.store
  | _ => none

/-- The next instruction stores into the byte at an address of the shared memory. -/
def StoresAt (inst : Instance) (s : State) (address : Nat) : Prop :=
  ∃ start size, s.stores? inst = some (start, size) ∧ start ≤ address ∧ address < start + size

/-- What a step leaves keeps the bytes that it does not store into. -/
theorem Leaves.keeps {left : Store} {address : Nat} (hleaves : s.Leaves inst left)
    (h : ¬ s.StoresAt inst address) : s.store.shared.Keeps address left.shared := by
  cases hleaves with
  | paid cycles => exact .refl _ _
  | @worked op rest hcode =>
    have hcharge : (s.store.charge op.cost).shared = s.store.shared := rfl
    rw [← hcharge]
    refine Basic.exec_keeps fun start size hstores hin => h ⟨start, size, ?_, hin⟩
    rw [stores?, hcode]
    exact hstores
  | sent => exact .refl _ _

/-- A step keeps the bytes that it does not store into. -/
theorem step_keeps {address : Nat} (h : ¬ s.StoresAt inst address) :
    s.store.shared.Keeps address (s.step inst).store.shared :=
  (s.step_leaves inst).keeps h

end State

/-! ## Runs and calls from outside -/

section Runs

variable {inst : Instance} {budget address : Nat} {s t : State}

/-- On the way to a state that a run visits, the bytes are kept that no step stores into. -/
theorem State.Visits.keeps (h : ∀ u, s.Visits inst budget u → ¬ u.StoresAt inst address)
    (hvisits : s.Visits inst budget t) : s.store.shared.Keeps address t.store.shared := by
  induction hvisits with
  | start => exact .refl _ _
  | @next t u hvisits hstep ih =>
    have hkeeps := step_keeps (h t hvisits)
    rw [hstep] at hkeeps
    exact ih.trans hkeeps
  | @checkpoint t u hvisits hstep hbudget ih =>
    have hkeeps := step_keeps (h t hvisits)
    rw [hstep] at hkeeps
    exact ih.trans hkeeps

/-- A run keeps the bytes that none of its steps stores into. -/
theorem State.run_keeps (h : ∀ u, s.Visits inst budget u → ¬ u.StoresAt inst address) :
    s.store.shared.Keeps address (s.run inst budget).2.shared := by
  obtain ⟨t, hvisits, hends⟩ := s.run_visits inst budget
  refine (hvisits.keeps h).trans ?_
  rw [hends.store_eq]
  exact step_keeps (h t hvisits)

end Runs

namespace Activation

variable {a : Activation} {budget address : Nat}

/-- An instruction that the call executes stores into the byte at an address of the shared
memory. -/
def StoresAt (a : Activation) (budget address : Nat) : Prop :=
  ∃ s t, a.start? budget = some s ∧ s.Visits a.inst budget t ∧ t.StoresAt a.inst address

/-- A call that does not start changes no memory. -/
theorem shared_result_of_not_started (h : a.start? budget = none) :
    (a.result budget).2.shared = a.store.shared := by
  cases hcallee : a.inst.functions[a.index]? with
  | none =>
    unfold result Instance.invoke
    rw [hcallee]
  | some c =>
    cases c with
    | code f =>
      rw [result_of_unpaid hcallee h]
      rfl
    | debug =>
      unfold result Instance.invoke
      rw [hcallee]
      dsimp only
      split
      · split
        · next hsent => exact Store.shared_debug hsent
        · rfl
      · rfl

/-- A call keeps the bytes that none of its instructions stores into. -/
theorem result_keeps (h : ¬ a.StoresAt budget address) :
    a.store.shared.Keeps address (a.result budget).2.shared := by
  cases hstart : a.start? budget with
  | none =>
    rw [shared_result_of_not_started hstart]
    exact .refl _ _
  | some s =>
    have hshared : s.store.shared = a.store.shared := by
      rw [store_of_start hstart]
      rfl
    rw [result_of_start hstart, ← hshared]
    exact State.run_keeps fun u hu hstores => h ⟨s, u, hstart, hu, hstores⟩

end Activation

end HashLoader.Wasm
