import HashLoader.Proofs.Except
import HashLoader.Wasm.Instance

/-!
# Only the code of an instance runs

`State.Visits` lists the states of a run, and `Visits.run_eq` and `run_visits` say that it is the
run: what a run gives is decided at a state that it visits. `State.From` is the invariant that all
code in a state, also what waits in labels and callers, is part of a function of the instance.
Every step keeps it (`step_from`), so by induction every visited state has it (`Visits.from`), and a
call from outside executes no instruction but those of the functions (`Activation.executes_from`).
-/

namespace HashLoader.Wasm

/-! ## The states of a run -/

/-- The states that a run goes through. At a checkpoint it goes on only within its budget. -/
inductive State.Visits (inst : Instance) (budget : Nat) (s : State) : State → Prop
  | start : Visits inst budget s s
  | next {t u : State} : Visits inst budget s t → t.step inst = .next u → Visits inst budget s u
  | checkpoint {t u : State} : Visits inst budget s t → t.step inst = .checkpoint u →
      u.store.consumed < budget → Visits inst budget s u

/-- What decides a run: the step out of a state, if the run does not go on from there. -/
def State.Ends (inst : Instance) (budget : Nat) (s : State) (result : Outcome × Store) : Prop :=
  match s.step inst with
  | .next _ => False
  | .checkpoint t => budget ≤ t.store.consumed ∧ result = (.failed .outOfCycles, t.store)
  | .done results store => result = (.finished results, store)
  | .failed why store => result = (.failed why, store)

/-- The store that a step leaves. -/
def Step.store : Step → Store
  | next s | checkpoint s => s.store
  | done _ store | failed _ store => store

section Runs

variable {inst : Instance} {budget : Nat} {s t : State}

/-- What a run that is decided at a state leaves is what the step from there leaves. -/
theorem State.Ends.store_eq {result : Outcome × Store} (h : s.Ends inst budget result) :
    result.2 = (s.step inst).store := by
  unfold State.Ends at h
  cases hstep : s.step inst with
  | next t =>
    rw [hstep] at h
    exact h.elim
  | checkpoint t =>
    rw [hstep] at h
    rw [h.2]
    rfl
  | done results store | failed why store =>
    rw [hstep] at h
    rw [h]
    rfl

/-- A run that visits a state ends as the run from that state on. -/
theorem State.Visits.run_eq (h : s.Visits inst budget t) : s.run inst budget = t.run inst budget := by
  -- One step of the run at the visited state, which goes where the visit went.
  induction h with
  | start => rfl
  | @next t u hvisits hstep ih =>
    rw [ih, State.run]
    split
    · next v hv =>
      rw [hstep] at hv
      cases hv
      rfl
    all_goals
      next hv =>
        rw [hstep] at hv
        cases hv
  | @checkpoint t u hvisits hstep hbudget ih =>
    rw [ih, State.run]
    split
    · next hv =>
      rw [hstep] at hv
      cases hv
    · next v hv =>
      rw [hstep] at hv
      cases hv
      rw [if_neg (by omega)]
    all_goals
      next hv =>
        rw [hstep] at hv
        cases hv

/-- What a run visits from a visited state on, it visits. -/
theorem State.Visits.trans {u : State} (h : s.Visits inst budget t) (h' : t.Visits inst budget u) :
    s.Visits inst budget u := by
  induction h' with
  | start => exact h
  | next hvisits hstep ih => exact .next ih hstep
  | checkpoint hvisits hstep hbudget ih => exact .checkpoint ih hstep hbudget

/-- A run ends with what the last state that it visits decides. -/
theorem State.run_visits (inst : Instance) (budget : Nat) (s : State) :
    ∃ t, s.Visits inst budget t ∧ t.Ends inst budget (s.run inst budget) := by
  fun_induction State.run inst budget s with
  | case1 s t hstep _ ih =>
    obtain ⟨u, hvisits, hends⟩ := ih
    exact ⟨u, State.Visits.trans (.next .start hstep) hvisits, hends⟩
  | case2 s t hstep _ hbudget =>
    refine ⟨s, .start, ?_⟩
    unfold State.Ends
    rw [hstep]
    exact ⟨hbudget, rfl⟩
  | case3 s t hstep _ hbudget ih =>
    obtain ⟨u, hvisits, hends⟩ := ih
    exact ⟨u, State.Visits.trans (.checkpoint .start hstep (by omega)) hvisits, hends⟩
  | case4 s results store hstep =>
    refine ⟨s, .start, ?_⟩
    unfold State.Ends
    rw [hstep]
  | case5 s why store hstep =>
    refine ⟨s, .start, ?_⟩
    unfold State.Ends
    rw [hstep]

end Runs

/-! ## Parts of code -/

/-- The parts of code: what is left of it after some instructions, and the parts of the bodies that
are enclosed in it. -/
inductive Code.Part (whole : Code) : Code → Prop
  | whole : Part whole whole
  | rest {i : Instr} {c : Code} : Part whole (i :: c) → Part whole c
  | block {t : FuncType} {body c : Code} : Part whole (.block t body :: c) → Part whole body
  | loop {t : FuncType} {body c : Code} : Part whole (.loop t body :: c) → Part whole body
  | yes {t : FuncType} {yes no c : Code} : Part whole (.cond t yes no :: c) → Part whole yes
  | no {t : FuncType} {yes no c : Code} : Part whole (.cond t yes no :: c) → Part whole no

/-- Code is part of a function of an instance. -/
def Instance.Owns (inst : Instance) (c : Code) : Prop :=
  ∃ f, Callee.code f ∈ inst.functions ∧ Code.Part f.body c

/-- What waits in a label is part of a function. -/
structure Label.From (inst : Instance) (l : Label) : Prop where
  again : ∀ body, l.again = some body → inst.Owns body
  next : inst.Owns l.next

/-- What is left of an entered function is part of a function. -/
structure Frame.From (inst : Instance) (f : Frame) : Prop where
  code : inst.Owns f.code
  labels : ∀ l ∈ f.labels, l.From inst

/-- All code in a state is part of a function. -/
structure State.From (inst : Instance) (s : State) : Prop where
  frame : s.frame.From inst
  callers : ∀ f ∈ s.callers, f.From inst

/-- A step leads to a state in which all code is part of a function, if it leads to a state. -/
def Step.From (inst : Instance) : Step → Prop
  | .next s | .checkpoint s => s.From inst
  | .done _ _ | .failed _ _ => True

/-- The function that an index stands for is one of the instance. -/
theorem Instance.owns_body {inst : Instance} {index : Nat} {f : Function}
    (h : inst.functions[index]? = some (.code f)) : inst.Owns f.body :=
  ⟨f, Array.mem_of_getElem? h, .whole⟩

/-! ## Steps keep to the code -/

namespace State

variable {inst : Instance} {s : State}

/-- Leaving a function goes on with its caller. -/
theorem leave_from (h : s.From inst) : s.leave.From inst := by
  unfold leave
  dsimp only
  split
  · trivial
  · next c rest hcallers =>
    have hc := h.callers c (by rw [hcallers]; exact List.mem_cons_self)
    refine ⟨⟨hc.code, hc.labels⟩, fun f hf => h.callers f ?_⟩
    rw [hcallers]
    exact List.mem_cons_of_mem _ hf

/-- A branch goes on with what its label says. -/
theorem branch_from (l : Nat) (h : s.From inst) : (s.branch l).From inst := by
  unfold branch
  split
  · exact leave_from h
  · next label outer hdrop =>
    have hlabels : ∀ k ∈ label :: outer, k.From inst := by
      intro k hk
      rw [← hdrop] at hk
      exact h.frame.labels k (List.mem_of_mem_drop hk)
    have hlabel := hlabels label List.mem_cons_self
    dsimp only
    split
    · next body hagain => exact ⟨⟨hlabel.again body hagain, hlabels⟩, h.callers⟩
    · exact ⟨⟨hlabel.next, fun k hk => hlabels k (List.mem_cons_of_mem _ hk)⟩, h.callers⟩

/-- Entering a construct runs its body and keeps what follows for later. -/
theorem enter_from {params arity : Nat} {again : Option Code} {body : Code} (h : s.From inst)
    (hagain : ∀ b, again = some b → inst.Owns b) (hbody : inst.Owns body) :
    (s.enter params arity again body).From inst := by
  refine ⟨⟨hbody, fun l hl => ?_⟩, h.callers⟩
  rcases List.mem_cons.1 hl with rfl | hl
  · exact ⟨hagain, h.frame.code⟩
  · exact h.frame.labels l hl

/-- A call runs a function of the instance. -/
theorem call_from (index : Nat) (h : s.From inst) : (s.call inst index).From inst := by
  unfold call
  split
  · next f hf =>
    split
    · trivial
    · refine ⟨⟨Instance.owns_body hf, nofun⟩, fun g hg => ?_⟩
      rcases List.mem_cons.1 hg with rfl | hg
      · exact ⟨h.frame.code, h.frame.labels⟩
      · exact h.callers g hg
  · split
    · split
      · exact ⟨⟨h.frame.code, h.frame.labels⟩, h.callers⟩
      · trivial
    · trivial
  · trivial

/-- What a table holds are indices, so an indirect call is a call. -/
theorem callIndirect_from (table : Nat) (t : FuncType) (h : s.From inst) :
    (s.callIndirect inst table t).From inst := by
  unfold callIndirect
  split
  · split
    · trivial
    · trivial
    · split
      · trivial
      · split
        · exact call_from _ ⟨⟨h.frame.code, h.frame.labels⟩, h.callers⟩
        · trivial
  · trivial

/-- Taking a condition changes no code. -/
theorem withCondition_from {f : BitVec 32 → State → Step} (h : s.From inst)
    (hf : ∀ c t, t.From inst → (f c t).From inst) :
    (s.withCondition f).From inst := by
  unfold withCondition
  split
  · exact hf _ _ ⟨⟨h.frame.code, h.frame.labels⟩, h.callers⟩
  · trivial

/-- Every step keeps to the code of the instance. -/
theorem step_from (h : s.From inst) : (s.step inst).From inst := by
  obtain ⟨⟨locals, operands, code, labels, arity⟩, callers, store⟩ := s
  obtain ⟨⟨hcode, hlabels⟩, hcallers⟩ := h
  dsimp only at hcode hlabels hcallers
  simp only [step]
  split
  -- The end of a construct or of the function: what was kept for later runs.
  · split
    · exact leave_from ⟨⟨hcode, hlabels⟩, hcallers⟩
    · next label outer =>
      exact ⟨⟨(hlabels label List.mem_cons_self).next,
        fun l hl => hlabels l (List.mem_cons_of_mem _ hl)⟩, hcallers⟩
  -- An instruction: its bodies and what follows are parts of the same function.
  · next i rest =>
    obtain ⟨g, hg, hpart⟩ := hcode
    have hhere : ∀ operands store,
        State.From inst ⟨⟨locals, operands, rest, labels, arity⟩, callers, store⟩ :=
      fun _ _ => ⟨⟨⟨g, hg, hpart.rest⟩, hlabels⟩, hcallers⟩
    -- A branch to a construct other than a loop runs nothing again.
    have hnone : ∀ b : Code, none = some b → inst.Owns b := fun b hb => absurd hb (by simp)
    split
    · split
      · exact ⟨⟨⟨g, hg, hpart.rest⟩, hlabels⟩, hcallers⟩
      · trivial
    · trivial
    · exact enter_from (hhere _ _) hnone ⟨g, hg, hpart.block⟩
    · refine enter_from (hhere _ _) (fun b hb => ?_) ⟨g, hg, hpart.loop⟩
      cases hb
      exact ⟨g, hg, hpart.loop⟩
    · refine withCondition_from (hhere _ _) fun c t ht => ?_
      refine enter_from ht hnone ?_
      split
      · exact ⟨g, hg, hpart.no⟩
      · exact ⟨g, hg, hpart.yes⟩
    · exact branch_from _ (hhere _ _)
    · refine withCondition_from (hhere _ _) fun c t ht => ?_
      split
      · exact ht
      · exact branch_from _ ht
    · exact withCondition_from (hhere _ _) fun c t ht => branch_from _ ht
    · exact leave_from (hhere _ _)
    · exact call_from _ (hhere _ _)
    · exact callIndirect_from _ _ (hhere _ _)

/-- Every state that a run visits keeps to the code of the instance. -/
theorem Visits.from {budget : Nat} {t : State} (hvisits : s.Visits inst budget t)
    (h : s.From inst) : t.From inst := by
  induction hvisits with
  | start => exact h
  | @next t u hvisits hstep ih =>
    show (Step.next u).From inst
    rw [← hstep]
    exact step_from ih
  | @checkpoint t u hvisits hstep hbudget ih =>
    show (Step.checkpoint u).From inst
    rw [← hstep]
    exact step_from ih

end State

/-! ## Calls from outside -/

/-- A call of a function of an instance from outside. -/
structure Activation where
  inst : Instance
  index : Nat
  /-- First argument first. -/
  args : List Value
  store : Store

/-- An instruction stands in one of the functions of a module, perhaps deep inside. -/
def Module.Contains (m : Module) (i : Instr) : Prop :=
  ∃ f ∈ m.functions, ∃ rest, Code.Part f.body (i :: rest)

/-- The functions of an instance with code are those of the module. -/
theorem Module.mem_functions_of_toInstance {m : Module} {f : Function}
    (h : Callee.code f ∈ m.toInstance.functions) : f ∈ m.functions := by
  rw [toInstance, callees, List.mem_toArray, List.mem_append] at h
  rcases h with himported | hdefined
  · obtain ⟨t, -, ht⟩ := List.mem_map.1 himported
    cases ht
  · obtain ⟨g, hg, heq⟩ := List.mem_map.1 hdefined
    cases heq
    exact hg

namespace Activation

variable {a : Activation} {budget : Nat}

/-- What the call gives. -/
def result (a : Activation) (budget : Nat) : Outcome × Store :=
  a.inst.invoke budget a.index a.args a.store

/-- The state that the call starts in, if it enters a function within the budget. -/
def start? (a : Activation) (budget : Nat) : Option State :=
  match a.inst.functions[a.index]? with
  | some (.code f) =>
    let store := a.store.charge 1
    if budget ≤ store.consumed then none
    else some ⟨State.frameOf f a.args.reverse, [], store⟩
  | _ => none

/-- The call executes an instruction: its run visits a state whose next step is the instruction. -/
def Executes (a : Activation) (budget : Nat) (i : Instr) : Prop :=
  ∃ s t rest, a.start? budget = some s ∧ s.Visits a.inst budget t ∧ t.frame.code = i :: rest

/-- A call that starts gives what the run from its start gives. -/
theorem result_of_start {s : State} (h : a.start? budget = some s) :
    a.result budget = s.run a.inst budget := by
  unfold start? at h
  unfold result Instance.invoke
  split at h
  · next f hf =>
    rw [hf]
    dsimp only at h ⊢
    split at h
    · cases h
    · next hbudget =>
      cases h
      rw [if_neg hbudget]
  · cases h

/-- A call for which the budget does not last is broken off before its function is entered. -/
theorem result_of_unpaid {f : Function} (hcallee : a.inst.functions[a.index]? = some (.code f))
    (h : a.start? budget = none) :
    a.result budget = (.failed .outOfCycles, a.store.charge 1) := by
  unfold start? at h
  unfold result Instance.invoke
  rw [hcallee] at h ⊢
  dsimp only at h ⊢
  split at h
  · next hbudget => rw [if_pos hbudget]
  · cases h

/-- A call starts with the store that it is given, once it is paid for. -/
theorem store_of_start {s : State} (h : a.start? budget = some s) :
    s.store = a.store.charge 1 := by
  unfold start? at h
  split at h
  · dsimp only at h
    split at h
    · cases h
    · cases h
      rfl
  · cases h

/-- A call starts with the body of a function of the instance. -/
theorem start_from {s : State} (h : a.start? budget = some s) : s.From a.inst := by
  unfold start? at h
  split at h
  · next f hf =>
    dsimp only at h
    split at h
    · cases h
    · cases h
      exact ⟨⟨Instance.owns_body hf, nofun⟩, nofun⟩
  · cases h

/-- A call on an instance of a module executes instructions of the module only. -/
theorem executes_from {m : Module} {i : Instr} (hinst : a.inst = m.toInstance)
    (h : a.Executes budget i) : m.Contains i := by
  obtain ⟨s, t, rest, hstart, hvisits, hcode⟩ := h
  obtain ⟨f, hf, hpart⟩ := (hvisits.from (start_from hstart)).frame.code
  rw [hinst] at hf
  rw [hcode] at hpart
  exact ⟨f, Module.mem_functions_of_toInstance hf, rest, hpart⟩

end Activation

/-! ## Instantiation -/

/-- Between two stores no code has run: no cycles were used up and no message was kept. -/
structure Store.Idle (s t : Store) : Prop where
  consumed : t.consumed = s.consumed
  captures : t.captures = s.captures
  messages : t.messages = s.messages

/-- Changing a memory leaves whether messages are kept. -/
theorem Store.captures_mapMemory (s : Store) (shared : Bool) (f : Memory → Memory) :
    (s.mapMemory shared f).captures = s.captures := by
  cases shared <;> rfl

/-- Changing a memory sends no message. -/
theorem Store.messages_mapMemory (s : Store) (shared : Bool) (f : Memory → Memory) :
    (s.mapMemory shared f).messages = s.messages := by
  cases shared <;> rfl

namespace Module

variable {m : Module} {s : Store} {budget : Nat}

/-- The call of the start function, if the module has one and instantiation gets so far. -/
def startCall? (m : Module) (s : Store) : Option Activation :=
  match m.initializedStore s, m.start with
  | .ok store, some index => some ⟨m.toInstance, index, [], store⟩
  | _, _ => none

/-- The start function is called on the instance of the module. -/
theorem inst_of_startCall {a : Activation} (h : m.startCall? s = some a) :
    a.inst = m.toInstance := by
  unfold startCall? at h
  split at h
  · cases h
    rfl
  · cases h

/-- With a call of the start function, instantiation gives what the call gives. -/
theorem instantiate_of_startCall {a : Activation} (h : m.startCall? s = some a) :
    m.instantiate budget s = match a.result budget with
      | (.finished _, store) => (.ok m.toInstance, store)
      | (.failed why, store) => (.error why, store) := by
  unfold startCall? at h
  unfold instantiate
  split at h
  · next store index hstore hstart =>
    cases h
    rw [hstore, hstart]
    rfl
  · cases h

/-- What tables and memories have no part in, writing the segments leaves as it was. -/
theorem view_initializedStore {α : Type} (view : Store → α)
    (htables : ∀ s tables, view { s with tables } = view s)
    (hmemory : ∀ s shared f, view (s.mapMemory shared f) = view s) {store : Store}
    (h : m.initializedStore s = .ok store) : view store = view (m.initialStore s) := by
  have helement : ∀ s e s', Store.putElements s e = .ok s' → view s' = view s := by
    intro s e s' hput
    unfold Store.putElements at hput
    split at hput
    · cases hput
      exact htables _ _
    · cases hput
  have hdata : ∀ s d s', Store.putData m.importsMemory s d = .ok s' → view s' = view s := by
    intro s d s' hput
    unfold Store.putData at hput
    dsimp only at hput
    split at hput
    · cases hput
      exact hmemory _ _ _
    · cases hput
  unfold initializedStore at h
  obtain ⟨filled, helements, hall⟩ := bind_eq_ok_iff.1 h
  rw [foldlM_invariant view hdata hall, foldlM_invariant view helement helements]

/-- Writing the segments runs no code. -/
theorem idle_initializedStore {store : Store} (h : m.initializedStore s = .ok store) :
    s.Idle store where
  consumed := view_initializedStore (·.consumed) (fun _ _ => rfl) Store.consumed_mapMemory h
  captures := view_initializedStore (·.captures) (fun _ _ => rfl) Store.captures_mapMemory h
  messages := view_initializedStore (·.messages) (fun _ _ => rfl) Store.messages_mapMemory h

/-- The start function is called when the segments are written. -/
theorem idle_startCall {a : Activation} (h : m.startCall? s = some a) : s.Idle a.store := by
  unfold startCall? at h
  split at h
  · next store index hstore hstart =>
    cases h
    exact idle_initializedStore hstore
  · cases h

/-- Without a call of the start function, instantiation runs no code and has no use for its budget.
It fails only where a segment does not fit. -/
theorem instantiate_of_no_startCall (h : m.startCall? s = none) :
    ∃ result store, (∀ budget, m.instantiate budget s = (result, store)) ∧ s.Idle store ∧
      (result = .ok m.toInstance ∨ ∃ cause, result = .error (.trap cause)) := by
  unfold startCall? at h
  unfold instantiate
  cases hstore : m.initializedStore s with
  | error cause => exact ⟨_, _, fun _ => rfl, ⟨rfl, rfl, rfl⟩, .inr ⟨cause, rfl⟩⟩
  | ok store =>
    cases hstart : m.start with
    | none => exact ⟨_, _, fun _ => rfl, idle_initializedStore hstore, .inl rfl⟩
    | some index =>
      rw [hstore, hstart] at h
      cases h

end Module

end HashLoader.Wasm
