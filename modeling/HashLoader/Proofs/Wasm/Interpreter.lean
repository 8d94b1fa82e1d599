import HashLoader.Proofs.Engine.Spec
import HashLoader.Proofs.Wasm.Budget
import HashLoader.Wasm.Interpreter

/-!
# The interpreter behaves as the loader expects

What the interpreter does as an engine comes down to calls from outside: a call of a function is one
(`Func.call_eq`), and so is the start of a module that has a start function. So the laws of
`Engine.Spec` that are about cycles are those of a call (`Activation.result_of_le`,
`Activation.consumed_result`).
-/

namespace HashLoader.Wasm

/-! ## Failures -/

/-- Only a budget that is used up is reported as one. -/
theorem Failure.error_eq_outOfCycles {why : Failure} :
    why.error = .outOfCycles ↔ why = .outOfCycles := by
  cases why <;> simp [Failure.error]

/-- Only a message is a failure of the host. -/
theorem Failure.error_eq_other {why : Failure} {reason : String} (h : why.error = .other reason) :
    why = .messageOutOfBounds ∧ EngineError.other reason = messageFailure := by
  cases why with
  | messageOutOfBounds => exact ⟨rfl, h.symm⟩
  | _ => cases h

/-! ## Calls -/

/-- A call of a function from outside. -/
def Func.activation (f : Func) (args : List Value) (s : Store) : Activation :=
  ⟨f.inst, f.index, args, s⟩

/-- A call gives what the call from outside gives. -/
theorem Func.call_eq (budget : Nat) (f : Func) (args : List Value) (s : Store) :
    f.call budget args s = match (f.activation args s).result budget with
      | (.finished results, s) => (.ok results, s)
      | (.failed why, s) => (.error why.error, s) := rfl

/-- A call leaves the store that the call from outside leaves. -/
theorem Func.store_call (budget : Nat) (f : Func) (args : List Value) (s : Store) :
    (f.call budget args s).2 = ((f.activation args s).result budget).2 := by
  rw [call_eq]
  rcases (f.activation args s).result budget with ⟨results | why, left⟩
  · rfl
  · rfl

/-- A call fails as the call from outside does. -/
theorem Func.call_eq_error_iff {budget : Nat} {f : Func} {args : List Value} {s : Store}
    {e : EngineError} : (f.call budget args s).1 = .error e ↔
      ∃ why, ((f.activation args s).result budget).1 = .failed why ∧ why.error = e := by
  rw [call_eq]
  rcases (f.activation args s).result budget with ⟨results | why, left⟩
  · simp
  · simp

/-! ## Starting a module -/

namespace Module

variable {m : Module} {s : Store} {budget budget' : Nat}

/-- A module is linked if all its imports are provided. -/
theorem link_eq_ok_iff {env : Environment} {linked : Module} :
    m.link env = .ok linked ↔ linked = m ∧ ∀ i ∈ m.imports, env.provides i = true := by
  unfold link
  cases hfind : m.imports.find? fun i => !env.provides i with
  | some missing =>
    obtain ⟨hmissing, hmem⟩ := List.find?_some hfind, List.mem_of_find?_eq_some hfind
    refine ⟨nofun, fun ⟨_, hall⟩ => ?_⟩
    rw [hall missing hmem] at hmissing
    cases hmissing
  | none =>
    have hall : ∀ i ∈ m.imports, env.provides i = true := by simpa using hfind
    exact ⟨fun h => ⟨(Except.ok.inj h).symm, hall⟩, fun h => congrArg _ h.1.symm⟩

/-- What starting a module can do: nothing of it runs, so that the budget has no influence, or its
start function is called. -/
theorem run_cases (m : Module) (s : Store) :
    (∃ a, m.startCall? s = some a ∧ ∀ budget, m.run budget s = match a.result budget with
      | (.finished _, left) => (.ok m, left)
      | (.failed why, left) => (.error why.error, left)) ∨
    m.startCall? s = none ∧ ∃ result left, (∀ budget, m.run budget s = (result, left)) ∧
      s.Idle left ∧ (result = .ok m ∨ ∃ reason, result = .error (.trap reason)) := by
  unfold run
  cases hstart : m.startCall? s with
  | some a =>
    refine .inl ⟨a, rfl, fun budget => ?_⟩
    rw [instantiate_of_startCall hstart]
    rcases a.result budget with ⟨results | why, left⟩
    · rfl
    · rfl
  | none =>
    obtain ⟨result, left, hsame, hidle, rfl | ⟨cause, rfl⟩⟩ := instantiate_of_no_startCall hstart
    · exact .inr ⟨rfl, .ok m, left, fun budget => by rw [hsame], hidle, .inl rfl⟩
    · exact .inr ⟨rfl, .error (.trap (Failure.trap cause).describe), left,
        fun budget => by rw [hsame]; rfl, hidle, .inr ⟨_, rfl⟩⟩

/-- A module that is started is its own instance. -/
theorem eq_of_run {inst left} (h : m.run budget s = (.ok inst, left)) : inst = m := by
  obtain ⟨a, -, hrun⟩ | ⟨-, result, left', hrun, -, hresult⟩ := m.run_cases s
  · rw [hrun] at h
    rcases hcall : a.result budget with ⟨results | why, left'⟩
    · rw [hcall] at h
      cases h
      rfl
    · rw [hcall] at h
      cases h
  · rw [hrun] at h
    obtain ⟨rfl, rfl⟩ := Prod.mk.inj h
    obtain hok | ⟨reason, hfailed⟩ := hresult
    · exact Except.ok.inj hok
    · cases hfailed

/-- It was instantiated, and left in the same store. -/
theorem exists_instantiate_of_run {inst left} (h : m.run budget s = (.ok inst, left)) :
    ∃ i, m.instantiate budget s = (.ok i, left) := by
  unfold run at h
  split at h
  · next i left' hmade =>
    obtain ⟨-, rfl⟩ := Prod.mk.inj h
    exact ⟨i, hmade⟩
  · cases h

/-- The start of a module fails for want of cycles, or with a message, as its start function does.
-/
theorem run_eq_error {e : EngineError} (he : ∀ reason, e ≠ .trap reason)
    (h : (m.run budget s).1 = .error e) :
    ∃ a why, m.startCall? s = some a ∧ (a.result budget).1 = .failed why ∧ why.error = e ∧
      (m.run budget s).2 = (a.result budget).2 := by
  obtain ⟨a, ha, hrun⟩ | ⟨-, result, left, hrun, -, hresult⟩ := m.run_cases s
  · rw [hrun] at h ⊢
    rcases hcall : a.result budget with ⟨results | why, left⟩
    · rw [hcall] at h
      cases h
    · rw [hcall] at h
      exact ⟨a, why, ha, congrArg Prod.fst hcall, Except.error.inj h, by rw [hcall]⟩
  · rw [hrun] at h
    obtain rfl | ⟨reason, rfl⟩ := hresult
    · cases h
    · exact absurd (Except.error.inj h).symm (he reason)

/-- Starting a module with a start function leaves what the call of that leaves. -/
theorem store_run {a : Activation} (h : m.startCall? s = some a) (budget : Nat) :
    (m.run budget s).2 = (a.result budget).2 := by
  obtain ⟨a', ha, hrun⟩ | ⟨hnone, -⟩ := m.run_cases s
  · cases h.symm.trans ha
    rw [hrun]
    rcases a.result budget with ⟨results | why, left⟩
    · rfl
    · rfl
  · cases h.symm.trans hnone

/-- Starting a module gives no cycles back. -/
theorem consumed_le_run (budget : Nat) (m : Module) (s : Store) :
    s.consumed ≤ (m.run budget s).2.consumed := by
  obtain ⟨a, ha, -⟩ | ⟨-, result, left, hrun, hidle, -⟩ := m.run_cases s
  · rw [store_run ha, a.consumed_result, (idle_startCall ha).consumed]
    exact Nat.le_add_right _ _
  · rw [hrun]
    exact Nat.le_of_eq hidle.consumed.symm

/-- Under a larger budget a module starts in the same way, unless it was broken off. -/
theorem run_of_le (hle : budget ≤ budget') (hout : (m.run budget s).1 ≠ .error .outOfCycles) :
    m.run budget' s = m.run budget s := by
  obtain ⟨a, -, hrun⟩ | ⟨-, result, left, hrun, -⟩ := m.run_cases s
  · rw [hrun] at hout
    have hsame : a.result budget' = a.result budget := by
      refine Activation.result_of_le hle fun hfailed => absurd ?_ hout
      rcases hcall : a.result budget with ⟨outcome, left⟩
      rw [hcall] at hfailed
      obtain rfl : outcome = .failed .outOfCycles := hfailed
      rfl
    rw [hrun, hrun, hsame]
  · rw [hrun, hrun]

/-- What a module gives out as a function is what its instance finds under the name. -/
theorem exportType?_eq_function_iff {name : String} {t : FuncType} :
    m.exportType? name = some (.function t) ↔ ∃ index, m.exportedFunction? name = some (index, t) := by
  unfold exportType?
  split
  · next index hitem => simp [Option.map_eq_some_iff, Prod.exists]
  all_goals
    next hitem =>
      have hnone : m.exportedFunction? name = none := by rw [exportedFunction?, hitem]
      simp [hnone, Option.map_eq_some_iff]

end Module

/-! ## The laws -/

/-- Under a larger budget a call gives the same, unless it was broken off. -/
theorem Func.call_of_le {budget budget' : Nat} {f : Func} {args : List Value} {s : Store}
    (hle : budget ≤ budget') (hout : (f.call budget args s).1 ≠ .error .outOfCycles) :
    f.call budget' args s = f.call budget args s := by
  have hsame : (f.activation args s).result budget' = (f.activation args s).result budget := by
    refine Activation.result_of_le hle fun hfailed => absurd ?_ hout
    exact call_eq_error_iff.2 ⟨_, hfailed, rfl⟩
  rw [call_eq, call_eq, hsame]

/-- The interpreter behaves as the loader expects of an engine. -/
theorem interpreter_spec : interpreter.Spec where
  consumed_newStore _ := rfl
  messages_newStore _ := rfl
  consumed_addMemory _ _ := rfl
  messages_addMemory _ _ := rfl
  link_iff env m := by
    constructor
    · rintro ⟨linked, h⟩
      exact (Module.link_eq_ok_iff.1 h).2
    · exact fun h => ⟨m, Module.link_eq_ok_iff.2 ⟨rfl, h⟩⟩
  function_iff := by
    intro env m linked budget s inst s' hlink hstart name t
    -- A linked module is the module itself, and an instance is what becomes of it.
    obtain ⟨rfl, -⟩ := Module.link_eq_ok_iff.1 hlink
    obtain rfl := Module.eq_of_run hstart
    show (∃ f, inst.function? name = some f ∧ f.type = t) ↔ inst.exportType? name = some (.function t)
    rw [Module.exportType?_eq_function_iff, Module.function?]
    cases inst.exportedFunction? name with
    | none => simp
    | some found => simp [Prod.ext_iff]
  consumed_start_le := Module.consumed_le_run
  consumed_call_le budget f args s := by
    show s.consumed ≤ (f.call budget args s).2.consumed
    rw [Func.store_call, Activation.consumed_result]
    exact Nat.le_add_right _ _
  budget_le_of_start budget linked s h := by
    -- Only the start function can fail so.
    obtain ⟨a, why, -, hfailed, hwhy, hleft⟩ := Module.run_eq_error (by simp) h
    rw [Failure.error_eq_outOfCycles.1 hwhy] at hfailed
    show budget ≤ (linked.run budget s).2.consumed
    rw [hleft]
    exact Activation.budget_le_of_outOfCycles hfailed
  budget_le_of_call budget f args s h := by
    obtain ⟨why, hfailed, hwhy⟩ := Func.call_eq_error_iff.1 h
    rw [Failure.error_eq_outOfCycles.1 hwhy] at hfailed
    show budget ≤ (f.call budget args s).2.consumed
    rw [Func.store_call]
    exact Activation.budget_le_of_outOfCycles hfailed
  start_of_le := Module.run_of_le
  call_of_le := Func.call_of_le
  other_of_start h := by
    obtain ⟨a, why, -, -, hwhy, -⟩ := Module.run_eq_error (by simp) h
    exact (Failure.error_eq_other hwhy).2
  other_of_call h := by
    obtain ⟨why, -, hwhy⟩ := Func.call_eq_error_iff.1 h
    exact (Failure.error_eq_other hwhy).2

end HashLoader.Wasm
