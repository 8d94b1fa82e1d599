import HashLoader.Proofs.Invocation.Classification
import HashLoader.Proofs.Invocation.Lockstep

/-!
# One budget for all code

The start of the code and the calls of its entry points draw on one budget, on every engine that
counts as `Engine.Spec` says. `Report.SharesBudget` says so of a report and the log that it reports
on: a request finds used up exactly what the requests before it cost, and the report counts what all
of them cost, up to the budget. It says too that the report tells of a budget that was used up
exactly if a request was broken off.

`Loader.invoke_budget_mono` compares two budgets. If the smaller one is not used up, the larger one
makes no difference but for the cycles that are counted, and not even for them if the smaller one
was not reached. It can be reached without being used up where an engine breaks code off at
checkpoints only.
-/

namespace HashLoader

variable {E : Engine} {config : Config}

/-! ## Shared budgets -/

/-- The requests of a log draw on one budget. -/
structure Report.SharesBudget (budget : Nat) (log : List (Request E)) (r : Report) : Prop where
  /-- Each of them gets the budget. -/
  budget_eq : ∀ x ∈ log, x.budget = budget
  /-- A request finds used up what the requests before it cost. -/
  consumed_eq : ∀ front x back, log = front ++ x :: back →
    E.consumed x.store = Request.totalCost front
  /-- The report counts what all of them cost, up to the budget. -/
  cycles_eq : r.cycles = min (Request.totalCost log) budget
  /-- A request that is broken off used up what was left. -/
  exhausted : ∀ x ∈ log, x.Fails .outOfCycles → budget ≤ E.consumed x.store + x.cost
  /-- The report tells of a budget that was used up exactly if a request was broken off. -/
  error_iff : r.error = some .exceededMaxCycles ↔ ∃ x ∈ log, x.Fails .outOfCycles
  /-- It then counts the whole budget. -/
  cycles_of_exceeded : r.error = some .exceededMaxCycles → r.cycles = budget

/-- The report counts the cycles of the store that is left, up to the budget. -/
theorem Run.cycles_report (config : Config) (r : Run E) :
    (r.report config).cycles = min (E.consumed r.store) config.maxCycles := by
  show config.maxCycles - (config.maxCycles - E.consumed r.store) = _
  omega

/-- Only running out of cycles is reported as such. -/
theorem entryError_eq_exceeded {e : EngineError} (h : entryError e = .exceededMaxCycles) :
    e = .outOfCycles := by
  cases e with
  | outOfCycles => rfl
  | trap _ | other _ => cases h

namespace Loader

variable {σ : Type} {loader : Loader E} {host : Host σ} {payload : Payload} {label : String} {s : σ}

/-- The report of an invocation tells of a budget that was used up exactly if a request was broken
off. -/
theorem error_eq_exceeded_iff :
    (loader.invoke host payload label s).1.error = some .exceededMaxCycles ↔
      ∃ x ∈ loader.log host payload label s, x.Fails .outOfCycles := by
  rw [invoke_eq_report]
  constructor
  · intro herror
    obtain ⟨x, hx, why, hfails, hwhy⟩ := exists_fails herror rfl
    obtain rfl := entryError_eq_exceeded hwhy
    exact ⟨x, hx, hfails⟩
  · rintro ⟨x, hx, hfails⟩
    rw [log_eq, List.mem_append] at hx
    rcases hx with hstart | hcall
    · rw [(run_of_start_fails (Option.mem_toList.1 hstart) hfails).1]
      rfl
    · obtain ⟨⟨g, c⟩, hmem, rfl⟩ := List.mem_map.1 hcall
      exact (run_of_call_fails hmem hfails).2.1

/-- All code of an invocation draws on the budget of the loader. -/
theorem invoke_sharesBudget (hE : E.Spec) (loader : Loader E) (host : Host σ) (payload : Payload)
    (label : String) (s : σ) : (loader.invoke host payload label s).1.SharesBudget
      loader.config.maxCycles (loader.log host payload label s) := by
  obtain ⟨first, hconsumed, -, hthread⟩ := loader.fresh_thread hE host payload label s
  have hexhausted : ∀ x ∈ loader.log host payload label s, x.Fails .outOfCycles →
      loader.config.maxCycles ≤ E.consumed x.left := by
    intro x hx hfails
    rw [← budget_of_mem_log hx]
    exact Request.budget_le hE hfails
  have hcycles := Run.cycles_report loader.config (loader.drive host payload label s).1
  refine ⟨fun x hx => budget_of_mem_log hx, fun front x back hlog => ?_, ?_, fun x hx hfails => ?_,
    error_eq_exceeded_iff, fun herror => ?_⟩
  · rw [hlog] at hthread
    rw [hthread.consumed_of_request hE, hconsumed, Nat.zero_add]
  · rw [invoke_eq_report, hcycles, hthread.consumed_eq hE, hconsumed, Nat.zero_add]
  · rw [← x.consumed_left hE]
    exact hexhausted x hx hfails
  · obtain ⟨x, hx, hfails⟩ := error_eq_exceeded_iff.1 herror
    have hspent := Nat.le_trans (hexhausted x hx hfails) (hthread.consumed_le_of_mem hE hx)
    rw [invoke_eq_report, hcycles, Nat.min_eq_right hspent]

end Loader

/-! ## Two budgets -/

/-- Under a larger budget an engine answers in the same way, unless code was broken off. -/
theorem Engine.Spec.lockstep (hE : E.Spec) {budget budget' : Nat} (hle : budget ≤ budget') :
    E.Lockstep budget budget' True Eq where
  addMemory := by
    rintro memory s t rfl
    rfl
  start := by
    rintro linked s t rfl
    by_cases hout : (E.start budget linked s).1 = .error .outOfCycles
    · exact .inr ⟨trivial, hout⟩
    · rw [hE.start_of_le hle hout]
      exact .inl ⟨rfl, rfl⟩
  call := by
    rintro f args s t rfl
    by_cases hout : (E.call budget f args s).1 = .error .outOfCycles
    · exact .inr ⟨trivial, hout⟩
    · rw [hE.call_of_le hle hout]
      exact .inl ⟨rfl, rfl⟩

namespace Loader

variable {σ : Type}

/-- The loader with another budget. -/
def withMaxCycles (loader : Loader E) (budget : Nat) : Loader E :=
  ⟨{ loader.config with maxCycles := budget }, loader.valid⟩

/-- An invocation comes to the same under a larger budget, unless the smaller one was used up. -/
theorem drive_withMaxCycles (hE : E.Spec) {loader : Loader E} {budget : Nat}
    (hle : loader.config.maxCycles ≤ budget) {host : Host σ} {payload : Payload} {label : String}
    {s : σ} (herror : (loader.drive host payload label s).1.error ≠ some .exceededMaxCycles) :
    (loader.withMaxCycles budget).drive host payload label s = loader.drive host payload label s := by
  have hsizes : loader.config.SameSizes (loader.withMaxCycles budget).config := ⟨rfl, rfl, rfl⟩
  obtain ⟨⟨t, rfl, hrun⟩ | ⟨-, hout⟩, hhost⟩ :=
    drive_alike hsizes (hE.lockstep hle) rfl host payload label s
  · exact Prod.ext (congrArg Prod.snd hrun) hhost.symm
  · exact absurd hout herror

/-- Under a larger budget an invocation gives the same report but for the cycles, unless the smaller
one was used up. Under each of them all code draws on the budget. -/
theorem invoke_budget_mono (hE : E.Spec) (loader : Loader E) {budget : Nat}
    (hle : loader.config.maxCycles ≤ budget) (host : Host σ) (payload : Payload) (label : String)
    (s : σ) :
    let small := (loader.invoke host payload label s).1
    let large := ((loader.withMaxCycles budget).invoke host payload label s).1
    small.SharesBudget loader.config.maxCycles (loader.log host payload label s) ∧
      large.SharesBudget budget ((loader.withMaxCycles budget).log host payload label s) ∧
      small.cycles ≤ loader.config.maxCycles ∧ large.cycles ≤ budget ∧
      (small.error ≠ some .exceededMaxCycles →
        large = { small with cycles := large.cycles } ∧ small.cycles ≤ large.cycles ∧
          (small.cycles < loader.config.maxCycles → large.cycles = small.cycles)) := by
  intro small large
  have hsmall : small.SharesBudget loader.config.maxCycles _ :=
    loader.invoke_sharesBudget hE host payload label s
  have hlarge : large.SharesBudget budget _ :=
    (loader.withMaxCycles budget).invoke_sharesBudget hE host payload label s
  refine ⟨hsmall, hlarge, ?_, ?_, fun herror => ?_⟩
  · rw [hsmall.cycles_eq]
    exact Nat.min_le_right _ _
  · rw [hlarge.cycles_eq]
    exact Nat.min_le_right _ _
  · have hsame := drive_withMaxCycles hE hle herror
    have hlarge' : large = (loader.drive host payload label s).1.report
        { loader.config with maxCycles := budget } := by
      show ((loader.withMaxCycles budget).drive host payload label s).1.report _ = _
      rw [hsame]
      rfl
    -- Both runs leave one store, and each report counts its cycles up to its own budget.
    have hcycles : small.cycles
        = min (E.consumed (loader.drive host payload label s).1.store) loader.config.maxCycles :=
      Run.cycles_report _ _
    have hcycles' : large.cycles
        = min (E.consumed (loader.drive host payload label s).1.store) budget := by
      rw [hlarge']
      exact Run.cycles_report _ _
    refine ⟨?_, by omega, fun hlt => by omega⟩
    rw [hlarge']
    rfl

end Loader

/-- A page that traps at once is reported in the same way under ten times its budget. -/
theorem invoke_budget_mono_trap :
    Wasm.interpreter.Spec ∧ pageLoader.config.maxCycles ≤ 1000 ∧
      (pageLoader.invoke (pageHost trappingCode) .fromArgs "" ()).1.error
        ≠ some .exceededMaxCycles ∧
      (pageLoader.invoke (pageHost trappingCode) .fromArgs "" ()).1.cycles
        < pageLoader.config.maxCycles ∧
      ((pageLoader.withMaxCycles 1000).invoke (pageHost trappingCode) .fromArgs "" ()).1.error
        = (pageLoader.invoke (pageHost trappingCode) .fromArgs "" ()).1.error ∧
      ((pageLoader.withMaxCycles 1000).invoke (pageHost trappingCode) .fromArgs "" ()).1.cycles
        = (pageLoader.invoke (pageHost trappingCode) .fromArgs "" ()).1.cycles := by
  have htest : (pageLoader.job? (pageHost trappingCode) .fromArgs "" ()).any
      (pageLoader.constructFails 10 (.trap .unreachable) fun store => store.consumed < 100) = true := by
    decide +kernel
  obtain ⟨g, store, -, -, hrun, hconsumed⟩ := Loader.drive_of_constructFails htest
  have hle : pageLoader.config.maxCycles ≤ 1000 := by decide
  have herror : (pageLoader.invoke (pageHost trappingCode) .fromArgs "" ()).1.error
      ≠ some .exceededMaxCycles := by
    rw [Loader.invoke_eq_report, hrun]
    exact nofun
  have hcycles : (pageLoader.invoke (pageHost trappingCode) .fromArgs "" ()).1.cycles
      < pageLoader.config.maxCycles := by
    rw [Loader.invoke_eq_report, Run.cycles_report, hrun]
    exact Nat.lt_of_le_of_lt (Nat.min_le_left _ _) (of_decide_eq_true hconsumed)
  obtain ⟨-, -, -, -, hmono⟩ := Loader.invoke_budget_mono Wasm.interpreter_spec pageLoader hle
    (pageHost trappingCode) .fromArgs "" ()
  obtain ⟨hsame, -, heq⟩ := hmono herror
  exact ⟨Wasm.interpreter_spec, hle, herror, hcycles, by rw [hsame], heq hcycles⟩

end HashLoader
