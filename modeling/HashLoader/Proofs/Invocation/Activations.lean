import HashLoader.Proofs.Invocation.Faults
import HashLoader.Proofs.Wasm.Interpreter
import HashLoader.Proofs.Wasm.Messages

/-!
# The calls of code in an invocation

On the interpreter a request comes down to a call from outside: that of the start function, or that
of an entry point (`Request.activation?`). Without one nothing runs (`Request.idle_of_none`), and
with one the request leaves what the call leaves (`Request.left_of_activation`). So the log of an
invocation gives all its calls of code, `Loader.activations`, and what is known of requests is known
of them.
-/

namespace HashLoader

open Wasm (Activation)

/-! ## Requests -/

namespace Request

/-- The call from outside that a request comes down to, if it runs code. -/
def activation? : Request Wasm.interpreter → Option Activation
  | start _ m store => m.startCall? store
  | call _ f args store => some (f.activation args store)

variable {x : Request Wasm.interpreter} {a : Activation}

/-- A request leaves what its call leaves. -/
theorem left_of_activation (h : x.activation? = some a) : x.left = (a.result x.budget).2 := by
  cases x with
  | start budget m store => exact Wasm.Module.store_run h budget
  | call budget f args store =>
    obtain rfl := Option.some.inj h
    exact f.store_call budget args store

/-- Before its call only segments are written. -/
theorem idle_of_activation (h : x.activation? = some a) : x.store.Idle a.store := by
  cases x with
  | start budget m store => exact Wasm.Module.idle_startCall h
  | call budget f args store =>
    obtain rfl := Option.some.inj h
    exact ⟨rfl, rfl, rfl⟩

/-- A request without a call runs no code. -/
theorem idle_of_none (h : x.activation? = none) : x.store.Idle x.left := by
  cases x with
  | start budget m store =>
    obtain ⟨a, ha, -⟩ | ⟨-, result, left, hrun, hidle, -⟩ := m.run_cases store
    · cases h.symm.trans ha
    · show store.Idle (m.run budget store).2
      rw [hrun]
      exact hidle
  | call budget f args store => cases h

/-- A request fails as its call does. -/
theorem fails_of_activation {why : Wasm.Failure} (h : x.activation? = some a)
    (hfailed : (a.result x.budget).1 = .failed why) : x.Fails why.error := by
  cases x with
  | start budget m store =>
    have hfailed' : (a.result budget).1 = .failed why := hfailed
    show (m.run budget store).1 = .error why.error
    rw [Wasm.Module.run, Wasm.Module.instantiate_of_startCall h]
    rcases hresult : a.result budget with ⟨outcome, left⟩
    rw [hresult] at hfailed'
    obtain rfl : outcome = .failed why := hfailed'
    rfl
  | call budget f args store =>
    obtain rfl := Option.some.inj h
    exact Wasm.Func.call_eq_error_iff.2 ⟨why, hfailed, rfl⟩

/-- And only if it traps, a request can fail without a call. -/
theorem exists_activation_of_fails {e : EngineError} (h : x.Fails e)
    (he : ∀ reason, e ≠ .trap reason) :
    ∃ a why, x.activation? = some a ∧ (a.result x.budget).1 = .failed why ∧ why.error = e := by
  cases x with
  | start budget m store =>
    obtain ⟨a, why, ha, hfailed, hwhy, -⟩ := Wasm.Module.run_eq_error he h
    exact ⟨a, why, ha, hfailed, hwhy⟩
  | call budget f args store =>
    obtain ⟨why, hfailed, hwhy⟩ := Wasm.Func.call_eq_error_iff.1 h
    exact ⟨_, why, rfl, hfailed, hwhy⟩

/-- A request that runs a module makes its call on the instance of the module. -/
theorem Runs.inst_eq {m : Wasm.Module} (h : x.Runs m) (ha : x.activation? = some a) :
    a.inst = m.toInstance := by
  cases h with
  | @start env linked budget store hlink =>
    obtain ⟨rfl, -⟩ := Wasm.Module.link_eq_ok_iff.1 hlink
    exact Wasm.Module.inst_of_startCall ha
  | @call env linked budget budget' first left store inst name f args hlink hstart hf =>
    obtain ⟨rfl, -⟩ := Wasm.Module.link_eq_ok_iff.1 hlink
    obtain rfl := Wasm.Module.eq_of_run hstart
    obtain ⟨found, -, rfl⟩ := Option.map_eq_some_iff.1 hf
    obtain rfl := Option.some.inj ha
    rfl

end Request

/-! ## Invocations -/

/-- The call of an entry point as a call from outside. -/
def Guest.activation (g : Guest Wasm.interpreter) (c : EntryCall) : Activation :=
  (g.function c.entry).activation c.values g.store

/-- This is what its request comes down to. -/
theorem Guest.activation?_request (budget : Nat) (g : Guest Wasm.interpreter) (c : EntryCall) :
    (Guest.request budget (g, c)).activation? = some (g.activation c) := rfl

/-- A call of an entry point leaves the store that its function leaves. -/
theorem Guest.store_call (budget : Nat) (g : Guest Wasm.interpreter) (c : EntryCall) :
    (g.call budget c).2.store = ((g.activation c).result budget).2 := by
  rw [Guest.call_eq]
  exact Wasm.Func.store_call budget _ _ _

namespace Loader

variable {σ : Type} (loader : Loader Wasm.interpreter) (host : Host σ) (payload : Payload)
  (label : String) (s : σ)

/-- The call of the start function in an invocation. -/
def startCall? : Option Activation :=
  (loader.startRequest? host payload label s).bind Request.activation?

/-- All calls of code in an invocation, in order. -/
def activations : List Activation :=
  (loader.log host payload label s).filterMap Request.activation?

variable {loader host payload label s}

/-- They are the call of the start function and those of entry points. -/
theorem activations_eq : loader.activations host payload label s
    = (loader.startCall? host payload label s).toList ++
      (loader.entryCalls host payload label s).map fun (g, c) => g.activation c := by
  have hcalls : (Request.activation? ∘ Guest.request (E := Wasm.interpreter) loader.config.maxCycles)
      = some ∘ fun (g, c) => g.activation c := rfl
  rw [activations, log_eq, List.filterMap_append, List.filterMap_map, hcalls, List.filterMap_eq_map,
    startCall?]
  cases loader.startRequest? host payload label s with
  | none => rfl
  | some x =>
    rw [Option.toList_some, List.filterMap_cons, Option.bind_some]
    cases x.activation? with
    | none => rfl
    | some a => rfl

/-- A call of code is that of a request, and gets the budget of the loader. -/
theorem exists_request {a : Activation} (h : a ∈ loader.activations host payload label s) :
    ∃ x ∈ loader.log host payload label s, x.activation? = some a ∧
      x.budget = loader.config.maxCycles := by
  obtain ⟨x, hx, ha⟩ := List.mem_filterMap.1 h
  exact ⟨x, hx, ha, budget_of_mem_log hx⟩

/-- The call of the start function is that of the start. -/
theorem exists_start_request {a : Activation}
    (h : loader.startCall? host payload label s = some a) :
    ∃ x, loader.startRequest? host payload label s = some x ∧ x.activation? = some a ∧
      x.budget = loader.config.maxCycles := by
  obtain ⟨x, hx, ha⟩ := Option.bind_eq_some_iff.1 h
  exact ⟨x, hx, ha, budget_of_mem_log (mem_log_of_start hx)⟩

/-- The calls of entry points are calls of code. -/
theorem mem_activations {g : Guest Wasm.interpreter} {c : EntryCall}
    (h : (g, c) ∈ loader.entryCalls host payload label s) :
    g.activation c ∈ loader.activations host payload label s :=
  List.mem_filterMap.2 ⟨_, mem_log_of_call h, rfl⟩

end Loader

end HashLoader
