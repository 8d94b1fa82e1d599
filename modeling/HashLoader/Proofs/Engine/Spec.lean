import HashLoader.Engine

/-!
# What the loader may expect of an engine

`Engine.Spec` states the documented behaviour of an engine that theorems about the loader rely on: a
fresh store counts nothing, linking looks at imports alone, an instance gives out the functions that
its module exports, and the cycles that code costs do not depend on the budget. Each theorem that
needs more of an engine than its operations takes it from here. `Wasm.interpreter_spec` shows that
the interpreter behaves so.
-/

namespace HashLoader

/-- The failure of the function that sends messages, as the engine hands it on. -/
def messageFailure : EngineError := .other "debug: out of bounds memory access"

/-- What the loader may expect of an engine. -/
structure Engine.Spec (E : Engine) : Prop where
  /-- In a new store no cycles are used up. -/
  consumed_newStore : ∀ captures, E.consumed (E.newStore captures) = 0
  /-- There are no messages in it. -/
  messages_newStore : ∀ captures, E.messages (E.newStore captures) = []
  /-- To add a memory runs no code, so it uses up no cycles. -/
  consumed_addMemory : ∀ memory s, E.consumed (E.addMemory memory s) = E.consumed s
  /-- No message comes of it either. -/
  messages_addMemory : ∀ memory s, E.messages (E.addMemory memory s) = E.messages s
  /-- A module is linked if each of its imports finds an offer of its two names and its type. -/
  link_iff : ∀ env m, (∃ linked, E.link env m = .ok linked) ↔
    ∀ i ∈ E.imports m, env.provides i = true
  /-- An instance gives out the functions that its module exports, with their types. -/
  function_iff : ∀ {env m linked budget s inst s'}, E.link env m = .ok linked →
    E.start budget linked s = (.ok inst, s') → ∀ name t,
      (∃ f, E.function? inst name = some f ∧ E.typeOf f = t) ↔
        E.export? m name = some (.function t)
  /-- Starting a module gives no cycles back. -/
  consumed_start_le : ∀ budget linked s, E.consumed s ≤ E.consumed (E.start budget linked s).2
  /-- Neither does a call. -/
  consumed_call_le : ∀ budget f args s, E.consumed s ≤ E.consumed (E.call budget f args s).2
  /-- A start is broken off only when the budget is used up. -/
  budget_le_of_start : ∀ budget linked s, (E.start budget linked s).1 = .error .outOfCycles →
    budget ≤ E.consumed (E.start budget linked s).2
  /-- So is a call. -/
  budget_le_of_call : ∀ budget f args s, (E.call budget f args s).1 = .error .outOfCycles →
    budget ≤ E.consumed (E.call budget f args s).2
  /-- Code runs in the same way and costs the same under a larger budget, unless it was broken off.
  -/
  start_of_le : ∀ {budget budget' linked s}, budget ≤ budget' →
    (E.start budget linked s).1 ≠ .error .outOfCycles →
    E.start budget' linked s = E.start budget linked s
  /-- So does a call. -/
  call_of_le : ∀ {budget budget' f args s}, budget ≤ budget' →
    (E.call budget f args s).1 ≠ .error .outOfCycles →
    E.call budget' f args s = E.call budget f args s
  /-- What fails in a start function, other than by a trap or for want of cycles, is the function
  that sends messages, and its failure is handed on. -/
  other_of_start : ∀ {budget linked s reason},
    (E.start budget linked s).1 = .error (.other reason) → .other reason = messageFailure
  /-- So it is in a call. -/
  other_of_call : ∀ {budget f args s reason},
    (E.call budget f args s).1 = .error (.other reason) → .other reason = messageFailure

namespace Engine.Spec

variable {E : Engine} (hE : E.Spec)
include hE

/-- Cycles and messages of a new store with a memory. -/
theorem fresh (memory : Wasm.Memory) (captures : Bool) :
    E.consumed (E.addMemory memory (E.newStore captures)) = 0 ∧
      E.messages (E.addMemory memory (E.newStore captures)) = [] := by
  rw [hE.consumed_addMemory, hE.messages_addMemory]
  exact ⟨hE.consumed_newStore captures, hE.messages_newStore captures⟩

end Engine.Spec

end HashLoader
