import HashLoader.Proofs.Engine.Spec

/-!
# What an engine is asked to do

Code runs only where an engine is asked to start a module or to call a function. A `Request` is one
or the other, with the store that it is made in. `Engine.recorded` is the engine that keeps a log of
its requests beside its store, and does all else like the engine itself. So a log does not say what
the loader claims that it asked for, but what it did ask for.

One request is made in the store that the one before it left: a log is a `Thread`. On a thread the
costs of the requests add up.
-/

namespace HashLoader

/-- Something that an engine is asked to do with code. -/
inductive Request (E : Engine)
  /-- To start a linked module. -/
  | start (budget : Nat) (linked : E.Linked) (store : E.Store)
  /-- To call a function. -/
  | call (budget : Nat) (f : E.Func) (args : List Wasm.Value) (store : E.Store)

namespace Request

variable {E : Engine}

/-- The cycles that all code may use up together. -/
def budget : Request E → Nat
  | start budget _ _ | call budget _ _ _ => budget

/-- The store that the request is made in. -/
def store : Request E → E.Store
  | start _ _ store | call _ _ _ store => store

/-- The store that the engine leaves. -/
def left : Request E → E.Store
  | start budget linked store => (E.start budget linked store).2
  | call budget f args store => (E.call budget f args store).2

/-- The engine does not do what it is asked to. -/
def Fails : Request E → EngineError → Prop
  | start budget linked store, e => (E.start budget linked store).1 = .error e
  | call budget f args store, e => (E.call budget f args store).1 = .error e

/-- The cycles that a request uses up. -/
def cost (x : Request E) : Nat := E.consumed x.left - E.consumed x.store

/-- The cycles that requests use up together. -/
def totalCost : List (Request E) → Nat
  | [] => 0
  | x :: rest => x.cost + totalCost rest

/-- A request uses up its cost. -/
theorem consumed_left (hE : E.Spec) (x : Request E) :
    E.consumed x.left = E.consumed x.store + x.cost := by
  have hle : E.consumed x.store ≤ E.consumed x.left := by
    cases x with
    | start budget linked store => exact hE.consumed_start_le budget linked store
    | call budget f args store => exact hE.consumed_call_le budget f args store
  exact (Nat.add_sub_of_le hle).symm

/-- A request that is broken off leaves nothing of its budget. -/
theorem budget_le (hE : E.Spec) {x : Request E} (h : x.Fails .outOfCycles) :
    x.budget ≤ E.consumed x.left := by
  cases x with
  | start budget linked store => exact hE.budget_le_of_start budget linked store h
  | call budget f args store => exact hE.budget_le_of_call budget f args store h

end Request

/-! ## Recorded engines -/

/-- The engine that keeps a log of what it is asked to do. -/
abbrev Engine.recorded (E : Engine) : Engine where
  toCompiler := E.toCompiler
  Linked := E.Linked
  Instance := E.Instance
  Func := E.Func
  Store := E.Store × List (Request E)
  newStore captures := (E.newStore captures, [])
  addMemory memory s := (E.addMemory memory s.1, s.2)
  link := E.link
  start budget linked s :=
    ((E.start budget linked s.1).1, (E.start budget linked s.1).2,
      s.2 ++ [.start budget linked s.1])
  function? := E.function?
  typeOf := E.typeOf
  call budget f args s :=
    ((E.call budget f args s.1).1, (E.call budget f args s.1).2, s.2 ++ [.call budget f args s.1])
  consumed s := E.consumed s.1
  messages s := E.messages s.1

/-! ## Threads -/

/-- Requests one after another, each in the store that the one before it left. -/
inductive Thread {E : Engine} : E.Store → List (Request E) → E.Store → Prop
  | nil {s : E.Store} : Thread s [] s
  | cons {x : Request E} {rest : List (Request E)} {last : E.Store} :
      Thread x.left rest last → Thread x.store (x :: rest) last

namespace Thread

variable {E : Engine} {first middle last : E.Store} {log front back : List (Request E)} {x : Request E}

/-- A request alone is a thread. -/
theorem single (x : Request E) : Thread x.store [x] x.left := .cons .nil

/-- One thread goes on where another one ends. -/
theorem append (h : Thread first front middle) (h' : Thread middle back last) :
    Thread first (front ++ back) last := by
  induction h with
  | nil => exact h'
  | cons hrest ih => exact .cons (ih h')

/-- A thread can be cut between any two requests. -/
theorem exists_of_append (h : Thread first (front ++ back) last) :
    ∃ middle, Thread first front middle ∧ Thread middle back last := by
  induction front generalizing first with
  | nil => exact ⟨first, .nil, h⟩
  | cons x rest ih =>
    cases h with
    | cons hrest =>
      obtain ⟨middle, hfront, hback⟩ := ih hrest
      exact ⟨middle, .cons hfront, hback⟩

/-- At the end of a thread all its requests are paid for. -/
theorem consumed_eq (hE : E.Spec) (h : Thread first log last) :
    E.consumed last = E.consumed first + Request.totalCost log := by
  induction h with
  | nil => rfl
  | @cons x rest last hrest ih =>
    rw [ih, x.consumed_left hE, Request.totalCost, Nat.add_assoc]

/-- A request is made in the store in which those before it are paid for. -/
theorem consumed_of_request (hE : E.Spec) (h : Thread first (front ++ x :: back) last) :
    E.consumed x.store = E.consumed first + Request.totalCost front := by
  obtain ⟨middle, hfront, hback⟩ := h.exists_of_append
  cases hback with
  | cons hrest => exact hfront.consumed_eq hE

/-- What is used up by a request stays used up. -/
theorem consumed_le_of_mem (hE : E.Spec) (h : Thread first log last) (hx : x ∈ log) :
    E.consumed x.left ≤ E.consumed last := by
  obtain ⟨front, back, rfl⟩ := List.append_of_mem hx
  obtain ⟨middle, -, hback⟩ := h.exists_of_append
  cases hback with
  | cons hrest =>
    rw [hrest.consumed_eq hE]
    exact Nat.le_add_right _ _

end Thread

end HashLoader
