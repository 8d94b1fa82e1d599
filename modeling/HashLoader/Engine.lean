import HashLoader.Wasm.Memory

/-!
# Engines

Code is compiled and run by an engine, which the loader does not look into. A `Compiler` is the part
of it that makes modules and tells what they ask for and give out. An `Engine` also links modules
with what an environment offers, starts them and calls their functions. All that running code
changes is in a store: the engine counts the cycles there, and keeps the messages of the code.

A module is linked before anything of it runs. It is linked by its imports alone, so linking takes
no store. Starting a linked module writes its segments and runs its start function.
-/

namespace HashLoader

namespace Wasm

/-- The type of the function that sends messages: an address and a length, and no result. -/
def debugType : FuncType := ⟨[.i32, .i32], []⟩

/-- Something that an environment offers. -/
inductive Offer
  /-- The shared memory. -/
  | memory
  /-- The function that sends messages. -/
  | debug
deriving DecidableEq, Repr

/-- What code is linked with. -/
structure Environment where
  /-- The offers by source and name. -/
  offers : List (String × String × Offer)
  /-- The shared memory. -/
  memory : Memory

/-- The environment that offers nothing. -/
def Environment.empty : Environment := ⟨[], .ofLimits ⟨0, some 0⟩⟩

/-- Tells whether an offer is what an import asks for. A memory has to be of the usual kind, and
have as many pages as asked for, and it may not be able to grow further than asked for. -/
def Offer.fits (memory : Memory) : Offer → ExternType → Bool
  | debug, .function t => t == debugType
  | .memory, .memory t =>
    !t.wide && !t.shared && t.pageSize == memoryPage && t.limits.min ≤ memory.pages
      && t.limits.max.all fun most => memory.maxPages ≤ most
  | _, _ => false

/-- Tells whether an import finds an offer that fits, by its two names and its type. -/
def Environment.provides (env : Environment) (i : Import) : Bool :=
  env.offers.any fun (source, name, offer) =>
    source == i.source && name == i.name && offer.fits env.memory i.type

end Wasm

/-- Why an engine did not do what it was asked to. -/
inductive EngineError
  /-- The budget is used up. -/
  | outOfCycles
  /-- Code trapped. -/
  | trap (reason : String)
  /-- Anything else. A function of the host that fails is handed on like this. -/
  | other (reason : String)
deriving DecidableEq, Repr

/-- What makes modules of code. -/
structure Compiler where
  /-- What code is compiled to. -/
  Module : Type
  compile : Bytes → Except String Module
  /-- What a module asks for, in order. -/
  imports : Module → List Wasm.Import
  /-- The type of what a module gives out under a name. -/
  export? : Module → String → Option Wasm.ExternType

/-- What runs code. -/
structure Engine extends Compiler where
  /-- A module whose imports are settled. -/
  Linked : Type
  /-- A module that was started. -/
  Instance : Type
  /-- A function of an instance. -/
  Func : Type
  /-- All that running code changes. -/
  Store : Type
  /-- A store in which nothing has run, and whether it keeps messages. -/
  newStore : (captures : Bool) → Store
  /-- Adds a memory to share with code. -/
  addMemory : Wasm.Memory → Store → Store
  link : Wasm.Environment → Module → Except String Linked
  /-- Makes an instance. All code in the store together may use up a budget of cycles. -/
  start : (budget : Nat) → Linked → Store → Except EngineError Instance × Store
  /-- The function that an instance gives out under a name. -/
  function? : Instance → String → Option Func
  typeOf : Func → Wasm.FuncType
  /-- Calls a function, first argument first. -/
  call : (budget : Nat) → Func → List Wasm.Value → Store →
    Except EngineError (List Wasm.Value) × Store
  /-- The cycles that code has used up so far. -/
  consumed : Store → Nat
  /-- The messages kept so far, oldest first. -/
  messages : Store → List String

end HashLoader
