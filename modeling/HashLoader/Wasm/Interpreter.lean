import HashLoader.Wasm.Binary
import HashLoader.Wasm.Instance

/-!
# The interpreter as an engine

The interpreter is an engine for the part of WebAssembly that it knows: the machine with integers,
one memory, and the segments that are written when a module is started. An instance is known by its
module, since all that it can change is in the store.
-/

namespace HashLoader.Wasm

/-- A failure as that of an engine. A message that lies outside the memory is a failure of the host.
-/
def Failure.error : Failure → EngineError
  | outOfCycles => .outOfCycles
  | messageOutOfBounds => .other (describe messageOutOfBounds)
  | why => .trap why.describe

/-- A function of an instance. -/
structure Func where
  inst : Instance
  index : Nat
  type : FuncType

namespace Module

/-- Reads a module from a binary, or says that it is none. -/
def compile (b : Bytes) : Except String Module :=
  match ofBinary? b with
  | some m => .ok m
  | none => .error "the code is no valid module"

/-- The function that the instance of the module gives out under a name. -/
def function? (m : Module) (name : String) : Option Func :=
  (m.exportedFunction? name).map fun (index, type) => ⟨m.toInstance, index, type⟩

/-- Starts a linked module. -/
def run (budget : Nat) (m : Module) (s : Store) : Except EngineError Module × Store :=
  match m.instantiate budget s with
  | (.ok _, s) => (.ok m, s)
  | (.error why, s) => (.error why.error, s)

end Module

/-- Calls a function, first argument first. -/
def Func.call (budget : Nat) (f : Func) (args : List Value) (s : Store) :
    Except EngineError (List Value) × Store :=
  match f.inst.invoke budget f.index args s with
  | (.finished results, s) => (.ok results, s)
  | (.failed why, s) => (.error why.error, s)

/-- The interpreter. -/
abbrev interpreter : Engine where
  Module := Module
  compile := Module.compile
  imports := Module.imports
  export? := Module.exportType?
  Linked := Module
  Instance := Module
  Func := Func
  Store := Store
  newStore := Store.new
  addMemory memory s := s.withShared memory
  link := Module.link
  start := Module.run
  function? := Module.function?
  typeOf := Func.type
  call := Func.call
  consumed := Store.consumed
  messages s := s.messages.toList

end HashLoader.Wasm
