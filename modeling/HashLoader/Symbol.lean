import HashLoader.Image.Resolve

/-!
# Entry points

Loaded code has three entry points, each an exported function of a fixed name and type. A symbol is
an entry point that was found in an image. Binding it to an instance gives the function to call.
This is a test of its own: the function has to have the type that it is called with.
-/

namespace HashLoader

/-- The entry points of loaded code. All their parameters and results are 32-bit integers. -/
inductive EntryPoint
  /-- Takes the bounds of the arena and gives a context, which is not zero. -/
  | construct
  /-- Takes the context, the payload with its length, and the label, and gives a status. -/
  | evaluate
  /-- Takes the context. -/
  | teardown
deriving DecidableEq, Repr

namespace EntryPoint

/-- The name of the export. -/
def name : EntryPoint → String
  | construct => "construct"
  | evaluate => "evaluate"
  | teardown => "teardown"

/-- The number of parameters. -/
def params : EntryPoint → Nat
  | construct => 2
  | evaluate => 4
  | teardown => 1

/-- The number of results. -/
def results : EntryPoint → Nat
  | construct => 1
  | evaluate => 1
  | teardown => 0

/-- Tells whether types are `n` 32-bit integers. -/
def areWords (types : List Wasm.ValType) (n : Nat) : Bool :=
  types.length == n && types.all (· == .i32)

/-- Tells whether a function has the type of the entry point. -/
def accepts (e : EntryPoint) (t : Wasm.FuncType) : Bool :=
  areWords t.params e.params && areWords t.results e.results

/-- The type that a function has to have to be called with the values of the entry point. -/
def callType : EntryPoint → Wasm.FuncType
  | construct => ⟨[.i32, .i32], [.i32]⟩
  | evaluate => ⟨[.i32, .i32, .i32, .i32], [.i32]⟩
  | teardown => ⟨[.i32], []⟩

/-- Looks an entry point up in a module. -/
def find (C : Compiler) (e : EntryPoint) (m : C.Module) : Except LoaderError Unit :=
  match C.export? m e.name with
  | some (.function t) => if e.accepts t then .ok () else .error (.signatureMismatch e.name)
  | _ => .error (.symbolNotFound e.name)

end EntryPoint

/-- An entry point that was found in an image. -/
structure Symbol (C : Compiler) where
  image : CodeImage C
  entry : EntryPoint

namespace Symbol

/-- What a symbol is called in messages. -/
def describe {C : Compiler} (s : Symbol C) : String :=
  "Symbol \x7b name: \"" ++ s.entry.name ++ "\" \x7d"

/-- Finds an entry point in an image. -/
def find {C : Compiler} (image : CodeImage C) (entry : EntryPoint) :
    Except LoaderError (Symbol C) :=
  (entry.find C image.module).map fun _ => { image, entry }

/-- Binds a symbol to an instance: the function to call. The function is looked up again, by the
type of the call. -/
def bind {E : Engine} (s : Symbol E.toCompiler) (inst : E.Instance) : Except LoaderError E.Func :=
  match E.function? inst s.entry.name with
  | none => .error (.signatureMismatch s.entry.name)
  | some f =>
    if E.typeOf f = s.entry.callType then .ok f else .error (.signatureMismatch s.entry.name)

end Symbol

/-- The three entry points of an image. -/
structure Symbols (C : Compiler) where
  construct : Symbol C
  evaluate : Symbol C
  teardown : Symbol C

/-- Finds the three entry points in order; the first one that is not there fails. -/
def Symbols.find {C : Compiler} (image : CodeImage C) : Except LoaderError (Symbols C) := do
  let construct ← Symbol.find image .construct
  let evaluate ← Symbol.find image .evaluate
  let teardown ← Symbol.find image .teardown
  return { construct, evaluate, teardown }

end HashLoader
