import HashLoader.Wasm.Run

/-!
# Instances

A module is linked if every one of its imports finds an offer that fits. Then its memory, tables and
global variables are set up, the segments are written one at a time, and the start function runs;
only this last step runs code.
-/

namespace HashLoader.Wasm

/-- The value of an expression, given the values of the global variables. -/
def InitExpr.eval (globals : Array Value) : InitExpr → Value
  | const v => v
  | global index => globals.getD index (.i32 0)

/-- The value of an expression as an address. -/
def InitExpr.address (globals : Array Value) (e : InitExpr) : Nat :=
  match e.eval globals with
  | .i32 v => v.toNat
  | _ => 0

namespace Store

/-- Puts functions into the first table. -/
def putElements (s : Store) (e : ElementSegment) : Except Trap Store :=
  match (s.tables[0]?).bind fun t => t.put (e.offset.address s.globals) e.functions with
  | some filled => .ok { s with tables := s.tables.setIfInBounds 0 filled }
  | none => .error .tableOutOfBounds

/-- Puts bytes into the memory of a module. -/
def putData (usesShared : Bool) (s : Store) (d : DataSegment) : Except Trap Store :=
  let address := d.offset.address s.globals
  if (s.memory usesShared).contains address d.bytes.length then
    .ok (s.mapMemory usesShared fun m => m.put address d.bytes)
  else .error .memoryOutOfBounds

end Store

namespace Module

/-- The functions of an instance: imported ones send messages. -/
def callees (m : Module) : Array Callee :=
  (m.importedFunctions.map (fun _ => Callee.debug) ++ m.functions.map Callee.code).toArray

/-- The module with its imports settled. -/
def toInstance (m : Module) : Instance := ⟨m.callees, m.importsMemory⟩

/-- Settles the imports, if each of them finds an offer that fits. -/
def link (env : Environment) (m : Module) : Except String Module :=
  match m.imports.find? fun i => !env.provides i with
  | some missing => .error ("no import fits " ++ missing.source ++ "." ++ missing.name)
  | none => .ok m

/-- The store before the segments are written. -/
def initialStore (m : Module) (s : Store) : Store :=
  { s with
    own := .ofLimits (m.memory.getD ⟨0, some 0⟩)
    globals := (m.globals.map fun g => g.init.eval #[]).toArray
    tables := (m.tables.map fun t => Table.ofSize t.limits.min).toArray }

/-- The store after the segments are written. -/
def initializedStore (m : Module) (s : Store) : Except Trap Store := do
  let s ← m.elements.foldlM Store.putElements (m.initialStore s)
  m.data.foldlM (Store.putData m.importsMemory) s

/-- Makes an instance. The store is given also when that fails, since the start function may have
sent messages and used up cycles. -/
def instantiate (budget : Nat) (m : Module) (s : Store) : Except Failure Instance × Store :=
  match m.initializedStore s with
  | .error cause => (.error (.trap cause), s)
  | .ok store =>
    match m.start with
    | none => (.ok m.toInstance, store)
    | some index =>
      match m.toInstance.invoke budget index [] store with
      | (.finished _, store) => (.ok m.toInstance, store)
      | (.failed why, store) => (.error why, store)

end Module

end HashLoader.Wasm
