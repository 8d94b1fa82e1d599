import HashLoader.Bytes
import HashLoader.Wasm.Instr

/-!
# Modules

A module as it is after reading: imports, definitions, exports and what is done when it is
instantiated. Indices count the imports of their kind first and the definitions after them.
-/

namespace HashLoader.Wasm

/-- Something that a module gives out, by its index. -/
inductive ExportItem
  | function (index : Nat)
  | table (index : Nat)
  | memory (index : Nat)
  | global (index : Nat)
deriving DecidableEq, Repr

/-- A name under which a module gives something out. -/
structure Export where
  name : String
  item : ExportItem
deriving DecidableEq, Repr

/-- An expression that is evaluated at instantiation. -/
inductive InitExpr
  | const (v : Value)
  | global (index : Nat)
deriving DecidableEq, Repr

/-- A function of the module. -/
structure Function where
  type : FuncType
  /-- The variables besides the parameters. -/
  locals : List ValType
  body : Code
deriving Repr

/-- A global variable and its first value. -/
structure Global where
  type : GlobalType
  init : InitExpr
deriving DecidableEq, Repr

/-- Functions to put into a table at instantiation. -/
structure ElementSegment where
  offset : InitExpr
  functions : List Nat
deriving DecidableEq, Repr

/-- Bytes to put into the memory at instantiation. -/
structure DataSegment where
  offset : InitExpr
  bytes : Bytes
deriving DecidableEq, Repr

/-- A module. -/
structure Module where
  imports : List Import
  functions : List Function
  tables : List TableType
  /-- The memory that the module defines itself, if it does. -/
  memory : Option Limits
  globals : List Global
  exports : List Export
  start : Option Nat
  elements : List ElementSegment
  data : List DataSegment
deriving Repr

namespace Module

/-- The types of the imported functions, in order. -/
def importedFunctions (m : Module) : List FuncType :=
  m.imports.filterMap fun i => match i.type with
    | .function t => some t
    | _ => none

/-- The types of all functions. -/
def functionTypes (m : Module) : List FuncType :=
  m.importedFunctions ++ m.functions.map (·.type)

/-- Tells whether the memory of the module is an import. -/
def importsMemory (m : Module) : Bool :=
  m.imports.any fun i => match i.type with
    | .memory _ => true
    | _ => false

/-- The types of all tables. -/
def tableTypes (m : Module) : List TableType :=
  (m.imports.filterMap fun i => match i.type with
    | .table t => some t
    | _ => none) ++ m.tables

/-- The types of all memories. -/
def memoryTypes (m : Module) : List MemoryType :=
  (m.imports.filterMap fun i => match i.type with
    | .memory t => some t
    | _ => none) ++ m.memory.toList.map fun l => { limits := l }

/-- The types of the imported global variables. -/
def importedGlobals (m : Module) : List GlobalType :=
  m.imports.filterMap fun i => match i.type with
    | .global t => some t
    | _ => none

/-- The types of all global variables. -/
def globalTypes (m : Module) : List GlobalType := m.importedGlobals ++ m.globals.map (·.type)

/-- What the module gives out under a name. -/
def exported? (m : Module) (name : String) : Option ExportItem :=
  (m.exports.find? fun e => e.name == name).map (·.item)

/-- The function that the module gives out under a name: its index and type. -/
def exportedFunction? (m : Module) (name : String) : Option (Nat × FuncType) :=
  match m.exported? name with
  | some (.function index) => (m.functionTypes[index]?).map fun t => (index, t)
  | _ => none

/-- The type of what the module gives out under a name. -/
def exportType? (m : Module) (name : String) : Option ExternType :=
  match m.exported? name with
  | some (.function _) => (m.exportedFunction? name).map fun (_, t) => .function t
  | some (.table index) => (m.tableTypes[index]?).map .table
  | some (.memory index) => (m.memoryTypes[index]?).map .memory
  | some (.global index) => (m.globalTypes[index]?).map .global
  | none => none

end Module

end HashLoader.Wasm
