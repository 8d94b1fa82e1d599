import HashLoader.Wasm.CodeReader
import HashLoader.Wasm.Section
import HashLoader.Wasm.Typing

/-!
# Binaries

`Module.ofBinary?` reads a module from a binary and refuses binaries that are malformed or not
valid. The binary is cut into sections, custom sections are dropped, each other section is read for
itself, and the whole is checked.
-/

namespace HashLoader.Wasm

/-- Limits of the format: what a binary may have at most. -/
def maxParams : Nat := 1000
def maxResults : Nat := 1000
def maxLocals : Nat := 50000
def maxTables : Nat := 100
def maxSegments : Nat := 100000

namespace Reader

/-- Reads a function type. -/
def funcType : Reader FuncType := do
  expect [0x60]
  let params ← vec valType
  let results ← vec valType
  require (params.length ≤ maxParams && results.length ≤ maxResults)
  return { params, results }

/-- Reads limits, whose bounds may not exceed `range`. -/
def limits (range : Nat) : Reader Limits := do
  let flag ← byte
  require (flag ≤ 1)
  let min ← u32
  let max ← if flag = 1 then some <$> u32 else pure none
  require (min ≤ range && max.all fun m => min ≤ m && m ≤ range)
  return { min, max }

/-- Reads a table type. -/
def tableType : Reader TableType := do
  let element ← refType
  return { element, limits := ← limits (UInt32.size - 1) }

/-- Reads the limits of a memory. -/
def memoryType : Reader Limits := limits 65536

/-- Reads the type of a global variable. -/
def globalType : Reader GlobalType := do
  let type ← valType
  let flag ← byte
  require (flag ≤ 1)
  return { type, mutable := flag = 1 }

/-- Reads an import. -/
def importEntry (types : Array FuncType) : Reader Import := do
  let source ← name
  let itemName ← name
  let type ← match ← byte with
    | 0x00 => do pure (ExternType.function (← ofOption types[← u32]?))
    | 0x01 => ExternType.table <$> tableType
    | 0x02 => do pure (ExternType.memory { limits := ← memoryType })
    | 0x03 => ExternType.global <$> globalType
    | _ => fail
  return { source, name := itemName, type }

/-- Reads an expression that is evaluated at instantiation. -/
def initExpr : Reader InitExpr := do
  let code ← byte
  let e ← if code = 0x23 then InitExpr.global <$> u32
    else InitExpr.const <$> Token.constant code.toNat
  expect [0x0B]
  return e

/-- Reads a global variable. -/
def global : Reader Global := do
  let type ← globalType
  return { type, init := ← initExpr }

/-- Reads an export. -/
def exportEntry : Reader Export := do
  let itemName ← name
  let kind ← byte
  let index ← u32
  let item ← match kind with
    | 0x00 => pure (ExportItem.function index)
    | 0x01 => pure (ExportItem.table index)
    | 0x02 => pure (ExportItem.memory index)
    | 0x03 => pure (ExportItem.global index)
    | _ => fail
  return { name := itemName, item }

/-- Reads functions that go into the first table. -/
def elementSegment : Reader ElementSegment := do
  require ((← u32) == 0)
  let offset ← initExpr
  return { offset, functions := ← vec u32 }

/-- Reads bytes that go into the memory. -/
def dataSegment : Reader DataSegment := do
  require ((← u32) == 0)
  let offset ← initExpr
  return { offset, bytes := ← blob }

/-- Expands runs of variables of one type, which may not be too many together with `params`. -/
def expandLocals (params : Nat) (runs : List (Nat × ValType)) : Option (List ValType) :=
  if params + runs.foldr (fun run n => run.1 + n) 0 ≤ maxLocals then
    some (runs.flatMap fun (n, t) => List.replicate n t)
  else none

/-- Reads the body of a function of a type. -/
def function (types : Array FuncType) (type : FuncType) : Reader Function := do
  let runs ← vec (do return (← u32, ← valType))
  let locals ← ofOption (expandLocals type.params.length runs)
  let body ← ofOption (Code.ofBinary? types (← remaining))
  return { type, locals, body }

end Reader

namespace Module

/-- Tells whether no text occurs twice. -/
def allDistinct : List String → Bool
  | [] => true
  | s :: rest => !rest.contains s && allDistinct rest

/-- How many memories the module has, imported or its own. -/
def memoryCount (m : Module) : Nat := m.memoryTypes.length

/-- Tells whether an expression is evaluated to a value of a type. It may refer to imported
variables only, and only to those that never change. -/
def checkInit (m : Module) (t : ValType) : InitExpr → Bool
  | .const v => v.type == t
  | .global index => (m.importedGlobals[index]?).any fun g => g.type == t && !g.mutable

/-- What the code of the module may refer to, besides local variables. -/
def context (m : Module) : Context where
  functions := m.functionTypes.toArray
  tables := m.tableTypes.toArray
  hasMemory := m.memoryCount != 0
  globals := m.globalTypes.toArray
  locals := #[]
  results := []

/-- Tells whether an exported index exists. -/
def hasItem (c : Context) : ExportItem → Bool
  | .function index => index < c.functions.size
  | .table index => index < c.tables.size
  | .memory index => c.hasMemory && index == 0
  | .global index => index < c.globals.size

/-- Tells whether functions can be put into the first table. -/
def checkElement (m : Module) (c : Context) (e : ElementSegment) : Bool :=
  (c.tables[0]?).any (fun t => t.element == .functionRef) && m.checkInit .i32 e.offset &&
    e.functions.all fun f => f < c.functions.size

/-- Checks a module. -/
def isValid (m : Module) : Bool :=
  let c := m.context
  m.memoryCount ≤ 1 && c.tables.size ≤ maxTables &&
  m.elements.length ≤ maxSegments && m.data.length ≤ maxSegments &&
  m.globals.all (fun g => m.checkInit g.type.type g.init) &&
  allDistinct (m.exports.map (·.name)) &&
  m.exports.all (fun e => hasItem c e.item) &&
  m.start.all (fun f => c.functions[f]? == some ⟨[], []⟩) &&
  m.elements.all (m.checkElement c) &&
  m.data.all (fun d => c.hasMemory && m.checkInit .i32 d.offset) &&
  m.functions.all fun f => f.check c

/-- The body of the section with a number, if it is there. -/
def bodyOf? (sections : List Section) (id : UInt8) : Option Bytes :=
  (sections.find? fun s => s.id == id).map (·.body)

/-- The entries of the section with a number; a section that is missing has none. -/
def entries? {α : Type} (sections : List Section) (id : UInt8) (r : Reader α) : Option (List α) :=
  match bodyOf? sections id with
  | some body => (Reader.vec r).run? body
  | none => some []

/-- The number that a section holds, if the section is there. -/
def number? (sections : List Section) (id : UInt8) : Option (Option Nat) :=
  match bodyOf? sections id with
  | some body => (Reader.u32.run? body).map some
  | none => some none

/-- Reads functions, each from its type and the bytes of its body. -/
def functions? (types : Array FuncType) (indices : List Nat) (bodies : List Bytes) :
    Option (List Function) :=
  if indices.length = bodies.length then
    (indices.zip bodies).mapM fun (index, body) => do
      (Reader.function types (← types[index]?)).run? body
  else none

/-- Reads a module from sections, none of them custom. -/
def ofSections? (sections : List Section) : Option Module := do
  let types := (← entries? sections 1 Reader.funcType).toArray
  let imports ← entries? sections 2 (Reader.importEntry types)
  let indices ← entries? sections 3 Reader.u32
  let tables ← entries? sections 4 Reader.tableType
  let memories ← entries? sections 5 Reader.memoryType
  let globals ← entries? sections 6 Reader.global
  let exports ← entries? sections 7 Reader.exportEntry
  let start ← number? sections 8
  let elements ← entries? sections 9 Reader.elementSegment
  let count ← number? sections 12
  let bodies ← entries? sections 10 Reader.blob
  let data ← entries? sections 11 Reader.dataSegment
  let functions ← functions? types indices bodies
  let m : Module :=
    { imports, functions, tables, globals, exports, start, elements, data
      memory := memories.head? }
  if memories.length ≤ 1 && count.all (· == data.length) && m.isValid then some m else none

/-- Reads a module from a binary. -/
def ofBinary? (b : Bytes) : Option Module := do
  let sections ← Section.ofBinary? b
  let (custom, others) := sections.partition Section.isCustom
  if custom.all Section.hasName && Section.inOrder others then ofSections? others else none

end Module

end HashLoader.Wasm
