/-!
# Values and types

The types of WebAssembly are those that a module can ask for or give out. The integers are bit
vectors. Vectors, floating-point values and references occur in signatures, constants and variables
only, so they are carried around and never computed with.
-/

namespace HashLoader.Wasm

/-- The type of a value. -/
inductive ValType
  | i32
  | i64
  | f32
  | f64
  | v128
  | functionRef
  | hostRef
  /-- Any other reference, by the text of what it may refer to. -/
  | reference (heap : String)
deriving DecidableEq, Repr

/-- A value. -/
inductive Value
  | i32 (v : BitVec 32)
  | i64 (v : BitVec 64)
  /-- A single-precision number by its bits. -/
  | f32 (bits : BitVec 32)
  /-- A double-precision number by its bits. -/
  | f64 (bits : BitVec 64)
  | v128 (bits : BitVec 128)
  /-- A reference that refers to nothing. -/
  | null (type : ValType)
deriving DecidableEq, Repr

/-- Tells whether values of the type are references. -/
def ValType.isReference : ValType → Bool
  | functionRef | hostRef | reference _ => true
  | i32 | i64 | f32 | f64 | v128 => false

/-- The value that variables of the type start with. -/
def ValType.zero : ValType → Value
  | i32 => .i32 0
  | i64 => .i64 0
  | f32 => .f32 0
  | f64 => .f64 0
  | v128 => .v128 0
  | functionRef => .null .functionRef
  | hostRef => .null .hostRef
  | reference heap => .null (.reference heap)

/-- The type of a value. -/
def Value.type : Value → ValType
  | i32 _ => .i32
  | i64 _ => .i64
  | f32 _ => .f32
  | f64 _ => .f64
  | v128 _ => .v128
  | null t => t

/-- What a function takes and what it gives. -/
structure FuncType where
  params : List ValType
  results : List ValType
deriving DecidableEq, Repr

/-- How large something is at first and how large it may grow. -/
structure Limits where
  min : Nat
  max : Option Nat
deriving DecidableEq, Repr

/-- The type of a table: what it holds and how many of it. -/
structure TableType where
  element : ValType
  limits : Limits
  /-- Whether its entries are addressed with 64 bits. -/
  wide : Bool := false
deriving DecidableEq, Repr

/-- The length of a memory page in bytes. -/
def memoryPage : Nat := 65536

theorem memoryPage_pos : 0 < memoryPage := by decide

/-- The type of a memory: how many pages it has, and of which kind it is. -/
structure MemoryType where
  limits : Limits
  /-- Whether its bytes are addressed with 64 bits. -/
  wide : Bool := false
  /-- Whether threads share it. -/
  shared : Bool := false
  /-- The length of its pages in bytes. -/
  pageSize : Nat := memoryPage
deriving DecidableEq, Repr

/-- The type of a global variable. -/
structure GlobalType where
  type : ValType
  mutable : Bool
deriving DecidableEq, Repr

/-- The type of something that a module asks for or gives out. -/
inductive ExternType
  | function (type : FuncType)
  | table (type : TableType)
  | memory (type : MemoryType)
  | global (type : GlobalType)
  /-- The tag of an exception, with the values that it carries. -/
  | tag (type : FuncType)
deriving DecidableEq, Repr

/-- Something that a module asks for, by two names. -/
structure Import where
  source : String
  name : String
  type : ExternType
deriving DecidableEq, Repr

end HashLoader.Wasm
