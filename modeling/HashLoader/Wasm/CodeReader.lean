import HashLoader.Wasm.Module
import HashLoader.Wasm.Reader

/-!
# Reading code

In a binary, code is a flat list of operations in which constructs are opened and closed. It is read
in two steps: `tokens?` reads the flat list, `nest?` makes the tree.
-/

namespace HashLoader.Wasm

/-- The value type that a byte stands for. -/
def ValType.ofByte? (b : UInt8) : Option ValType :=
  if b = 0x7F then some .i32
  else if b = 0x7E then some .i64
  else if b = 0x7D then some .f32
  else if b = 0x7C then some .f64
  else if b = 0x7B then some .v128
  else if b = 0x70 then some .functionRef
  else if b = 0x6F then some .hostRef
  else none

/-- Reads a value type. -/
def Reader.valType : Reader ValType := do ofOption (ValType.ofByte? (← byte))

/-- Reads the type of a reference. -/
def Reader.refType : Reader ValType := do
  let t ← valType
  require t.isReference
  return t

/-- One operation of the flat form. -/
inductive Token
  /-- An instruction that encloses nothing. -/
  | plain (i : Instr)
  | block (type : FuncType)
  | loop (type : FuncType)
  | cond (type : FuncType)
  /-- Begins the second body of a condition. -/
  | otherwise
  /-- Closes the innermost construct, or the body of the function. -/
  | close
deriving Repr

namespace Token

open Reader

/-- A basic instruction as a token. -/
def ofBasic (op : Basic) : Token := .plain (.basic op)

/-- Reads the type of a construct: none, one result, or the index of a function type. -/
def blockType (types : Array FuncType) : Reader FuncType := fun s =>
  match s with
  | [] => none
  | b :: rest =>
    if b = 0x40 then some (⟨[], []⟩, .ofCons b rest)
    else
      match ValType.ofByte? b with
      | some t => some (⟨[], [t]⟩, .ofCons b rest)
      | none =>
        (do
          let index ← signed 33
          ofOption (index.toNat?.bind fun i => types[i]?)) (b :: rest)

/-- Reads alignment and offset of a memory access of `2 ^ natural` bytes and gives the offset. -/
def accessOffset (natural : Nat) : Reader Nat := do
  let align ← u32
  require (align ≤ natural)
  u32

/-- Reads a load. -/
def load (width : Width) (natural : Nat) (isSigned : Bool) : Reader Token := do
  return ofBasic (.load width (1 <<< natural) isSigned (← accessOffset natural))

/-- Reads a store. -/
def store (width : Width) (natural : Nat) : Reader Token := do
  return ofBasic (.store width (1 <<< natural) (← accessOffset natural))

/-- Reads the number of the only memory. -/
def onlyMemory (op : Basic) : Reader Token := do
  require ((← u32) == 0)
  return ofBasic op

/-- The comparisons in the order of their codes. -/
def comparisons : Array CompareOp := #[.eq, .ne, .ltS, .ltU, .gtS, .gtU, .leS, .leU, .geS, .geU]

/-- The operations on one integer in the order of their codes. -/
def unaries : Array UnaryOp := #[.clz, .ctz, .popcnt]

/-- The operations on two integers in the order of their codes. -/
def binaries : Array BinaryOp :=
  #[.add, .sub, .mul, .divS, .divU, .remS, .remU, .and, .or, .xor, .shl, .shrS, .shrU, .rotl, .rotr]

/-- The arithmetic of a width, whose codes follow one another from `first` on. -/
def arithmetic (width : Width) (first code : Nat) : Option Basic :=
  match unaries[code - first]? with
  | some op => some (.unary width op)
  | none => (binaries[code - first - unaries.size]?).map fun op => .binary width op

/-- Operations without anything after their code. -/
def simple? (code : Nat) : Option Basic :=
  if code = 0x01 then some .nop
  else if code = 0x1A then some .drop
  else if code = 0x1B then some (.select none)
  else if code = 0x45 then some (.test .w32)
  else if code < 0x46 then none
  else if code < 0x50 then (comparisons[code - 0x46]?).map fun op => .compare .w32 op
  else if code = 0x50 then some (.test .w64)
  else if code < 0x5B then (comparisons[code - 0x51]?).map fun op => .compare .w64 op
  else if code < 0x67 then none
  else if code < 0x79 then arithmetic .w32 0x67 code
  else if code < 0x8B then arithmetic .w64 0x79 code
  else if code = 0xA7 then some .wrap
  else if code = 0xAC then some (.extend true)
  else if code = 0xAD then some (.extend false)
  else if code = 0xC0 then some (.unary .w32 (.signExtend 8))
  else if code = 0xC1 then some (.unary .w32 (.signExtend 16))
  else if code = 0xC2 then some (.unary .w64 (.signExtend 8))
  else if code = 0xC3 then some (.unary .w64 (.signExtend 16))
  else if code = 0xC4 then some (.unary .w64 (.signExtend 32))
  else if code = 0xD1 then some .isNull
  else none

/-- Reads a constant whose code has been read. -/
def constant (code : Nat) : Reader Value :=
  match code with
  | 0x41 => do return .i32 (BitVec.ofInt 32 (← signed 32))
  | 0x42 => do return .i64 (BitVec.ofInt 64 (← signed 64))
  | 0x43 => do return .f32 (BitVec.ofNat 32 (← bytes 4).toNatLE)
  | 0x44 => do return .f64 (BitVec.ofNat 64 (← bytes 8).toNatLE)
  | 0xD0 => do return .null (← refType)
  | _ => fail

/-- Reads what follows the code of an operation. -/
def ofCode (types : Array FuncType) (code : Nat) : Reader Token :=
  match code with
  | 0x00 => pure (.plain .unreachable)
  | 0x02 => do return .block (← blockType types)
  | 0x03 => do return .loop (← blockType types)
  | 0x04 => do return .cond (← blockType types)
  | 0x05 => pure .otherwise
  | 0x0B => pure .close
  | 0x0C => do return .plain (.br (← u32))
  | 0x0D => do return .plain (.brIf (← u32))
  | 0x0E => do
    let labels ← vec u32
    return .plain (.brTable labels (← u32))
  | 0x0F => pure (.plain .ret)
  | 0x10 => do return .plain (.call (← u32))
  | 0x11 => do
    let type ← ofOption types[← u32]?
    return .plain (.callIndirect (← u32) type)
  | 0x1C => do
    match ← vec valType with
    | [t] => return ofBasic (.select (some t))
    | _ => fail
  | 0x20 => do return ofBasic (.localGet (← u32))
  | 0x21 => do return ofBasic (.localSet (← u32))
  | 0x22 => do return ofBasic (.localTee (← u32))
  | 0x23 => do return ofBasic (.globalGet (← u32))
  | 0x24 => do return ofBasic (.globalSet (← u32))
  | 0x28 => load .w32 2 false
  | 0x29 => load .w64 3 false
  | 0x2C => load .w32 0 true
  | 0x2D => load .w32 0 false
  | 0x2E => load .w32 1 true
  | 0x2F => load .w32 1 false
  | 0x30 => load .w64 0 true
  | 0x31 => load .w64 0 false
  | 0x32 => load .w64 1 true
  | 0x33 => load .w64 1 false
  | 0x34 => load .w64 2 true
  | 0x35 => load .w64 2 false
  | 0x36 => store .w32 2
  | 0x37 => store .w64 3
  | 0x3A => store .w32 0
  | 0x3B => store .w32 1
  | 0x3C => store .w64 0
  | 0x3D => store .w64 1
  | 0x3E => store .w64 2
  | 0x3F => onlyMemory .memorySize
  | 0x40 => onlyMemory .memoryGrow
  | 0x41 | 0x42 | 0x43 | 0x44 | 0xD0 => do return ofBasic (.const (← constant code))
  | _ => (simple? code).elim fail fun op => pure (ofBasic op)

/-- The operations of `s`, which come after those already read, last first. -/
def readOnto (types : Array FuncType) (s : Bytes) (done : List Token) : Option (List Token) :=
  match s with
  | [] => some done.reverse
  | code :: rest =>
    match ofCode types code.toNat rest with
    | none => none
    | some (t, ⟨r, _⟩) => readOnto types r (t :: done)
termination_by s.length
decreasing_by simp only [List.length_cons]; omega

/-- The operations of a body. -/
def tokens? (types : Array FuncType) (s : Bytes) : Option (List Token) := readOnto types s []

/-- A construct that is not closed yet. -/
inductive Opened
  | block
  | loop
  | yes
  /-- The second body of a condition, after the first one. -/
  | no (yes : Code)
deriving Repr

/-- The instruction that a closed construct is. -/
def Opened.close (type : FuncType) (body : Code) : Opened → Instr
  | block => .block type body
  | loop => .loop type body
  | yes => .cond type body []
  | no first => .cond type first body

/-- An open construct, its type, and the code in front of it, last instruction first. -/
structure Level where
  opened : Opened
  type : FuncType
  before : Code

/-- Makes the tree of a function body. `code` is the code of the innermost open construct so far,
last instruction first. Nothing may follow the token that closes the body. -/
def nestFrom : (tokens : List Token) → (code : Code) → (levels : List Level) → Option Code
  | [], _, _ => none
  | .plain i :: rest, code, levels => nestFrom rest (i :: code) levels
  | .block t :: rest, code, levels => nestFrom rest [] (⟨.block, t, code⟩ :: levels)
  | .loop t :: rest, code, levels => nestFrom rest [] (⟨.loop, t, code⟩ :: levels)
  | .cond t :: rest, code, levels => nestFrom rest [] (⟨.yes, t, code⟩ :: levels)
  | .otherwise :: rest, code, ⟨.yes, t, before⟩ :: levels =>
    nestFrom rest [] (⟨.no code.reverse, t, before⟩ :: levels)
  | .otherwise :: _, _, _ => none
  | .close :: rest, code, l :: levels =>
    nestFrom rest (l.opened.close l.type code.reverse :: l.before) levels
  | .close :: [], code, [] => some code.reverse
  | .close :: _ :: _, _, [] => none

/-- The tree of a function body. -/
def nest? (tokens : List Token) : Option Code := nestFrom tokens [] []

end Token

/-- Reads the code of a function body up to the end of the bytes. -/
def Code.ofBinary? (types : Array FuncType) (s : Bytes) : Option Code :=
  (Token.tokens? types s).bind Token.nest?

end HashLoader.Wasm
