import HashLoader.Wasm.Arith

/-!
# Instructions

A `Basic` instruction acts on operands, variables and memory and then goes on with what follows. All
other instructions transfer control; those that enclose code hold it as a list, so that code is a
tree and a branch names an enclosing construct by the number of constructs in between.

The set is the integer part of WebAssembly with constants of every type.
-/

namespace HashLoader.Wasm

/-- Instructions that do not transfer control. -/
inductive Basic
  | nop
  | drop
  /-- Takes a condition and two operands and keeps one of the two. Without a type the operands have
  to be numbers. -/
  | select (type : Option ValType)
  | const (v : Value)
  /-- Compares an integer with zero. -/
  | test (width : Width)
  | unary (width : Width) (op : UnaryOp)
  | binary (width : Width) (op : BinaryOp)
  | compare (width : Width) (op : CompareOp)
  /-- The low half of a 64-bit integer. -/
  | wrap
  /-- A 32-bit integer as a 64-bit one. -/
  | extend (signed : Bool)
  /-- Tells whether a reference refers to nothing. -/
  | isNull
  | localGet (index : Nat)
  | localSet (index : Nat)
  | localTee (index : Nat)
  | globalGet (index : Nat)
  | globalSet (index : Nat)
  /-- Loads `size` bytes as an integer. -/
  | load (width : Width) (size : Nat) (signed : Bool) (offset : Nat)
  /-- Stores the low `size` bytes of an integer. -/
  | store (width : Width) (size : Nat) (offset : Nat)
  | memorySize
  | memoryGrow
deriving DecidableEq, Repr

/-- Instructions. -/
inductive Instr
  | basic (op : Basic)
  | unreachable
  /-- Runs the body; a branch to it goes on after it. -/
  | block (type : FuncType) (body : List Instr)
  /-- Runs the body; a branch to it starts it again. -/
  | loop (type : FuncType) (body : List Instr)
  /-- Takes a condition and runs one of two bodies. -/
  | cond (type : FuncType) (yes no : List Instr)
  | br (label : Nat)
  | brIf (label : Nat)
  | brTable (labels : List Nat) (default : Nat)
  | ret
  | call (function : Nat)
  | callIndirect (table : Nat) (type : FuncType)
deriving Repr

/-- Code: instructions to run one after another. -/
abbrev Code := List Instr

/-- What an instruction costs. Structure is free, all else costs one unit. -/
def Basic.cost : Basic → Nat
  | nop | drop => 0
  | _ => 1

mutual
/-- A size of instructions that every step of straight running makes smaller. -/
def Instr.weight : Instr → Nat
  | .block _ body => 2 + Code.weight body
  | .loop _ body => 2 + Code.weight body
  | .cond _ yes no => 2 + Code.weight yes + Code.weight no
  | _ => 1

/-- The size of code. -/
def Code.weight : List Instr → Nat
  | [] => 0
  | i :: rest => i.weight + Code.weight rest
end

end HashLoader.Wasm
