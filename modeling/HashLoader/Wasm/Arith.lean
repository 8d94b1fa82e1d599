import HashLoader.Wasm.Value

/-!
# Integer arithmetic

The operations on integers of either width. Arithmetic wraps around. Shift and rotation amounts are
taken modulo the width. Division is the only operation that can fail: by zero, and when the
quotient of two signed numbers does not fit.
-/

namespace HashLoader.Wasm

/-- The two widths of integers. -/
inductive Width
  | w32
  | w64
deriving DecidableEq, Repr

/-- The number of bits. -/
def Width.bits : Width → Nat
  | w32 => 32
  | w64 => 64

/-- The type of integers of the width. -/
def Width.type : Width → ValType
  | w32 => .i32
  | w64 => .i64

/-- Operations on one integer. -/
inductive UnaryOp
  /-- The number of zero bits above the highest one bit. -/
  | clz
  /-- The number of zero bits below the lowest one bit. -/
  | ctz
  /-- The number of one bits. -/
  | popcnt
  /-- The lowest `n` bits, read as a signed number. -/
  | signExtend (n : Nat)
deriving DecidableEq, Repr

/-- Operations on two integers. -/
inductive BinaryOp
  | add
  | sub
  | mul
  | divS
  | divU
  | remS
  | remU
  | and
  | or
  | xor
  | shl
  | shrS
  | shrU
  | rotl
  | rotr
deriving DecidableEq, Repr

/-- Comparisons of two integers. -/
inductive CompareOp
  | eq
  | ne
  | ltS
  | ltU
  | gtS
  | gtU
  | leS
  | leU
  | geS
  | geU
deriving DecidableEq, Repr

/-- Why an arithmetic operation has no result. -/
inductive ArithFault
  | divideByZero
  | overflow
deriving DecidableEq, Repr

variable {w : Nat}

@[inline]
def UnaryOp.eval : UnaryOp → BitVec w → BitVec w
  | clz, a => if a = 0 then BitVec.ofNat w w else BitVec.ofNat w (w - 1 - a.toNat.log2)
  | ctz, a => BitVec.ofNat w (((List.range w).find? fun i => a.getLsbD i).getD w)
  | popcnt, a => BitVec.ofNat w ((List.range w).countP fun i => a.getLsbD i)
  | signExtend n, a => (a.setWidth n).signExtend w

@[inline]
def BinaryOp.eval : BinaryOp → BitVec w → BitVec w → Except ArithFault (BitVec w)
  | add, a, b => .ok (a + b)
  | sub, a, b => .ok (a - b)
  | mul, a, b => .ok (a * b)
  | divS, a, b =>
    if b = 0 then .error .divideByZero
    else if a = BitVec.intMin w ∧ b = BitVec.allOnes w then .error .overflow
    else .ok (a.sdiv b)
  | divU, a, b => if b = 0 then .error .divideByZero else .ok (a / b)
  | remS, a, b => if b = 0 then .error .divideByZero else .ok (a.srem b)
  | remU, a, b => if b = 0 then .error .divideByZero else .ok (a % b)
  | and, a, b => .ok (a &&& b)
  | or, a, b => .ok (a ||| b)
  | xor, a, b => .ok (a ^^^ b)
  | shl, a, b => .ok (a <<< (b.toNat % w))
  | shrS, a, b => .ok (a.sshiftRight (b.toNat % w))
  | shrU, a, b => .ok (a >>> (b.toNat % w))
  | rotl, a, b => .ok (a.rotateLeft b.toNat)
  | rotr, a, b => .ok (a.rotateRight b.toNat)

@[inline]
def CompareOp.eval : CompareOp → BitVec w → BitVec w → Bool
  | eq, a, b => a == b
  | ne, a, b => a != b
  | ltS, a, b => a.slt b
  | ltU, a, b => a.ult b
  | gtS, a, b => b.slt a
  | gtU, a, b => b.ult a
  | leS, a, b => a.sle b
  | leU, a, b => a.ule b
  | geS, a, b => b.sle a
  | geU, a, b => b.ule a

/-- A truth value as an integer. -/
def ofBool (b : Bool) : Value := .i32 (if b then 1 else 0)

end HashLoader.Wasm
