/-!
# Byte strings

A byte string is a list of bytes, first byte first. This module holds the two spellings that every
format of the library uses: little-endian numbers of a fixed width, and lower-case hexadecimal text.
-/

namespace HashLoader

/-- A byte string, first byte first. -/
abbrev Bytes := List UInt8

namespace Bytes

/-- The `width` little-endian bytes of `n`; what does not fit is dropped. -/
def ofNatLE : (width : Nat) → (n : Nat) → Bytes
  | 0, _ => []
  | width + 1, n => n.toUInt8 :: ofNatLE width (n / 256)

/-- The number that little-endian bytes spell. -/
def toNatLE : Bytes → Nat
  | [] => 0
  | b :: rest => b.toNat + 256 * toNatLE rest

@[simp]
theorem length_ofNatLE (width n : Nat) : (ofNatLE width n).length = width := by
  induction width generalizing n with
  | zero => rfl
  | succ width ih => simp [ofNatLE, ih]

/-- How many numbers there are of a width in bytes. -/
def range (width : Nat) : Nat := 1 <<< (8 * width)

/-- One more byte makes 256 times as many. -/
theorem range_succ (width : Nat) : range (width + 1) = 256 * range width := by
  calc range (width + 1)
    _ = 2 ^ (8 * width + 8) := Nat.one_shiftLeft _
    _ = 2 ^ (8 * width) * 256 := Nat.pow_add 2 (8 * width) 8
    _ = 256 * 2 ^ (8 * width) := Nat.mul_comm _ _
    _ = 256 * range width := by rw [range, Nat.one_shiftLeft]

/-- Reading back a number gives it modulo the range of its width. -/
theorem toNatLE_ofNatLE (width n : Nat) : toNatLE (ofNatLE width n) = n % range width := by
  induction width generalizing n with
  | zero => simp [ofNatLE, toNatLE, range, Nat.mod_one]
  | succ width ih =>
    have byte : n.toUInt8.toNat = n % 256 := by simp
    rw [ofNatLE, toNatLE, ih, byte, range_succ, Nat.mod_mul]

/-- Writing back a number gives its bytes: equal widths have one spelling for a number. -/
theorem ofNatLE_toNatLE (b : Bytes) : ofNatLE b.length (toNatLE b) = b := by
  induction b with
  | nil => rfl
  | cons x rest ih =>
    have hx := x.toNat_lt
    have hdiv : (x.toNat + 256 * toNatLE rest) / 256 = toNatLE rest := by omega
    have hmod : (x.toNat + 256 * toNatLE rest).toUInt8 = x := by
      apply UInt8.toNat_inj.1
      have byte : (x.toNat + 256 * toNatLE rest).toUInt8.toNat
          = (x.toNat + 256 * toNatLE rest) % 256 := by simp
      omega
    simp only [List.length_cons, toNatLE, ofNatLE, hdiv, hmod, ih]

/-- A little-endian number is below the range of its width. -/
theorem toNatLE_lt (b : Bytes) : toNatLE b < range b.length := by
  induction b with
  | nil => simp [toNatLE, range]
  | cons x rest ih =>
    have hx := x.toNat_lt
    rw [toNatLE, List.length_cons, range_succ]
    omega

/-- The two lower-case hexadecimal digits of a byte. -/
def hexDigits (b : UInt8) : List Char :=
  [Nat.digitChar (b.toNat / 16), Nat.digitChar (b.toNat % 16)]

/-- Lower-case hexadecimal text, two digits for a byte. -/
def toHex (b : Bytes) : String := String.ofList (b.flatMap hexDigits)

end Bytes

end HashLoader
