import HashLoader.Bytes
import HashLoader.Text.Utf8

/-!
# Reading binaries

A reader takes something from the front of a byte string. It either refuses or gives a value and the
rest, together with the proof that the rest is no longer than what it was given; what reads in a
loop can therefore rely on its measure. Numbers are written in LEB128: seven bits to a byte, lowest
first, and a high bit on every byte but the last.
-/

namespace HashLoader.Wasm

/-- What may be left of `s` after reading from its front. -/
abbrev Rest (s : Bytes) := { r : Bytes // r.length ≤ s.length }

/-- What is left after the first byte. -/
def Rest.ofCons (b : UInt8) (rest : Bytes) : Rest (b :: rest) := ⟨rest, Nat.le_succ _⟩

/-- Takes something from the front of a byte string. -/
def Reader (α : Type) := (s : Bytes) → Option (α × Rest s)

namespace Reader

variable {α β : Type}

instance : Monad Reader where
  pure a := fun s => some (a, ⟨s, Nat.le_refl _⟩)
  bind r f := fun s =>
    match r s with
    | none => none
    | some (a, ⟨t, ht⟩) =>
      match f a t with
      | none => none
      | some (b, ⟨u, hu⟩) => some (b, ⟨u, Nat.le_trans hu ht⟩)

/-- Refuses. -/
def fail : Reader α := fun _ => none

/-- Takes a value from an option, or refuses. -/
def ofOption : Option α → Reader α
  | some a => pure a
  | none => fail

/-- Refuses unless a condition holds. -/
def require (condition : Bool) : Reader Unit := if condition then pure () else fail

/-- Reads one byte. -/
def byte : Reader UInt8
  | [] => none
  | b :: rest => some (b, .ofCons b rest)

/-- Reads `n` bytes. -/
def bytes (n : Nat) : Reader Bytes := fun s =>
  let taken := s.take n
  if taken.length = n then
    some (taken, ⟨s.drop n, by rw [List.length_drop]; exact Nat.sub_le _ _⟩)
  else none

/-- Reads all that is left. -/
def remaining : Reader Bytes := fun s => some (s, ⟨[], Nat.zero_le _⟩)

/-- Reads exactly the given bytes. -/
def expect (expected : Bytes) : Reader Unit := do
  require ((← bytes expected.length) == expected)

/-- Runs a reader that has to read all of a byte string. -/
def run? (r : Reader α) (s : Bytes) : Option α :=
  match r s with
  | some (a, ⟨[], _⟩) => some a
  | _ => none

/-- Reads an unsigned LEB128 number of at most `width` bits. -/
def unsigned (width : Nat) : Reader Nat
  | [] => none
  | b :: rest =>
    if b.toNat < 128 then
      if b.toNat < 1 <<< width then some (b.toNat, .ofCons b rest) else none
    else if 7 < width then
      match unsigned (width - 7) rest with
      | some (n, ⟨r, hr⟩) => some (b.toNat - 128 + 128 * n, ⟨r, Nat.le_succ_of_le hr⟩)
      | none => none
    else none

/-- Reads a signed LEB128 number of at most `width` bits. -/
def signed (width : Nat) : Reader Int
  | [] => none
  | b :: rest =>
    if b.toNat < 64 then
      if b.toNat < 1 <<< (width - 1) then some (b.toNat, .ofCons b rest) else none
    else if b.toNat < 128 then
      if 128 ≤ b.toNat + 1 <<< (width - 1) then some (b.toNat - 128, .ofCons b rest) else none
    else if 7 < width then
      match signed (width - 7) rest with
      | some (n, ⟨r, hr⟩) => some (b.toNat - 128 + 128 * n, ⟨r, Nat.le_succ_of_le hr⟩)
      | none => none
    else none

/-- Reads an index or a count. -/
def u32 : Reader Nat := unsigned 32

/-- Reads `n` values from what is left of `s`. They come after those already read, last first. -/
def manyOnto (r : Reader α) (s : Bytes) :
    (n : Nat) → (done : List α) → Rest s → Option (List α × Rest s)
  | 0, done, left => some (done.reverse, left)
  | n + 1, done, ⟨t, ht⟩ =>
    match r t with
    | none => none
    | some (a, ⟨u, hu⟩) => manyOnto r s n (a :: done) ⟨u, Nat.le_trans hu ht⟩

/-- Reads `n` values. -/
def many (r : Reader α) (n : Nat) : Reader (List α) := fun s =>
  manyOnto r s n [] ⟨s, Nat.le_refl _⟩

/-- Reads a count and that many values. -/
def vec (r : Reader α) : Reader (List α) := do many r (← u32)

/-- Reads a count and that many bytes. -/
def blob : Reader Bytes := do bytes (← u32)

/-- The most bytes a name may have. -/
def maxName : Nat := 100000

/-- Reads a name, which has to be well-formed text. -/
def name : Reader String := do
  let b ← blob
  require (b.length ≤ maxName)
  ofOption (Utf8.decode? b)

end Reader

end HashLoader.Wasm
