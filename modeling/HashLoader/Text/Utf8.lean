import HashLoader.Bytes

/-!
# UTF-8

Bytes are read as UTF-8 one at a time. Between two bytes the reader holds what the character that
was begun still needs, if one was begun. `scan` gives the characters in order, and `none` for each
maximal ill-formed piece: a piece ends before the first byte that cannot go on with it, and that
byte is looked at again as the start of something new.

`decode?` accepts text without ill-formed pieces, `lossy` replaces each of them by U+FFFD.
-/

namespace HashLoader.Utf8

/-- What a character that was begun still needs. -/
structure Pending where
  /-- How many more bytes it needs, at least one. -/
  owed : Nat
  /-- The least byte that may come next. -/
  low : UInt8
  /-- The greatest byte that may come next. -/
  high : UInt8
  /-- The bits of the code point so far. -/
  bits : Nat
deriving DecidableEq, Repr

/-- Begins something new with a byte: an ASCII character, a longer one, or an ill-formed piece. -/
def start (b : UInt8) : List (Option Char) × Option Pending :=
  let n := b.toNat
  if b < 0x80 then ([some (Char.ofNat n)], none)
  else if b < 0xC2 then ([none], none)
  else if b < 0xE0 then ([], some ⟨1, 0x80, 0xBF, n % 32⟩)
  else if b = 0xE0 then ([], some ⟨2, 0xA0, 0xBF, n % 16⟩)
  else if b = 0xED then ([], some ⟨2, 0x80, 0x9F, n % 16⟩)
  else if b < 0xF0 then ([], some ⟨2, 0x80, 0xBF, n % 16⟩)
  else if b = 0xF0 then ([], some ⟨3, 0x90, 0xBF, n % 8⟩)
  else if b < 0xF4 then ([], some ⟨3, 0x80, 0xBF, n % 8⟩)
  else if b = 0xF4 then ([], some ⟨3, 0x80, 0x8F, n % 8⟩)
  else ([none], none)

/-- Reads one byte: what it settles, and what is pending after it. -/
def step (pending : Option Pending) (b : UInt8) : List (Option Char) × Option Pending :=
  match pending with
  | none => start b
  | some p =>
    if p.low ≤ b ∧ b ≤ p.high then
      let bits := p.bits * 64 + b.toNat % 64
      if p.owed = 1 then ([some (Char.ofNat bits)], none)
      else ([], some ⟨p.owed - 1, 0x80, 0xBF, bits⟩)
    else
      let (settled, next) := start b
      (none :: settled, next)

/-- The characters and ill-formed pieces of `b`, after what is pending. -/
def scan : (pending : Option Pending) → (b : Bytes) → List (Option Char)
  | none, [] => []
  | some _, [] => [none]
  | pending, b :: rest =>
    let (settled, next) := step pending b
    settled ++ scan next rest

/-- The character that stands for an ill-formed piece. -/
def replacement : Char := Char.ofNat 0xFFFD

/-- The text of `b`, with one replacement character for each ill-formed piece. -/
def lossy (b : Bytes) : String := String.ofList ((scan none b).map fun c => c.getD replacement)

/-- The text of `b`, if it is well-formed. -/
def decode? (b : Bytes) : Option String := ((scan none b).mapM id).map String.ofList

/-- The bytes of a text. -/
def encode (s : String) : Bytes := s.toUTF8.toList

end HashLoader.Utf8
