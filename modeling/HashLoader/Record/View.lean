import HashLoader.Record.Tag

/-!
# Reading records

A view is a piece of a buffer together with the place where it starts. Reading takes items from the
front of a view: what is read is again a view into the same buffer, and nothing outside the view is
looked at. A reading that fails may have moved the view past a tag or a length.
-/

namespace HashLoader.Record

/-- A contiguous piece of a buffer. -/
structure View where
  /-- Where the piece starts in the buffer. -/
  offset : Nat
  bytes : Bytes
deriving DecidableEq, Repr

/-- A reading takes a view, and gives a value or an error with what is left of the view. -/
abbrev Reading := EStateM Error View

namespace View

/-- The view of a whole buffer. -/
def ofBytes (b : Bytes) : View := ⟨0, b⟩

/-- How many bytes are left. -/
def remaining (v : View) : Nat := v.bytes.length

/-- The first `n` bytes. -/
def front (v : View) (n : Nat) : View := ⟨v.offset, v.bytes.take n⟩

/-- All but the first `n` bytes. -/
def back (v : View) (n : Nat) : View := ⟨v.offset + n, v.bytes.drop n⟩

/-- Takes the next `n` bytes; when fewer are left, none is taken. -/
def take (n : Nat) : Reading View := fun v =>
  if n ≤ v.remaining then .ok (v.front n) (v.back n) else .error .unexpectedEnd v

/-- The kind of the next item, which stays where it is. -/
def peekTag : Reading Tag := fun v =>
  match v.bytes with
  | [] => .error .unexpectedEnd v
  | b :: _ =>
    match Tag.ofByte? b with
    | some t => .ok t v
    | none => .error (.invalidTag b) v

/-- Moves past the tag of the next item, which has to be the expected one. -/
def expectTag (expected : Tag) : Reading Unit := do
  let t ← peekTag
  if t = expected then discard (take 1) else throw (.invalidTag t.toByte)

/-- Reads a length header. -/
def length : Reading Nat := do
  let header ← take lengthWidth
  return Bytes.toNatLE header.bytes

/-- Reads a scalar. -/
def scalar : Reading UInt8 := do
  expectTag .scalar
  let v ← take 1
  return v.bytes.headD 0

/-- Reads a blob. -/
def blob : Reading View := do
  expectTag .blob
  take (← length)

/-- Reads a record and gives the view of its body. -/
def record : Reading View := do
  expectTag .record
  take (← length)

/-- Fails unless nothing is left. -/
def finish : Reading Unit := fun v =>
  if v.remaining = 0 then .ok () v else .error (.trailingBytes v.remaining) v

end View

end HashLoader.Record
