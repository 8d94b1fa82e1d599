import HashLoader.Record.Tag

/-!
# Writing records

An encoder appends items to its bytes. The length of a record is not known when the record begins,
so its header is written as zeros and set when the record ends. A step that fails writes nothing;
but a record that is too long to end is closed all the same, and its header stays zero.
-/

namespace HashLoader.Record

/-- The bytes written so far, and where the bodies of the open records start, innermost first. -/
structure Encoder where
  bytes : Bytes
  opened : List Nat
deriving DecidableEq, Repr

namespace Encoder

/-- Nothing is written and no record is open. -/
def empty : Encoder := ⟨[], []⟩

/-- Appends a scalar. -/
def scalar (e : Encoder) (v : UInt8) : Encoder :=
  { e with bytes := e.bytes ++ [Tag.scalar.toByte, v] }

/-- Appends a blob, whose length has to fit its header. -/
def blob (e : Encoder) (data : Bytes) : Except Error Encoder :=
  if data.length ≤ maxLength then
    .ok { e with bytes :=
      e.bytes ++ (Tag.blob.toByte :: Bytes.ofNatLE lengthWidth data.length ++ data) }
  else
    .error (.blobTooLarge data.length)

/-- Begins a record inside the innermost open one. -/
def beginRecord (e : Encoder) : Encoder where
  bytes := e.bytes ++ (Tag.record.toByte :: Bytes.ofNatLE lengthWidth 0)
  opened := (e.bytes.length + 1 + lengthWidth) :: e.opened

/-- Sets the length header in front of the body that starts at `start`. -/
def patch (bytes : Bytes) (start : Nat) : Bytes :=
  bytes.take (start - lengthWidth) ++ Bytes.ofNatLE lengthWidth (bytes.length - start)
    ++ bytes.drop start

/-- Ends the innermost open record. -/
def endRecord (e : Encoder) : Except Error Encoder :=
  match e.opened with
  | [] => .error (.invalidTag Tag.record.toByte)
  | start :: outer =>
    if e.bytes.length - start ≤ maxLength then
      .ok { bytes := patch e.bytes start, opened := outer }
    else
      .error (.blobTooLarge (e.bytes.length - start))

/-- The finished bytes; a record that is still open is an error. -/
def finish (e : Encoder) : Except Error Bytes :=
  if e.opened = [] then .ok e.bytes else .error (.invalidTag Tag.record.toByte)

/-- One step of writing. -/
inductive Step
  | scalar (v : UInt8)
  | blob (data : Bytes)
  | beginRecord
  | endRecord
deriving DecidableEq, Repr

/-- Takes one step. -/
def apply (e : Encoder) : Step → Except Error Encoder
  | .scalar v => .ok (e.scalar v)
  | .blob data => e.blob data
  | .beginRecord => .ok e.beginRecord
  | .endRecord => e.endRecord

/-- What a step that fails leaves. The end of a record closes the record before its length is looked
at. -/
def abandon (e : Encoder) : Step → Encoder
  | .endRecord => { e with opened := e.opened.tail }
  | .scalar _ | .blob _ | .beginRecord => e

/-- Takes one step, whether it fails or not. -/
def advance (e : Encoder) (step : Step) : Encoder :=
  match e.apply step with
  | .ok e => e
  | .error _ => e.abandon step

/-- Takes steps one after another, whether they fail or not. -/
def run (e : Encoder) (steps : List Step) : Encoder := steps.foldl advance e

end Encoder

end HashLoader.Record
