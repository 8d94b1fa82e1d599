import HashLoader.Hash
import HashLoader.Record.Encoder
import HashLoader.Record.View

/-!
# Scripts

A script is one record whose body holds exactly three items: a blob of 32 bytes (the code hash), a
scalar (the hash type) and a blob of any length (the arguments). `ScriptFields.encode` writes one,
`Script.verify` reads one and refuses everything else.
-/

namespace HashLoader.Record

/-- What a script says. -/
structure ScriptFields where
  codeHash : Hash := Hash.zero
  hashType : UInt8 := 0
  args : Bytes := []
deriving DecidableEq

/-- The record of a script. -/
def ScriptFields.encode (s : ScriptFields) : Except Error Bytes := do
  let e ← Encoder.empty.beginRecord.blob s.codeHash.bytes
  let e ← (e.scalar s.hashType).blob s.args
  (← e.endRecord).finish

/-- A verified script in the buffer that it was read from. -/
structure Script where
  codeHash : Hash
  hashType : UInt8
  /-- The arguments, where they stand in the buffer. -/
  args : View
deriving DecidableEq

namespace Script

/-- What the script says, apart from the place where it says it. -/
def fields (s : Script) : ScriptFields := ⟨s.codeHash, s.hashType, s.args.bytes⟩

/-- Reads a blob that has to be a hash. -/
def hashField : Reading Hash := do
  let blob ← View.blob
  match Hash.ofBytes? blob.bytes with
  | some h => return h
  | none => throw (.invalidHashLength blob.remaining)

/-- Reads the three items of a body, and nothing after them. -/
def body : Reading Script := do
  let codeHash ← hashField
  let hashType ← View.scalar
  let args ← View.blob
  View.finish
  return { codeHash, hashType, args }

/-- The value of a reading that is the last one of its view. -/
def result {α : Type} : EStateM.Result Error View α → Except Error α
  | .ok a _ => .ok a
  | .error e _ => .error e

/-- Reads a buffer that holds one script and nothing else. The outer record is settled before its
body is looked at. -/
def verify (buf : Bytes) : Except Error Script := do
  let inner ← result ((do let inner ← View.record; View.finish; return inner) (View.ofBytes buf))
  result (body inner)

end Script

end HashLoader.Record
