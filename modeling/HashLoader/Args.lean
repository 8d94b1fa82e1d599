import HashLoader.Error

/-!
# Arguments

The arguments of a script start with a code reference of 35 bytes, which names the code to load: two
reserved bytes, the code hash and the hash type. What follows is the payload, which only the
loaded code reads.
-/

namespace HashLoader

/-- What a code hash covers. -/
inductive HashType
  /-- The raw code. -/
  | data
  /-- The type script that the code is deployed under. -/
  | typeScript
  /-- The raw code, for a later revision of the host. -/
  | data1
deriving DecidableEq, Repr

namespace HashType

def toByte : HashType → UInt8
  | data => 0
  | typeScript => 1
  | data1 => 2

def ofByte? (b : UInt8) : Option HashType :=
  if b = 0 then some data
  else if b = 1 then some typeScript
  else if b = 2 then some data1
  else none

/-- Tells whether the hash covers the raw code. -/
def isData : HashType → Bool
  | typeScript => false
  | data | data1 => true

/-- The field of a dependency that such a hash is compared with. -/
def field (t : HashType) : HashField := if t.isData then .data else .typeScript

@[simp]
theorem ofByte?_toByte (t : HashType) : ofByte? t.toByte = some t := by cases t <;> rfl

theorem toByte_of_ofByte? {b : UInt8} {t : HashType} (h : ofByte? b = some t) : t.toByte = b := by
  unfold ofByte? at h
  split at h
  · next hb => cases h; exact hb.symm
  · split at h
    · next hb => cases h; exact hb.symm
    · split at h
      · next hb => cases h; exact hb.symm
      · contradiction

end HashType

/-- Which code to load. -/
structure CodeReference where
  reserved : UInt8 × UInt8
  codeHash : Hash
  hashType : HashType
deriving DecidableEq

namespace CodeReference

/-- The length of a code reference in bytes. -/
def size : Nat := 2 + hashSize + 1

/-- The arguments that hold a reference and a payload. -/
def encode (r : CodeReference) (payload : Bytes) : Bytes :=
  r.reserved.1 :: r.reserved.2 :: (r.codeHash.bytes ++ r.hashType.toByte :: payload)

/-- Reads the reference at the front of arguments. -/
def decode (args : Bytes) : Except LoaderError CodeReference :=
  match args with
  | r0 :: r1 :: rest =>
    match Hash.ofBytes? (rest.take hashSize), rest.drop hashSize with
    | some codeHash, t :: _ =>
      match HashType.ofByte? t with
      | some hashType => .ok { reserved := (r0, r1), codeHash, hashType }
      | none => .error (.unknownHashType t)
    | _, _ => .error (.invalidArgsFormat args.length size)
  | _ => .error (.invalidArgsFormat args.length size)

/-- What follows the reference; nothing when the arguments are too short for one. -/
def payload (args : Bytes) : Bytes := args.drop size

end CodeReference

end HashLoader
