import HashLoader.Wasm.Reader

/-!
# Sections

A binary is a preamble of eight bytes and a list of sections. A section is a number, a size and a
body of that size, so a binary can be cut into its sections without looking into them. Custom
sections, numbered zero, hold a name and anything; they may stand anywhere. All others occur at
most once and in a fixed order.
-/

namespace HashLoader.Wasm

/-- What a binary starts with: a magic number and the version. -/
def preamble : Bytes := [0x00, 0x61, 0x73, 0x6D, 0x01, 0x00, 0x00, 0x00]

/-- A section, with its body uncut. -/
structure Section where
  id : UInt8
  body : Bytes
deriving DecidableEq, Repr

namespace Section

/-- Cuts what follows the preamble into sections. -/
def split? : Bytes → Option (List Section)
  | [] => some []
  | id :: rest =>
    match Reader.blob rest with
    | none => none
    | some (body, ⟨r, _⟩) => (split? r).map fun later => ⟨id, body⟩ :: later
termination_by s => s.length
decreasing_by simp only [List.length_cons]; omega

/-- Cuts a binary into its sections. -/
def ofBinary? (b : Bytes) : Option (List Section) :=
  if b.take preamble.length = preamble then split? (b.drop preamble.length) else none

/-- Tells whether the section is a custom section. -/
def isCustom (s : Section) : Bool := s.id == 0

/-- Where a section that is not custom belongs among the others. The count of data segments, which
has the number 12, stands between the element segments and the code. -/
def rank? (s : Section) : Option Nat :=
  if s.id = 0 then none
  else if s.id ≤ 9 then some s.id.toNat
  else if s.id = 12 then some 10
  else if s.id ≤ 11 then some (s.id.toNat + 1)
  else none

/-- Tells whether numbers increase strictly. -/
def increasing : List Nat → Bool
  | a :: b :: rest => a < b && increasing (b :: rest)
  | _ => true

/-- Tells whether sections, none of them custom, have known numbers and stand in order. -/
def inOrder (sections : List Section) : Bool :=
  match sections.mapM rank? with
  | some ranks => increasing ranks
  | none => false

/-- Tells whether a custom section starts with a name. -/
def hasName (s : Section) : Bool := (Reader.name s.body).isSome

end Section

end HashLoader.Wasm
