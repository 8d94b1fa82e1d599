import HashLoader.Hash

/-!
# Hosts

The loader never touches the state of its host. All it reads comes through three calls, which may
answer anything and may answer differently each time; a host is therefore three state
transitions over a state of its own.

Calls that copy follow the partial loading convention: they copy as much as fits from an offset on
and return how much was available there, so that an empty buffer measures.
-/

namespace HashLoader

/-- How a host refuses a call. -/
inductive HostError
  /-- The index is past the last dependency. -/
  | indexOutOfBound
  /-- The dependency does not have the field. -/
  | itemMissing
  /-- Less data is there than was asked for. -/
  | lengthNotEnough (len : Nat)
  /-- Any other code of the host. -/
  | unknown (code : UInt64)
deriving DecidableEq, Repr

/-- The text of a refusal. -/
def HostError.message : HostError → String
  | .indexOutOfBound => "IndexOutOfBound"
  | .itemMissing => "ItemMissing"
  | .lengthNotEnough len => "LengthNotEnough(" ++ toString len ++ ")"
  | .unknown code => "Unknown(" ++ toString code ++ ")"

/-- The hashes that a code dependency can be found by. -/
inductive HashField
  /-- The hash of the raw data. -/
  | data
  /-- The hash of the type script. -/
  | typeScript
deriving DecidableEq, Repr

/-- What a copying call leaves: its result and the buffer, which keeps its length. -/
structure Loaded (n : Nat) where
  result : Except HostError Nat
  buffer : Vector UInt8 n

/-- The environment of an invocation. -/
structure Host (σ : Type) where
  /-- Copies from the script in execution, from an offset on. -/
  loadScript : {n : Nat} → (buffer : Vector UInt8 n) → (offset : Nat) → σ → Loaded n × σ
  /-- Copies from the data of the dependency with an index. -/
  loadData : {n : Nat} → (buffer : Vector UInt8 n) → (offset index : Nat) → σ → Loaded n × σ
  /-- Gives a hash of the dependency with an index, if it has that field. -/
  loadHash : (index : Nat) → (field : HashField) → σ → Except HostError (Option Hash) × σ

/-- A call that a host receives, by the sizes and numbers that it is given. -/
inductive HostCall
  | script (bufferLen offset : Nat)
  | data (bufferLen offset index : Nat)
  | hash (index : Nat) (field : HashField)
deriving DecidableEq, Repr

/-- Puts `data` over the front of a buffer, as far as it fits. -/
def overlay {n : Nat} (buffer : Vector UInt8 n) (data : Bytes) : Vector UInt8 n :=
  ⟨(data.take n).toArray ++ buffer.toArray.extract (min n data.length) n, by
    simp only [Array.size_append, List.size_toArray, List.length_take, Array.size_extract,
      Vector.size_toArray]
    omega⟩

/-- A buffer that is long enough starts with what is put over its front. -/
theorem take_toList_overlay {n : Nat} (buffer : Vector UInt8 n) {data : Bytes} (h : data.length ≤ n) :
    (overlay buffer data).toList.take data.length = data := by
  have hdata : data.take n = data := List.take_of_length_le h
  simp [overlay, Vector.toList, hdata]

/-- Partial loading: copies what fits of `data` from `offset` on and returns how much there is from
`offset` on. An offset past the end is refused and copies nothing. -/
def partialLoad {n : Nat} (data : Bytes) (buffer : Vector UInt8 n) (offset : Nat) : Loaded n :=
  if offset ≤ data.length then
    ⟨.ok (data.length - offset), overlay buffer (data.drop offset)⟩
  else
    ⟨.error (.lengthNotEnough data.length), buffer⟩

/-- The host that also keeps the list of the calls it received, in order. -/
def Host.logged {σ : Type} (host : Host σ) : Host (σ × List HostCall) where
  loadScript {n} buffer offset s :=
    let (answer, s') := host.loadScript buffer offset s.1
    (answer, s', s.2 ++ [.script n offset])
  loadData {n} buffer offset index s :=
    let (answer, s') := host.loadData buffer offset index s.1
    (answer, s', s.2 ++ [.data n offset index])
  loadHash index field s :=
    let (answer, s') := host.loadHash index field s.1
    (answer, s', s.2 ++ [.hash index field])

end HashLoader
