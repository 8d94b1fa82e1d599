import HashLoader.Bytes
import HashLoader.Blake3

/-!
# Hashes

A hash is 32 bytes. `digest` is the one hash function of the library: it names raw code, and it
names the type script that code is deployed under.
-/

namespace HashLoader

/-- The length of a hash in bytes. -/
def hashSize : Nat := 32

/-- A string of 32 bytes that names something. -/
structure Hash where
  bytes : Bytes
  length_bytes : bytes.length = hashSize
deriving DecidableEq

namespace Hash

/-- The hash whose bytes are all `b`. -/
def replicate (b : UInt8) : Hash := ⟨List.replicate hashSize b, List.length_replicate⟩

/-- The hash of 32 zeros. -/
def zero : Hash := replicate 0

/-- Reads a hash; every length but 32 is refused. -/
def ofBytes? (b : Bytes) : Option Hash :=
  if h : b.length = hashSize then some ⟨b, h⟩ else none

/-- The hash that eight words spell, each in little-endian order. -/
def ofWords (words : Vector UInt32 8) : Hash where
  bytes := words.toList.flatMap fun w => Bytes.ofNatLE 4 w.toNat
  length_bytes := by simp [List.length_flatMap, List.map_const', hashSize]

/-- Lower-case hexadecimal text. -/
def toHex (h : Hash) : String := h.bytes.toHex

theorem ofBytes?_bytes (h : Hash) : ofBytes? h.bytes = some h := by
  simp [ofBytes?, h.length_bytes]

theorem bytes_of_ofBytes? {b : Bytes} {h : Hash} (hb : ofBytes? b = some h) : h.bytes = b := by
  unfold ofBytes? at hb
  split at hb
  · exact (Option.some.inj hb) ▸ rfl
  · contradiction

theorem ofBytes?_eq_none_iff {b : Bytes} : ofBytes? b = none ↔ b.length ≠ hashSize := by
  unfold ofBytes?
  split <;> simp_all

end Hash

/-- The hash of a raw code blob or of an encoded type script. -/
def digest (b : Bytes) : Hash := Hash.ofWords (Blake3.hash b.toArray)

/-- Tells whether `b` is the byte string that `expected` names. -/
def Hash.authenticates (expected : Hash) (b : Bytes) : Bool := digest b == expected

end HashLoader
