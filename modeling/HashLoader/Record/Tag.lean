import HashLoader.Record.Error

/-!
# Items of the record format

The format has three kinds of item, told apart by their first byte, the tag:

* a scalar is its tag and one byte;
* a blob is its tag, a length and that many bytes;
* a record is its tag, a length and a body of that many bytes, which holds further items.

A length is four bytes, little-endian.
-/

namespace HashLoader.Record

/-- The kind of an item. -/
inductive Tag
  | scalar
  | blob
  | record
deriving DecidableEq, Repr

namespace Tag

/-- The byte that announces an item of the kind. -/
def toByte : Tag → UInt8
  | scalar => 0x03
  | blob => 0x11
  | record => 0x40

/-- The kind that a byte announces. -/
def ofByte? (b : UInt8) : Option Tag :=
  if b = 0x03 then some scalar
  else if b = 0x11 then some blob
  else if b = 0x40 then some record
  else none

@[simp]
theorem ofByte?_toByte (t : Tag) : ofByte? t.toByte = some t := by cases t <;> rfl

theorem toByte_of_ofByte? {b : UInt8} {t : Tag} (h : ofByte? b = some t) : t.toByte = b := by
  unfold ofByte? at h
  split at h
  · next hb => cases h; exact hb.symm
  · split at h
    · next hb => cases h; exact hb.symm
    · split at h
      · next hb => cases h; exact hb.symm
      · contradiction

/-- Kinds are told apart by their bytes. -/
theorem toByte_inj {s t : Tag} : s.toByte = t.toByte ↔ s = t := by
  refine ⟨fun h => ?_, congrArg toByte⟩
  have hsome : some s = some t := by rw [← ofByte?_toByte s, h, ofByte?_toByte]
  exact Option.some.inj hsome

end Tag

/-- The width of a length header in bytes. -/
def lengthWidth : Nat := 4

/-- The greatest length that a header can say. -/
def maxLength : Nat := UInt32.size - 1

end HashLoader.Record
