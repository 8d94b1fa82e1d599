import HashLoader.Bytes

/-!
# Errors of the record format

Why a record could not be written or read, and the text of each reason.
-/

namespace HashLoader.Record

/-- Why a record could not be written or read. -/
inductive Error
  /-- The byte is no tag, or not the tag that belongs here. -/
  | invalidTag (byte : UInt8)
  /-- The bytes end inside an item. -/
  | unexpectedEnd
  /-- A blob or a record body is longer than its header can say. -/
  | blobTooLarge (len : Nat)
  /-- A hash field holds a blob of the wrong length. -/
  | invalidHashLength (len : Nat)
  /-- Bytes follow the last item. -/
  | trailingBytes (count : Nat)
deriving DecidableEq, Repr

/-- A byte as `0x` and two hexadecimal digits. -/
def byteText (b : UInt8) : String := "0x" ++ Bytes.toHex [b]

/-- The text of an error. -/
def Error.message : Error → String
  | .invalidTag byte => "Invalid Tag byte: " ++ byteText byte
  | .unexpectedEnd => "UnexpectedEnd"
  | .blobTooLarge len => "BlobTooLarge(" ++ toString len ++ ")"
  | .invalidHashLength len => "Hash field holds " ++ toString len ++ " bytes; expected 32"
  | .trailingBytes count => toString count ++ " trailing bytes after record"

end HashLoader.Record
