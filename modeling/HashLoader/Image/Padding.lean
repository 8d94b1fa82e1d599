import HashLoader.Image.Page

/-!
# Padding

A code image is a WebAssembly binary of a whole number of pages. A binary is brought to that length
by one more custom section, which every reader of the format skips. Its size field always has
five bytes, so the section adds the same ten bytes to every binary, and zeros.
-/

namespace HashLoader.Padding

/-- The name of the section. -/
def name : Bytes := [0x70, 0x61, 0x64]

/-- What the section adds besides its zeros: its number, its size, the length of its name and the
name. -/
def overhead : Nat := 1 + 5 + 1 + name.length

/-- A number below `2 ^ 32` in five LEB128 bytes. -/
def lebFixed (n : Nat) : Bytes :=
  [(n % 128 + 128).toUInt8, (n / 128 % 128 + 128).toUInt8, (n / 16384 % 128 + 128).toUInt8,
    (n / 2097152 % 128 + 128).toUInt8, (n / 268435456 % 16).toUInt8]

/-- What stands in front of `filler` zeros. -/
def header (filler : Nat) : Bytes :=
  0x00 :: lebFixed (1 + name.length + filler) ++ name.length.toUInt8 :: name

/-- The number of zeros that bring `len` bytes and the overhead to a whole number of pages. -/
def filler (len : Nat) : Nat := alignUp (len + overhead) - len - overhead

/-- Adds the section. -/
def pad (binary : Bytes) : Bytes :=
  binary ++ (header (filler binary.length) ++ List.replicate (filler binary.length) 0)

end HashLoader.Padding
