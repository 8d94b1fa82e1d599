import Mathlib.Data.List.DropRight
import HashLoader.Image.Padding
import HashLoader.Proofs.Wasm.Framing

/-!
# What padding adds

Padding adds one custom section, and the numbers that it writes have to agree for that: the size,
which is spelled in five bytes whatever it is (`leb_lebFixed`), is that of the name and the zeros,
and the zeros fill up the last page (`add_filler`). So the added bytes are framed as one section
(`framed_added`), and a binary made of sections is made of these and one more (`pad_adds_section`).

Nothing of a binary is lost in its image. The last byte that the section adds in front of its zeros
is a letter, so the zeros at the end of an image are the added ones and no others
(`rdropWhile_header`), whatever the binary ends with, and in front of them the section has ten bytes
(`unpad_pad`).
-/

namespace HashLoader.Padding

open Wasm (Leb Section)

/-! ## The size -/

/-- Four bytes with the high bit set and one without it spell every number of 32 bits. -/
theorem leb_lebFixed {n : Nat} (hn : n < UInt32.size) : Leb 32 n (lebFixed n) := by
  have hbyte : (n / 268435456 % 16).toUInt8.toNat = n / 268435456 := by
    simp only [UInt32.size] at hn
    rw [UInt8.toNat_ofNat']
    omega
  have hlast : Leb 4 (n / 268435456) [(n / 268435456 % 16).toUInt8] := by
    have hsmall : n / 268435456 < 16 := by
      simp only [UInt32.size] at hn
      omega
    have hleb : Leb 4 (n / 268435456 % 16).toUInt8.toNat [(n / 268435456 % 16).toUInt8] :=
      .last (by rw [hbyte]; omega) (by rwa [hbyte])
    rwa [hbyte] at hleb
  -- Every byte leaves a number of seven bits less to spell, in a width that is less by seven.
  have hfourth : Leb 11 (n / 2097152) _ := Leb.cons_mod (by decide) (by rwa [Nat.div_div_eq_div_mul])
  have hthird : Leb 18 (n / 16384) _ := Leb.cons_mod (by decide) (by rwa [Nat.div_div_eq_div_mul])
  have hsecond : Leb 25 (n / 128) _ := Leb.cons_mod (by decide) (by rwa [Nat.div_div_eq_div_mul])
  exact Leb.cons_mod (by decide) hsecond

/-! ## The length -/

/-- The zeros fill up the last page. -/
theorem add_filler (len : Nat) : len + overhead + filler len = alignUp (len + overhead) := by
  have hroom := le_alignUp (len + overhead)
  rw [filler]
  omega

/-- They are fewer than a page. -/
theorem filler_lt (len : Nat) : filler len < pageSize := by
  have hfull := add_filler len
  have hlast := alignUp_lt (len + overhead)
  omega

theorem length_pad (m : Bytes) : (pad m).length = alignUp (m.length + overhead) := by
  rw [← add_filler]
  simp [pad, header, lebFixed, overhead]
  omega

/-! ## The section -/

/-- What follows the size: the name with its length, and the zeros. -/
def body (filler : Nat) : Bytes := name.length.toUInt8 :: (name ++ List.replicate filler 0)

theorem length_body (filler : Nat) : (body filler).length = 1 + name.length + filler := by
  rw [body, List.length_cons, List.length_append, List.length_replicate]
  omega

theorem pad_eq (m : Bytes) : pad m
    = m ++ 0x00 :: (lebFixed (body (filler m.length)).length ++ body (filler m.length)) := by
  rw [length_body]
  simp only [pad, header, body, List.cons_append, List.append_assoc]

/-- It is not long, so five bytes spell its length. -/
theorem leb_length_body {filler : Nat} (hfiller : filler < pageSize) :
    Leb 32 (body filler).length (lebFixed (body filler).length) := by
  refine leb_lebFixed ?_
  rw [length_body]
  simp only [pageSize, name, List.length_cons, List.length_nil, UInt32.size] at hfiller ⊢
  omega

/-- What is added is one custom section. -/
theorem framed_added {filler : Nat} (hfiller : filler < pageSize) :
    Section.Framed [⟨0x00, body filler⟩]
      (0x00 :: (lebFixed (body filler).length ++ body filler)) := by
  have hframed : Section.Framed [⟨0x00, body filler⟩]
      (0x00 :: (lebFixed (body filler).length ++ (body filler ++ []))) :=
    .cons (leb_length_body hfiller) .nil
  rwa [List.append_nil] at hframed

/-- The name of the section is read, and what is left are the zeros. -/
theorem name_body (filler : Nat) :
    ∃ h, Wasm.Reader.name (body filler) = some ("pad", ⟨List.replicate filler 0, h⟩) := by
  have hfits : (List.replicate filler (0 : UInt8)).length ≤ (body filler).length := by
    rw [length_body, List.length_replicate]
    omega
  have hsize : Leb 32 name.length [name.length.toUInt8] :=
    Leb.last (b := name.length.toUInt8) (by decide) (by decide)
  have htext : Utf8.decode? name = some "pad" := by decide +kernel
  exact ⟨hfits, Wasm.Reader.name_eq_some_iff.2 ⟨_, name, rfl, hsize, by decide, htext⟩⟩

/-- Padding adds to every byte string one custom section, with the name and zeros, which ends with
the first page that has room for it. A binary made of sections then has these and that one, and is
read as the same module. -/
theorem pad_adds_section (m : Bytes) :
    ∃ size body zeros, pad m = m ++ 0x00 :: (size ++ body) ∧
      size.length = 5 ∧ Wasm.Reader.u32.run? size = some body.length ∧
      body = 0x03 :: ([0x70, 0x61, 0x64] ++ zeros) ∧ (∀ z ∈ zeros, z = 0) ∧
      (pageSize ∣ (pad m).length ∧ m.length + 10 ≤ (pad m).length ∧
        ∀ n, pageSize ∣ n → m.length + 10 ≤ n → (pad m).length ≤ n) ∧
      isPageAligned (pad m).length = true ∧
      ∀ sections, Section.ofBinary? m = some sections →
        Section.ofBinary? (pad m) = some (sections ++ [⟨0x00, body⟩]) ∧
        Wasm.Module.ofBinary? (pad m) = Wasm.Module.ofBinary? m := by
  have hfiller := filler_lt m.length
  have hframed := framed_added hfiller
  obtain ⟨_, hname⟩ := name_body (filler m.length)
  have hhasName : Section.hasName ⟨0x00, body (filler m.length)⟩ = true := by
    rw [Section.hasName, hname]
    rfl
  refine ⟨_, body (filler m.length), List.replicate (filler m.length) 0, pad_eq m, rfl,
    Wasm.Reader.run?_u32_eq_some_iff.2 (leb_length_body hfiller), rfl,
    fun _ => List.eq_of_mem_replicate, ?_, ?_, fun sections hsections => ?_⟩
  · rw [length_pad]
    exact ⟨Nat.dvd_mul_left _ _, le_alignUp _, fun n hn hle => alignUp_le hle hn⟩
  · rw [length_pad]
    exact isPageAligned_alignUp _
  · rw [pad_eq]
    exact ⟨Section.ofBinary?_append hsections hframed,
      Wasm.Module.ofBinary?_append_custom hsections hframed rfl hhasName⟩

/-- Ten bytes before the end of a page nothing has to be filled, one byte later all of another page.
-/
example : filler 4086 = 0 ∧ filler 4087 = 4095 := by decide

/-! ## The binary of an image -/

/-- Takes off the zeros at the end of an image, and what stands in front of them. -/
def unpad (image : Bytes) : Bytes := (image.rdropWhile (· == 0)).rdrop overhead

/-- Zeros behind a header are dropped up to the last letter of the name. -/
theorem rdropWhile_header (m : Bytes) (filler zeros : Nat) :
    (m ++ header filler ++ List.replicate zeros 0).rdropWhile (· == 0) = m ++ header filler := by
  induction zeros with
  | zero =>
    -- Without zeros behind it, the header ends with the last letter, which is kept.
    have hletter : m ++ header filler
        = (m ++ 0x00 :: lebFixed (1 + name.length + filler) ++ [0x03, 0x70, 0x61]) ++ [0x64] := by
      simp [header, name]
    rw [List.replicate_zero, List.append_nil, hletter]
    exact List.rdropWhile_concat_neg _ _ _ (by decide)
  | succ zeros ih =>
    rw [List.replicate_succ', ← List.append_assoc, List.rdropWhile_concat_pos _ _ _ (by decide), ih]

/-- The binary of an image is the one that was padded. -/
theorem unpad_pad (m : Bytes) : unpad (pad m) = m := by
  have hlength : (m ++ header (filler m.length)).length - overhead = m.length := by
    rw [List.length_append]
    exact Nat.add_sub_cancel m.length overhead
  rw [unpad, pad, ← List.append_assoc, rdropWhile_header, List.rdrop, hlength, List.take_left]

/-- Padding is injective: binaries that differ have images that differ, even if one of them ends
with what looks like the padding of the other. The binary is recovered from its image, and a byte
string is an image exactly if padding what is recovered from it gives it back. -/
theorem pad_injective :
    (∀ m₁ m₂, pad m₁ = pad m₂ ↔ m₁ = m₂) ∧ (∀ m, unpad (pad m) = m) ∧
      ∀ image, (∃ m, pad m = image) ↔ pad (unpad image) = image := by
  refine ⟨fun m₁ m₂ => ⟨fun h => ?_, congrArg pad⟩, unpad_pad,
    fun image => ⟨?_, fun h => ⟨unpad image, h⟩⟩⟩
  · calc m₁ = unpad (pad m₁) := (unpad_pad m₁).symm
      _ = unpad (pad m₂) := by rw [h]
      _ = m₂ := unpad_pad m₂
  · rintro ⟨m, rfl⟩
    rw [unpad_pad]

end HashLoader.Padding
