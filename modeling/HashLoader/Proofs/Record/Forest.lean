import HashLoader.Proofs.Except
import HashLoader.Proofs.Record.Script

/-!
# Forests of items

Records hold items, and these may be records again. A `Forest` is a sequence of items with all that
is in them, and `Forest.bytes` spells it out by recursion: the tag of an item, the length of its
body and the body, then the items that follow. No length is known before its body here, and none is
set later.

A step of an encoder appends an item (`scalar_eq_put`, `blob_eq_put`), and ending a record appends
all of it to what was written before it began (`endRecord_put`). So writing a forest step by step
gives its bytes, if every length in it fits its header (`encode_of_fits`).
-/

namespace HashLoader.Record

/-! ## What a step appends -/

namespace Encoder

/-- The encoder with some more bytes, in the records that are open. -/
def put (e : Encoder) (b : Bytes) : Encoder := { e with bytes := e.bytes ++ b }

@[simp]
theorem put_nil (e : Encoder) : e.put [] = e := by rw [put, List.append_nil]

@[simp]
theorem put_put (e : Encoder) (a b : Bytes) : (e.put a).put b = e.put (a ++ b) := by
  rw [put, put, put, List.append_assoc]

/-- A scalar is appended. -/
theorem scalar_eq_put (e : Encoder) (v : UInt8) : e.scalar v = e.put [Tag.scalar.toByte, v] := rfl

/-- A blob that fits its header is appended. -/
theorem blob_eq_put {data : Bytes} (h : data.length ≤ maxLength) (e : Encoder) :
    e.blob data = .ok (e.put (Tag.blob.enclose data)) := blob_of_le h

/-- Ending a record appends it to what was written before it began. -/
theorem endRecord_put {body : Bytes} (h : body.length ≤ maxLength) (e : Encoder) :
    (e.beginRecord.put body).endRecord = .ok (e.put (Tag.record.enclose body)) := by
  have hend := endRecord_eq e.bytes body e.opened
  rw [if_pos h] at hend
  have hopen : e.beginRecord.put body
      = ⟨e.bytes ++ (Tag.record.toByte :: (Bytes.ofNatLE lengthWidth 0 ++ body)),
        (e.bytes.length + 1 + lengthWidth) :: e.opened⟩ := by
    rw [beginRecord, put, List.append_assoc, List.cons_append]
  rw [hopen, hend, put]

end Encoder

/-! ## Forests -/

/-- Items that follow one another. -/
inductive Forest
  | nil
  | scalar (v : UInt8) (rest : Forest)
  | blob (data : Bytes) (rest : Forest)
  /-- A record, the items of its body and those that follow it. -/
  | record (body rest : Forest)
deriving DecidableEq, Repr

namespace Forest

/-- The bytes of the items, one item after another. -/
def bytes : Forest → Bytes
  | nil => []
  | scalar v rest => Tag.scalar.toByte :: v :: rest.bytes
  | blob data rest => Tag.blob.enclose data ++ rest.bytes
  | record body rest => Tag.record.enclose body.bytes ++ rest.bytes

/-- Every blob and every body is short enough for its length header. -/
def Fits : Forest → Prop
  | nil => True
  | scalar _ rest => rest.Fits
  | blob data rest => data.length ≤ maxLength ∧ rest.Fits
  | record body rest => body.bytes.length ≤ maxLength ∧ body.Fits ∧ rest.Fits

/-- Whether a forest fits is found by measuring its blobs and bodies. -/
def decideFits : (f : Forest) → Decidable f.Fits
  | nil => .isTrue trivial
  | scalar _ rest => rest.decideFits
  | blob data rest =>
    have := rest.decideFits
    inferInstanceAs (Decidable (data.length ≤ maxLength ∧ rest.Fits))
  | record body rest =>
    have := body.decideFits
    have := rest.decideFits
    inferInstanceAs (Decidable (body.bytes.length ≤ maxLength ∧ body.Fits ∧ rest.Fits))

instance : DecidablePred Fits := decideFits

/-- The items of one forest and then those of another one. -/
def append : Forest → Forest → Forest
  | nil, g => g
  | scalar v rest, g => scalar v (rest.append g)
  | blob data rest, g => blob data (rest.append g)
  | record body rest, g => record body (rest.append g)

instance : Append Forest := ⟨append⟩

theorem nil_append (g : Forest) : nil ++ g = g := rfl

theorem scalar_append (v : UInt8) (rest g : Forest) : scalar v rest ++ g = scalar v (rest ++ g) := rfl

theorem blob_append (data : Bytes) (rest g : Forest) :
    blob data rest ++ g = blob data (rest ++ g) := rfl

theorem record_append (body rest g : Forest) : record body rest ++ g = record body (rest ++ g) := rfl

/-- The bytes of joined forests stand behind one another. -/
theorem bytes_append (f g : Forest) : (f ++ g).bytes = f.bytes ++ g.bytes := by
  induction f with
  | nil => rfl
  | scalar v rest ih => rw [scalar_append, bytes, bytes, ih, List.cons_append, List.cons_append]
  | blob data rest ih => rw [blob_append, bytes, bytes, ih, List.append_assoc]
  | record body rest _ ih => rw [record_append, bytes, bytes, ih, List.append_assoc]

/-- Joined forests fit if each of them does. -/
theorem fits_append {f g : Forest} : (f ++ g).Fits ↔ f.Fits ∧ g.Fits := by
  induction f with
  | nil => exact (iff_of_eq (true_and _)).symm
  | scalar v rest ih => exact ih
  | blob data rest ih => rw [blob_append, Fits, Fits, ih, and_assoc]
  | record body rest _ ih => rw [record_append, Fits, Fits, ih, and_assoc, and_assoc]

/-! ## Writing a forest -/

/-- The steps that write the items. A record is begun, its body is written, and it is ended. -/
def steps : Forest → List Encoder.Step
  | nil => []
  | scalar v rest => .scalar v :: rest.steps
  | blob data rest => .blob data :: rest.steps
  | record body rest => .beginRecord :: (body.steps ++ .endRecord :: rest.steps)

/-- What an encoder makes of the items. -/
def encode (f : Forest) : Except Error Bytes := do
  (← f.steps.foldlM Encoder.apply Encoder.empty).finish

/-- Writing items that fit appends their bytes, whatever records are open. -/
theorem foldlM_steps {f : Forest} (hf : f.Fits) (e : Encoder) :
    f.steps.foldlM Encoder.apply e = .ok (e.put f.bytes) := by
  induction f generalizing e with
  | nil => rw [steps, bytes, Encoder.put_nil]; rfl
  | scalar v rest ih =>
    rw [steps, List.foldlM_cons, Encoder.apply, ok_bind, ih hf, Encoder.scalar_eq_put, Encoder.put_put,
      bytes]
    rfl
  | blob data rest ih =>
    obtain ⟨hdata, hrest⟩ := hf
    rw [steps, List.foldlM_cons, Encoder.apply, Encoder.blob_eq_put hdata, ok_bind, ih hrest,
      Encoder.put_put, bytes]
  | record body rest ihBody ih =>
    obtain ⟨hlength, hbody, hrest⟩ := hf
    rw [steps, List.foldlM_cons, Encoder.apply, ok_bind, List.foldlM_append, ihBody hbody, ok_bind,
      List.foldlM_cons, Encoder.apply, Encoder.endRecord_put hlength, ok_bind, ih hrest,
      Encoder.put_put, bytes]

/-- Writing a forest that fits gives its bytes. -/
theorem encode_of_fits {f : Forest} (hf : f.Fits) : f.encode = .ok f.bytes := by
  rw [encode, foldlM_steps hf, ok_bind, Encoder.finish]
  rfl

end Forest

end HashLoader.Record
