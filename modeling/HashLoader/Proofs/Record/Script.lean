import HashLoader.Proofs.Except
import HashLoader.Proofs.Record.Reading
import HashLoader.Record.Script

/-!
# A script has one record

`ScriptFields.layout` is the record of a script in one piece. Writing gives the layout
(`encode_eq_ok_iff`), because ending a record sets its length header and changes nothing else
(`Encoder.endRecord_eq`). Reading accepts a buffer exactly if it is the layout of some script
(`verify_eq_ok_iff`): the laws of the single readings are rewritten from left to right, one for the
record and three for the items of its body. `verify_accepts_exactly_encodings` puts the two
together, so that reading and writing undo each other.
-/

namespace HashLoader.Record

/-! ## Writing -/

namespace Encoder

/-- A blob that fits its header is written as an item. -/
theorem blob_of_le {e : Encoder} {data : Bytes} (h : data.length ≤ maxLength) :
    e.blob data = .ok { e with bytes := e.bytes ++ Tag.blob.enclose data } := by
  rw [blob, if_pos h, Tag.enclose, List.cons_append]

/-- A blob that does not fit its header is refused. -/
theorem blob_of_gt {e : Encoder} {data : Bytes} (h : maxLength < data.length) :
    e.blob data = .error (.blobTooLarge data.length) := by
  rw [blob, if_neg (Nat.not_le.2 h)]

/-- Setting a length header changes the four bytes in front of the body, and no others. -/
theorem patch_append {header : Bytes} (front body : Bytes) (h : header.length = lengthWidth) :
    patch (front ++ (header ++ body)) (front.length + lengthWidth)
      = front ++ (Bytes.ofNatLE lengthWidth body.length ++ body) := by
  have hstart : front.length + lengthWidth = (front ++ header).length := by
    rw [List.length_append, h]
  have hlen : (front ++ header ++ body).length - (front ++ header).length = body.length := by
    rw [List.length_append, Nat.add_sub_cancel_left]
  unfold patch
  rw [Nat.add_sub_cancel, List.take_left, ← List.append_assoc, hstart, hlen, List.drop_left,
    List.append_assoc]

/-- Ending a record encloses what was written since it began. -/
theorem endRecord_eq (front body : Bytes) (outer : List Nat) :
    endRecord ⟨front ++ (Tag.record.toByte :: (Bytes.ofNatLE lengthWidth 0 ++ body)),
        (front.length + 1 + lengthWidth) :: outer⟩
      = if body.length ≤ maxLength then .ok ⟨front ++ Tag.record.enclose body, outer⟩
        else .error (.blobTooLarge body.length) := by
  have hpatch := patch_append (front ++ [Tag.record.toByte]) body (Bytes.length_ofNatLE lengthWidth 0)
  have hlen : (front ++ (Tag.record.toByte :: (Bytes.ofNatLE lengthWidth 0 ++ body))).length
      - (front.length + 1 + lengthWidth) = body.length := by
    simp only [List.length_append, List.length_cons, Bytes.length_ofNatLE]
    omega
  simp only [List.append_assoc, List.singleton_append, List.length_append, List.length_singleton]
    at hpatch
  simp only [endRecord, hlen, hpatch, Tag.enclose]

end Encoder

namespace ScriptFields

/-- The items of a body that stand in front of the arguments. -/
def front (f : ScriptFields) : Bytes :=
  Tag.blob.enclose f.codeHash.bytes ++ [Tag.scalar.toByte, f.hashType]

/-- The items of a body. -/
def items (f : ScriptFields) : Bytes := f.front ++ Tag.blob.enclose f.args

/-- The record of a script. -/
def layout (f : ScriptFields) : Bytes := Tag.record.enclose f.items

/-- Without its arguments a body has 44 bytes. -/
theorem length_items (f : ScriptFields) : f.items.length = f.args.length + 44 := by
  simp only [items, front, List.length_append, Tag.length_enclose, f.codeHash.length_bytes, hashSize,
    lengthWidth, List.length_cons, List.length_nil]
  omega

/-- Without its arguments a record has 49 bytes. -/
theorem length_layout (f : ScriptFields) : f.layout.length = f.args.length + 49 := by
  rw [layout, Tag.length_enclose, length_items]
  show 1 + 4 + (f.args.length + 44) = f.args.length + 49
  omega

/-- The arguments are what follows the first 49 bytes of a record. -/
theorem drop_layout (f : ScriptFields) : f.layout.drop 49 = f.args := by
  have hsplit : f.layout = (Tag.record.toByte :: (Bytes.ofNatLE lengthWidth f.items.length ++
      (f.front ++ (Tag.blob.toByte :: Bytes.ofNatLE lengthWidth f.args.length)))) ++ f.args := by
    simp [layout, items, Tag.enclose]
  rw [hsplit]
  apply List.drop_left'
  simp [front, f.codeHash.length_bytes, hashSize, lengthWidth]

/-- Writing a script gives its layout, unless the body is longer than its header can say. -/
theorem encode_eq_ok_iff {f : ScriptFields} {buf : Bytes} :
    f.encode = .ok buf ↔ f.args.length + 44 ≤ maxLength ∧ buf = f.layout := by
  have hhash : f.codeHash.bytes.length ≤ maxLength := by
    rw [f.codeHash.length_bytes]
    decide
  unfold encode
  rw [Encoder.blob_of_le hhash, ok_bind]
  by_cases hargs : f.args.length ≤ maxLength
  · -- Both blobs are written, so it is the end of the record that decides.
    have hopen : Encoder.empty.beginRecord.bytes ++ Tag.blob.enclose f.codeHash.bytes
        ++ [Tag.scalar.toByte, f.hashType] ++ Tag.blob.enclose f.args
        = [] ++ (Tag.record.toByte :: (Bytes.ofNatLE lengthWidth 0 ++ f.items)) := by
      simp [Encoder.beginRecord, Encoder.empty, items, front]
    rw [Encoder.blob_of_le hargs, ok_bind, Encoder.scalar, hopen]
    have hend := Encoder.endRecord_eq [] f.items []
    rw [length_items] at hend
    rw [show Encoder.empty.beginRecord.opened = [[].length + 1 + lengthWidth] from rfl, hend]
    split
    · next hfits =>
      rw [ok_bind, Encoder.finish, if_pos rfl, Except.ok.injEq, List.nil_append, eq_comm]
      exact (and_iff_right hfits).symm
    · next hlong => simp [hlong]
  · have hlong : ¬f.args.length + 44 ≤ maxLength := by omega
    rw [Encoder.scalar, Encoder.blob_of_gt (Nat.not_le.1 hargs)]
    simp [hlong]

end ScriptFields

/-! ## Reading -/

namespace Script

/-- A last reading succeeds if it gives a value, whatever it leaves. -/
theorem result_eq_ok_iff {α : Type} {r : EStateM.Result Error View α} {a : α} :
    result r = .ok a ↔ ∃ w, r = .ok a w := by
  cases r with
  | ok b w => simp [result]
  | error e w => simp [result]

/-- A hash field is a blob of the bytes of the hash. -/
theorem hashField_eq_ok_iff {h : Hash} {v w : View} :
    hashField v = .ok h w ↔
      ∃ rest, v.bytes = Tag.blob.enclose h.bytes ++ rest ∧ w = ⟨v.offset + 37, rest⟩ := by
  unfold hashField
  rw [View.bind_eq_ok_iff]
  constructor
  · rintro ⟨b, u, hblob, hhash⟩
    obtain ⟨-, rest, hbytes, -, rfl⟩ := View.blob_eq_ok_iff.1 hblob
    -- A blob of another length than a hash is refused.
    cases hof : Hash.ofBytes? b.bytes with
    | none =>
      rw [hof] at hhash
      contradiction
    | some h' =>
      rw [hof] at hhash
      obtain ⟨rfl, rfl⟩ := View.pure_eq_ok_iff.1 hhash
      have hb : b.bytes = h'.bytes := (Hash.bytes_of_ofBytes? hof).symm
      rw [hb] at hbytes
      refine ⟨rest, hbytes, ?_⟩
      rw [hb, h'.length_bytes]
      rfl
  · rintro ⟨rest, hbytes, rfl⟩
    have hfits : h.bytes.length ≤ maxLength := by
      rw [h.length_bytes]
      decide
    refine ⟨⟨v.offset + 1 + lengthWidth, h.bytes⟩, _,
      View.blob_eq_ok_iff.2 ⟨hfits, rest, hbytes, rfl, rfl⟩, ?_⟩
    rw [h.length_bytes, Hash.ofBytes?_bytes]
    rfl

/-- A body is read if it holds the three items and nothing else. -/
theorem body_eq_ok_iff {s : Script} {v w : View} :
    body v = .ok s w ↔
      s.args.bytes.length ≤ maxLength ∧ v.bytes = s.fields.items ∧
        s.args.offset = v.offset + 44 ∧ w = ⟨v.offset + 44 + s.args.bytes.length, []⟩ := by
  obtain ⟨codeHash, hashType, args⟩ := s
  constructor
  · intro h
    -- The readings one after another, each of which says what it took.
    obtain ⟨codeHash', u₁, hhash, h⟩ := View.bind_eq_ok_iff.1 h
    obtain ⟨hashType', u₂, htype, h⟩ := View.bind_eq_ok_iff.1 h
    obtain ⟨args', u₃, hargs, h⟩ := View.bind_eq_ok_iff.1 h
    obtain ⟨⟨⟩, u₄, hfinish, h⟩ := View.bind_eq_ok_iff.1 h
    obtain ⟨hs, rfl⟩ := View.pure_eq_ok_iff.1 h
    obtain ⟨rfl, rfl, rfl⟩ := Script.mk.inj hs
    obtain ⟨r₁, hb₁, rfl⟩ := hashField_eq_ok_iff.1 hhash
    obtain ⟨r₂, hb₂, rfl⟩ := View.scalar_eq_ok_iff.1 htype
    obtain ⟨hfits, r₃, hb₃, hoffset, rfl⟩ := View.blob_eq_ok_iff.1 hargs
    obtain ⟨hnil, rfl⟩ := View.finish_eq_ok_iff.1 hfinish
    simp only at hb₂ hb₃ hnil
    refine ⟨hfits, ?_, hoffset, ?_⟩
    · rw [hb₁, hb₂, hb₃, hnil, List.append_nil]
      simp [fields, ScriptFields.items, ScriptFields.front]
    · rw [hnil]
      rfl
  · rintro ⟨hfits, hbytes, hoffset, rfl⟩
    -- The body is cut where the readings stop.
    have hitems : v.bytes = Tag.blob.enclose codeHash.bytes ++
        (Tag.scalar.toByte :: hashType :: (Tag.blob.enclose args.bytes ++ [])) := by
      rw [hbytes]
      simp [fields, ScriptFields.items, ScriptFields.front]
    refine View.bind_eq_ok_iff.2 ⟨_, _, hashField_eq_ok_iff.2 ⟨_, hitems, rfl⟩, ?_⟩
    refine View.bind_eq_ok_iff.2 ⟨_, _, View.scalar_eq_ok_iff.2 ⟨_, rfl, rfl⟩, ?_⟩
    refine View.bind_eq_ok_iff.2 ⟨_, _, View.blob_eq_ok_iff.2 ⟨hfits, _, rfl, hoffset, rfl⟩, ?_⟩
    exact View.bind_eq_ok_iff.2 ⟨(), _, View.finish_eq_ok_iff.2 ⟨rfl, rfl⟩, rfl⟩

/-- A buffer is read if it is the layout of what the script says. -/
theorem verify_eq_ok_iff {buf : Bytes} {s : Script} :
    verify buf = .ok s ↔
      s.args.bytes.length + 44 ≤ maxLength ∧ buf = s.fields.layout ∧ s.args.offset = 49 := by
  have hlen : s.fields.items.length = s.args.bytes.length + 44 := s.fields.length_items
  constructor
  · intro h
    -- The record is read to the end of the buffer before its body is looked at.
    obtain ⟨inner, houter, hbody⟩ := bind_eq_ok_iff.1 h
    obtain ⟨w, houter⟩ := result_eq_ok_iff.1 houter
    obtain ⟨w', hbody⟩ := result_eq_ok_iff.1 hbody
    obtain ⟨inner', u, hrecord, houter⟩ := View.bind_eq_ok_iff.1 houter
    obtain ⟨⟨⟩, x, hfinish, houter⟩ := View.bind_eq_ok_iff.1 houter
    obtain ⟨rfl, rfl⟩ := View.pure_eq_ok_iff.1 houter
    obtain ⟨hfits, rest, hbytes, hoffset, rfl⟩ := View.record_eq_ok_iff.1 hrecord
    obtain ⟨hnil, -⟩ := View.finish_eq_ok_iff.1 hfinish
    obtain ⟨-, hitems, hargs, -⟩ := body_eq_ok_iff.1 hbody
    simp only at hnil
    rw [hitems, hlen] at hfits
    rw [hitems, hnil, List.append_nil] at hbytes
    rw [hoffset] at hargs
    exact ⟨hfits, hbytes, hargs⟩
  · rintro ⟨hfits, rfl, hoffset⟩
    have hrecord : View.record (View.ofBytes s.fields.layout)
        = .ok ⟨5, s.fields.items⟩ ⟨5 + s.fields.items.length, []⟩ :=
      View.record_eq_ok_iff.2 ⟨by rw [hlen]; exact hfits, [], (List.append_nil _).symm, rfl, rfl⟩
    have hbody : body ⟨5, s.fields.items⟩ = .ok s ⟨49 + s.args.bytes.length, []⟩ :=
      body_eq_ok_iff.2 ⟨by omega, rfl, hoffset, rfl⟩
    refine bind_eq_ok_iff.2 ⟨⟨5, s.fields.items⟩, ?_, result_eq_ok_iff.2 ⟨_, hbody⟩⟩
    refine result_eq_ok_iff.2 ⟨⟨5 + s.fields.items.length, []⟩, ?_⟩
    refine View.bind_eq_ok_iff.2 ⟨_, _, hrecord, ?_⟩
    exact View.bind_eq_ok_iff.2 ⟨(), _, View.finish_eq_ok_iff.2 ⟨rfl, rfl⟩, rfl⟩

/-- Reading accepts exactly what writing gives: a buffer is a script if and only if it is the record
of some hash, hash type and arguments that fit, and then these are what is read, the arguments where
they stand, from offset 49 to the end. So reading undoes writing, writing undoes reading, a script
has one record, and no record continues another one. -/
theorem verify_accepts_exactly_encodings :
    (∀ (buf : Bytes) (s : Script), verify buf = .ok s ↔
      ∃ (h : Hash) (t : UInt8) (a : Bytes), a.length + 44 ≤ maxLength ∧
        ScriptFields.encode ⟨h, t, a⟩ = .ok buf ∧
        s.codeHash = h ∧ s.hashType = t ∧ s.args = ⟨49, a⟩ ∧ buf.drop 49 = a) ∧
    (∀ f : ScriptFields, f.args.length + 44 ≤ maxLength →
      ∃ buf s, f.encode = .ok buf ∧ verify buf = .ok s ∧ s.fields = f) ∧
    (∀ (buf : Bytes) (s : Script), verify buf = .ok s → s.fields.encode = .ok buf) ∧
    (∀ (buf buf' : Bytes) (s s' : Script), verify buf = .ok s → verify buf' = .ok s' →
      s.fields = s'.fields → buf = buf') ∧
    (∀ (buf buf' : Bytes) (s s' : Script), verify buf = .ok s → verify buf' = .ok s' →
      buf <+: buf' → buf = buf') := by
  refine ⟨fun buf s => ⟨fun h => ?_, ?_⟩, fun f hfits => ?_, fun buf s h => ?_, ?_, ?_⟩
  -- A buffer that is read is the record of what was read.
  · obtain ⟨hfits, rfl, hoffset⟩ := verify_eq_ok_iff.1 h
    exact ⟨s.codeHash, s.hashType, s.args.bytes, hfits,
      ScriptFields.encode_eq_ok_iff.2 ⟨hfits, rfl⟩, rfl, rfl, by rw [← hoffset],
      s.fields.drop_layout⟩
  -- A record that was written is read back.
  · rintro ⟨h, t, a, hfits, hencode, rfl, rfl, hargs, -⟩
    obtain ⟨-, rfl⟩ := ScriptFields.encode_eq_ok_iff.1 hencode
    rw [verify_eq_ok_iff, fields, hargs]
    exact ⟨hfits, rfl, rfl⟩
  · exact ⟨f.layout, ⟨f.codeHash, f.hashType, ⟨49, f.args⟩⟩,
      ScriptFields.encode_eq_ok_iff.2 ⟨hfits, rfl⟩, verify_eq_ok_iff.2 ⟨hfits, rfl, rfl⟩, rfl⟩
  · obtain ⟨hfits, hbuf, -⟩ := verify_eq_ok_iff.1 h
    exact ScriptFields.encode_eq_ok_iff.2 ⟨hfits, hbuf⟩
  · intro buf buf' s s' h h' heq
    rw [(verify_eq_ok_iff.1 h).2.1, (verify_eq_ok_iff.1 h').2.1, heq]
  -- The length in front of the body settles where the record ends.
  · rintro buf buf' s s' h h' ⟨rest, hrest⟩
    obtain ⟨hfits, rfl, -⟩ := verify_eq_ok_iff.1 h
    obtain ⟨hfits', rfl, -⟩ := verify_eq_ok_iff.1 h'
    have hlen : s.fields.items.length ≤ maxLength := by rwa [ScriptFields.length_items]
    have hlen' : s'.fields.items.length ≤ maxLength := by rwa [ScriptFields.length_items]
    have hbody := Tag.enclose_append_inj hlen hlen' (hrest.trans (List.append_nil _).symm)
    rw [ScriptFields.layout, ScriptFields.layout, hbody.1]

/-- A script without arguments is written and read back. -/
theorem verify_accepts_exactly_encodings_empty :
    ([] : Bytes).length + 44 ≤ maxLength ∧
      ∃ buf s, ScriptFields.encode ⟨.zero, 1, []⟩ = .ok buf ∧ verify buf = .ok s ∧
        s.fields = ⟨.zero, 1, []⟩ :=
  ⟨by decide, verify_accepts_exactly_encodings.2.1 ⟨.zero, 1, []⟩ (by decide)⟩

end Script

end HashLoader.Record
