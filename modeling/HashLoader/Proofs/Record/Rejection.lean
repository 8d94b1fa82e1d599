import HashLoader.Proofs.Record.Failing
import HashLoader.Proofs.Record.Script

/-!
# Why a script is rejected

A buffer that is no script is rejected for one reason, which `Script.Rejects` gives. The tag and the
length in front come first: they settle where the record has to end, whatever its body holds. Only
if it ends there, the body is read from left to right, and the reason is the first deviation from
the three fields that it has to hold (`Deviates`).

The readings of a body are its fields (`Field.ReadBy`), so one law for a field in front of others
(`deviates_of_bind`) is the law of the body. `Script.verify_eq_error_iff_record` is the law of the
two parts of a verification, and `Script.verify_rejects_precisely` puts this together.
-/

namespace HashLoader.Record

/-! ## The fields of a body -/

/-- The fields that a body has to hold. -/
inductive Field
  | codeHash
  | hashType
  | args
deriving DecidableEq, Repr

namespace Field

/-- The fields of a body in their order. -/
def all : List Field := [codeHash, hashType, args]

/-- The kind of item that a field is. -/
def tag : Field → Tag
  | hashType => .scalar
  | codeHash | args => .blob

/-- The bytes are what the field may be. -/
inductive Holds : Field → Bytes → Prop
  | codeHash (h : Hash) : Holds .codeHash (Tag.blob.enclose h.bytes)
  | hashType (t : UInt8) : Holds .hashType [Tag.scalar.toByte, t]
  | args {a : Bytes} : a.length ≤ maxLength → Holds .args (Tag.blob.enclose a)

/-- The bytes do not begin with what the field may be. -/
inductive Fails : Field → Bytes → Error → Prop
  /-- They do not begin with an item of its kind. -/
  | refused {f : Field} {b : Bytes} {e : Error} : f.tag.Refuses b e → Fails f b e
  /-- A whole blob stands in the place of the hash and has another length. -/
  | noHash {data rest : Bytes} : data.length ≤ maxLength → data.length ≠ hashSize →
      Fails .codeHash (Tag.blob.enclose data ++ rest) (.invalidHashLength data.length)

end Field

/-- The first deviation of the bytes from the fields and from the end behind them. -/
inductive Deviates : List Field → Bytes → Error → Prop
  | here {f : Field} {later : List Field} {b : Bytes} {e : Error} : f.Fails b e →
      Deviates (f :: later) b e
  | later {f : Field} {later : List Field} {item rest : Bytes} {e : Error} : f.Holds item →
      Deviates later rest e → Deviates (f :: later) (item ++ rest) e
  | trailing {b : Bytes} : b ≠ [] → Deviates [] b (.trailingBytes b.length)

/-! ## Reading a body -/

/-- A reading takes what the field may be, and fails in front of everything else. -/
structure Field.ReadBy {α : Type} (f : Field) (r : Reading α) : Prop where
  /-- What is taken is what the field may be. -/
  taken : ∀ {v a w}, r v = .ok a w → ∃ item, f.Holds item ∧ v.bytes = item ++ w.bytes
  /-- Whatever the field may be is taken, and no more than that. -/
  takes : ∀ {v item rest}, f.Holds item → v.bytes = item ++ rest → ∃ a w, r v = .ok a w ∧ w.bytes = rest
  /-- The errors are those of bytes that do not begin with the field. -/
  fails : ∀ {v e}, (∃ w, r v = .error e w) ↔ f.Fails v.bytes e

/-- The hash type and the arguments fail as the items that they are. -/
theorem Field.fails_iff_refuses {f : Field} (hf : f ≠ .codeHash) {b : Bytes} {e : Error} :
    f.Fails b e ↔ f.tag.Refuses b e := by
  refine ⟨fun h => ?_, .refused⟩
  cases h with
  | refused h => exact h
  | noHash => exact absurd rfl hf

/-- A scalar is the hash type. -/
theorem Field.hashType_readBy : Field.hashType.ReadBy View.scalar where
  taken h := by
    obtain ⟨rest, hbytes, rfl⟩ := View.scalar_eq_ok_iff.1 h
    exact ⟨_, .hashType _, hbytes⟩
  takes hitem hbytes := by
    cases hitem with
    | hashType t => exact ⟨t, _, View.scalar_eq_ok_iff.2 ⟨_, hbytes, rfl⟩, rfl⟩
  fails := by
    intro v e
    rw [fails_iff_refuses (by decide)]
    exact View.exists_error_iff View.scalar_eq_error_iff

/-- A blob is the arguments. -/
theorem Field.args_readBy : Field.args.ReadBy View.blob where
  taken h := by
    obtain ⟨hlength, rest, hbytes, -, rfl⟩ := View.blob_eq_ok_iff.1 h
    exact ⟨_, .args hlength, hbytes⟩
  takes hitem hbytes := by
    cases hitem with
    | @args a hlength =>
      exact ⟨⟨_, a⟩, _, View.blob_eq_ok_iff.2 ⟨hlength, _, hbytes, rfl, rfl⟩, rfl⟩
  fails := by
    intro v e
    rw [fails_iff_refuses (by decide)]
    exact View.exists_error_iff View.blob_eq_error_iff

/-- A blob of the right length is the hash. -/
theorem Field.codeHash_readBy : Field.codeHash.ReadBy Script.hashField where
  taken h := by
    obtain ⟨rest, hbytes, rfl⟩ := Script.hashField_eq_ok_iff.1 h
    exact ⟨_, .codeHash _, hbytes⟩
  takes hitem hbytes := by
    cases hitem with
    | codeHash h => exact ⟨h, _, Script.hashField_eq_ok_iff.2 ⟨_, hbytes, rfl⟩, rfl⟩
  fails := by
    intro v e
    unfold Script.hashField
    simp only [View.bind_eq_error_iff]
    -- No blob is there, or one whose length is not that of a hash.
    constructor
    · rintro ⟨w, h | ⟨blob, u, hblob, h⟩⟩
      · exact .refused ((View.exists_error_iff View.blob_eq_error_iff).1 ⟨w, h⟩)
      · obtain ⟨hlength, rest, hbytes, -, rfl⟩ := View.blob_eq_ok_iff.1 hblob
        cases hhash : Hash.ofBytes? blob.bytes with
        | some hash =>
          rw [hhash] at h
          cases h
        | none =>
          rw [hhash] at h
          cases h
          rw [hbytes]
          exact .noHash hlength (Hash.ofBytes?_eq_none_iff.1 hhash)
    · intro h
      generalize hbytes : v.bytes = b at h
      cases h with
      | refused h =>
        subst hbytes
        obtain ⟨w, h⟩ := (View.exists_error_iff View.blob_eq_error_iff).2 h
        exact ⟨w, .inl h⟩
      | @noHash data rest hlength hsize =>
        refine ⟨⟨v.offset + 1 + lengthWidth + data.length, rest⟩, .inr ⟨⟨_, data⟩, _,
          View.blob_eq_ok_iff.2 ⟨hlength, rest, hbytes, rfl, rfl⟩, ?_⟩⟩
        rw [Hash.ofBytes?_eq_none_iff.2 hsize]
        rfl

/-- A field is read, and then what stands behind it. -/
theorem deviates_of_bind {α β : Type} {f : Field} {later : List Field} {r : Reading α}
    {g : α → Reading β} (hr : f.ReadBy r)
    (hg : ∀ {a v e}, (∃ w, g a v = .error e w) ↔ Deviates later v.bytes e) {v : View} {e : Error} :
    (∃ w, (r >>= g) v = .error e w) ↔ Deviates (f :: later) v.bytes e := by
  simp only [View.bind_eq_error_iff]
  -- Either side splits by whether the field fails, or is taken and the rest deviates.
  constructor
  · rintro ⟨w, h | ⟨a, u, hread, h⟩⟩
    · exact .here (hr.fails.1 ⟨w, h⟩)
    · obtain ⟨item, hitem, hbytes⟩ := hr.taken hread
      rw [hbytes]
      exact .later hitem (hg.1 ⟨w, h⟩)
  · intro h
    generalize hbytes : v.bytes = b at h
    cases h with
    | here h =>
      subst hbytes
      obtain ⟨w, h⟩ := hr.fails.2 h
      exact ⟨w, .inl h⟩
    | later hitem h =>
      obtain ⟨a, u, hread, rfl⟩ := hr.takes hitem hbytes
      obtain ⟨w, h⟩ := hg.2 h
      exact ⟨w, .inr ⟨a, u, hread, h⟩⟩

/-- Nothing may stand behind the last field. -/
theorem deviates_nil_iff {b : Bytes} {e : Error} :
    Deviates [] b e ↔ b ≠ [] ∧ e = .trailingBytes b.length := by
  constructor
  · intro h
    cases h with
    | trailing hb => exact ⟨hb, rfl⟩
  · rintro ⟨hb, rfl⟩
    exact .trailing hb

/-- A body is refused for its first deviation from the three fields. -/
theorem Script.body_eq_error_iff {v : View} {e : Error} :
    (∃ w, body v = .error e w) ↔ Deviates Field.all v.bytes e := by
  refine deviates_of_bind Field.codeHash_readBy (deviates_of_bind Field.hashType_readBy
    (deviates_of_bind Field.args_readBy ?_))
  intro args v e
  rw [deviates_nil_iff]
  simp only [View.bind_eq_error_iff, View.finish_eq_error_iff]
  constructor
  · rintro ⟨w, ⟨hb, he, -⟩ | ⟨_, _, -, h⟩⟩
    · exact ⟨hb, he⟩
    · cases h
  · rintro ⟨hb, he⟩
    exact ⟨v, .inl ⟨hb, he, rfl⟩⟩

/-! ## Reading a record -/

namespace Script

/-- A last reading fails if it gives an error, whatever it leaves. -/
theorem result_eq_error_iff {α : Type} {r : EStateM.Result Error View α} {e : Error} :
    result r = .error e ↔ ∃ w, r = .error e w := by
  cases r with
  | ok a w => simp [result]
  | error e' w => simp [result]

/-- A buffer is refused if no record stands in front of it, if something stands behind the record,
or else for the body. -/
theorem verify_eq_error_iff_record {buf : Bytes} {e : Error} :
    verify buf = .error e ↔ (∃ w, View.record (View.ofBytes buf) = .error e w) ∨
      ∃ inner u, View.record (View.ofBytes buf) = .ok inner u ∧
        (u.bytes ≠ [] ∧ e = .trailingBytes u.bytes.length ∨
          u.bytes = [] ∧ Deviates Field.all inner.bytes e) := by
  unfold verify
  simp only [bind_eq_error_iff, result_eq_error_iff, result_eq_ok_iff, View.bind_eq_error_iff,
    View.bind_eq_ok_iff, View.finish_eq_error_iff, body_eq_error_iff]
  constructor
  · rintro (⟨w, h | ⟨inner, u, hrecord, ⟨hextra, he, -⟩ | ⟨_, _, -, h⟩⟩⟩ |
      ⟨inner, ⟨w, _, u, hrecord, _, _, hfinish, h⟩, hbody⟩)
    · exact .inl ⟨w, h⟩
    · exact .inr ⟨inner, u, hrecord, .inl ⟨hextra, he⟩⟩
    · cases h
    · cases h
      exact .inr ⟨inner, u, hrecord, .inr ⟨(View.finish_eq_ok_iff.1 hfinish).1, hbody⟩⟩
  · rintro (⟨w, h⟩ | ⟨inner, u, hrecord, ⟨hextra, he⟩ | ⟨hend, hbody⟩⟩)
    · exact .inl ⟨w, .inl h⟩
    · exact .inl ⟨u, .inr ⟨inner, u, hrecord, .inl ⟨hextra, he, rfl⟩⟩⟩
    · have hfinish := View.finish_eq_ok_iff.2 ⟨hend, rfl⟩
      exact .inr ⟨inner, ⟨u, inner, u, hrecord, (), u, hfinish, rfl⟩, hbody⟩

/-- A buffer that does not begin with a record is refused for that. -/
theorem verify_of_missing {buf : Bytes} {e : Error} {n : Nat} (h : Tag.record.Missing buf e n) :
    verify buf = .error e :=
  verify_eq_error_iff_record.2 (.inl ⟨_, View.record_eq_error_iff.2 ⟨n, h, rfl⟩⟩)

/-- A record is taken from the front of a buffer, whatever its body holds. -/
theorem record_enclose {body : Bytes} (hbody : body.length ≤ maxLength) (extra : Bytes) :
    View.record (View.ofBytes (Tag.record.enclose body ++ extra))
      = .ok ⟨5, body⟩ ⟨5 + body.length, extra⟩ :=
  View.record_eq_ok_iff.2 ⟨hbody, extra, rfl, rfl, rfl⟩

/-- What follows a record is refused before its body is looked at. -/
theorem verify_of_trailing {body extra : Bytes} (hbody : body.length ≤ maxLength)
    (hextra : extra ≠ []) :
    verify (Tag.record.enclose body ++ extra) = .error (.trailingBytes extra.length) :=
  verify_eq_error_iff_record.2 (.inr ⟨_, _, record_enclose hbody extra, .inl ⟨hextra, rfl⟩⟩)

/-- A buffer that is one record is refused for its body. -/
theorem verify_enclose_eq_error_iff {items : Bytes} (hitems : items.length ≤ maxLength) {e : Error} :
    verify (Tag.record.enclose items) = .error e ↔ Deviates Field.all items e := by
  have hrecord := record_enclose hitems []
  rw [List.append_nil] at hrecord
  rw [verify_eq_error_iff_record, hrecord]
  constructor
  · rintro (⟨_, h⟩ | ⟨_, _, h, ⟨hextra, -⟩ | ⟨-, hbody⟩⟩)
    · cases h
    · cases h
      exact absurd rfl hextra
    · cases h
      exact hbody
  · exact fun hbody => .inr ⟨_, _, rfl, .inr ⟨rfl, hbody⟩⟩

/-! ## The reason of a rejection -/

/-- The length that stands behind the tag of a buffer. -/
def headerLength (buf : Bytes) : Nat := Bytes.toNatLE ((buf.drop 1).take lengthWidth)

/-- Why a buffer is no script: by its tag, its length, or else by its body. -/
def Rejects (buf : Bytes) (e : Error) : Prop :=
  match buf with
  | [] => e = .unexpectedEnd
  | x :: _ =>
    if x ≠ 0x40 then e = .invalidTag x
    else if buf.length < 5 ∨ buf.length < 5 + headerLength buf then e = .unexpectedEnd
    else if 5 + headerLength buf < buf.length then
      e = .trailingBytes (buf.length - 5 - headerLength buf)
    else Deviates Field.all (buf.drop 5) e

/-- The rest of a buffer that is long enough is its header and what stands behind it. -/
theorem exists_header {x : UInt8} {rest : Bytes} (hlong : lengthWidth ≤ rest.length) :
    ∃ header behind, rest = header ++ behind ∧ header.length = lengthWidth ∧
      headerLength (x :: rest) = Bytes.toNatLE header ∧ (x :: rest).drop 5 = behind :=
  ⟨rest.take lengthWidth, rest.drop lengthWidth, (List.take_append_drop _ _).symm,
    List.length_take_of_le hlong, rfl, rfl⟩

/-- A record ends where the length in front says, and what stands behind it is refused. -/
theorem verify_of_long {header behind : Bytes} (hheader : header.length = lengthWidth)
    (hlong : Bytes.toNatLE header < behind.length) :
    verify (Tag.record.toByte :: (header ++ behind))
      = .error (.trailingBytes (behind.length - Bytes.toNatLE header)) := by
  have hitems : (behind.take (Bytes.toNatLE header)).length = Bytes.toNatLE header :=
    List.length_take_of_le (Nat.le_of_lt hlong)
  have hextra : behind.drop (Bytes.toNatLE header) ≠ [] := by
    rwa [Ne, List.drop_eq_nil_iff, Nat.not_le]
  have hrecord := verify_of_trailing (by rw [hitems]; exact toNatLE_le_maxLength hheader) hextra
  rwa [Tag.enclose_of_header hheader hitems, List.cons_append, List.append_assoc,
    List.take_append_drop, List.length_drop] at hrecord

/-- A buffer is refused for the reason that it gives. -/
theorem verify_eq_error_iff {buf : Bytes} {e : Error} : verify buf = .error e ↔ Rejects buf e := by
  -- A buffer has one error, so where it is known, the reason has to name it.
  have settled : ∀ {buf e'}, verify buf = .error e' → (verify buf = .error e ↔ e = e') := by
    intro buf e' h
    rw [h, Except.error.injEq, eq_comm]
  rcases buf with _ | ⟨x, rest⟩
  · exact settled (verify_of_missing .absent)
  rw [Rejects]
  by_cases hx : x ≠ 0x40
  · rw [if_pos hx]
    exact settled (verify_of_missing (.other hx))
  obtain rfl : x = Tag.record.toByte := Classical.not_not.1 hx
  rw [if_neg hx]
  by_cases hshort : rest.length < lengthWidth
  · rw [if_pos (.inl (Nat.succ_lt_succ hshort))]
    exact settled (verify_of_missing (.noLength (by decide) hshort))
  obtain ⟨header, behind, hrest, hheader, hlength, hdrop⟩ := exists_header (Nat.not_lt.1 hshort)
  have hbuf : (Tag.record.toByte :: rest).length = 5 + behind.length := by
    rw [hrest, List.length_cons, List.length_append, hheader, lengthWidth]
    omega
  rw [hlength, hbuf, hdrop]
  -- The record asks for more than the buffer has, for all of it, or for less.
  rcases Nat.lt_trichotomy behind.length (Bytes.toNatLE header) with hcut | hbody | hlong
  · rw [if_pos (.inr (by omega)), hrest]
    exact settled (verify_of_missing (.noBody (by decide) hheader hcut))
  · rw [if_neg (by omega), if_neg (by omega), hrest, ← Tag.enclose_of_header hheader hbody]
    exact verify_enclose_eq_error_iff (by rw [hbody]; exact toNatLE_le_maxLength hheader)
  · rw [if_neg (by omega), if_pos (by omega), hrest, Nat.add_sub_cancel_left]
    exact settled (verify_of_long hheader hlong)

/-- No body is refused for a blob that is too large. -/
theorem ne_blobTooLarge_of_deviates {fields : List Field} {b : Bytes} {e : Error}
    (h : Deviates fields b e) (n : Nat) : e ≠ .blobTooLarge n := by
  induction h with
  | here h =>
    cases h with
    | refused h => cases h <;> exact nofun
    | noHash => exact nofun
  | later _ _ ih => exact ih
  | trailing => exact nofun

/-- No buffer is. -/
theorem ne_blobTooLarge_of_rejects {buf : Bytes} {e : Error} (h : Rejects buf e) (n : Nat) :
    e ≠ .blobTooLarge n := by
  unfold Rejects at h
  split at h
  · rw [h]
    exact nofun
  · split at h
    · rw [h]
      exact nofun
    · split at h
      · rw [h]
        exact nofun
      · split at h
        · rw [h]
          exact nofun
        · exact ne_blobTooLarge_of_deviates h n

/-- A buffer is rejected for the reason that its tag, its length or else its body gives, read from
left to right. In particular, where a record is cut off somewhere, what is left ends too early, and
where bytes are added to it, they are counted. No buffer is rejected for a blob that is too large.
-/
theorem verify_rejects_precisely :
    (∀ (buf : Bytes) (e : Error), verify buf = .error e ↔ Rejects buf e) ∧
    (∀ (buf more : Bytes) (s : Script), more ≠ [] → verify (buf ++ more) = .ok s →
      verify buf = .error .unexpectedEnd) ∧
    (∀ (buf more : Bytes) (s : Script), more ≠ [] → verify buf = .ok s →
      verify (buf ++ more) = .error (.trailingBytes more.length)) ∧
    ∀ (buf : Bytes) (n : Nat), verify buf ≠ .error (.blobTooLarge n) := by
  refine ⟨fun buf e => verify_eq_error_iff, fun buf more s hmore h => ?_, fun buf more s hmore h => ?_,
    fun buf n h => ?_⟩
  · -- What is left of a script can be completed to a record, so the record is missing.
    obtain ⟨hfits, hlayout, -⟩ := verify_eq_ok_iff.1 h
    have hitem : Tag.record.Item (buf ++ more) := by
      rw [hlayout]
      exact .enclosed (by decide) (by rw [ScriptFields.length_items]; exact hfits)
    obtain ⟨n, hmissing⟩ := Tag.refuses_iff_missing.1 (.ends hmore hitem)
    exact verify_of_missing hmissing
  · obtain ⟨hfits, rfl, -⟩ := verify_eq_ok_iff.1 h
    exact verify_of_trailing (by rw [ScriptFields.length_items]; exact hfits) hmore
  · exact ne_blobTooLarge_of_rejects (verify_eq_error_iff.1 h) n rfl

/-- The record of a script without arguments is rejected without its last byte, and with one more.
-/
theorem verify_rejects_precisely_bare :
    (ScriptFields.layout ⟨.zero, 1, []⟩).drop 48 ≠ [] ∧
      verify (ScriptFields.layout ⟨.zero, 1, []⟩) = .ok ⟨.zero, 1, ⟨49, []⟩⟩ ∧
      verify ((ScriptFields.layout ⟨.zero, 1, []⟩).take 48) = .error .unexpectedEnd ∧
      verify (ScriptFields.layout ⟨.zero, 1, []⟩ ++ [0]) = .error (.trailingBytes 1) := by
  have hread : verify (ScriptFields.layout ⟨.zero, 1, []⟩) = .ok ⟨.zero, 1, ⟨49, []⟩⟩ :=
    verify_eq_ok_iff.2 ⟨by decide, rfl, rfl⟩
  have hlast : (ScriptFields.layout ⟨.zero, 1, []⟩).drop 48 ≠ [] := by decide
  have hwhole := hread
  rw [← List.take_append_drop 48 (ScriptFields.layout ⟨.zero, 1, []⟩)] at hwhole
  obtain ⟨-, hcut, hadded, -⟩ := verify_rejects_precisely
  exact ⟨hlast, hread, hcut _ _ _ hlast hwhole, hadded _ [0] _ (List.cons_ne_nil 0 []) hread⟩

/-- Bytes behind a record are counted before the tag in its body is seen to be wrong. -/
example : verify [0x40, 1, 0, 0, 0, 0xff, 0, 0] = .error (.trailingBytes 2) := rfl

end Script

end HashLoader.Record
