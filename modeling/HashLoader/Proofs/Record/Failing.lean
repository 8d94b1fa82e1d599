import HashLoader.Proofs.Record.Reading

/-!
# Why a reading fails, and where it stops

A reading fails if no item of its kind stands in front of the view. `Tag.Missing` lists the ways in
which that can be so, each with its error and with the bytes that are passed before it shows: none
for a tag that is not there, the tag if what follows it is cut short, the tag and the length if the
body is. Blobs and records fail in the same ways (`enclosed_eq_error_iff`).

`Tag.Refuses` says the same of the bytes alone: they begin with another tag, or they end before an
item of the kind does, so that some bytes more make them one. Either is an item that is missing
(`Tag.refuses_iff_missing`), so a buffer that ends too early can be told without looking at its
headers.
-/

namespace HashLoader.Record

/-! ## Items that are missing -/

/-- The bytes are one item of the kind. -/
inductive Tag.Item : Tag → Bytes → Prop
  | scalar (x : UInt8) : Item .scalar [Tag.scalar.toByte, x]
  | enclosed {t : Tag} {body : Bytes} : t ≠ .scalar → body.length ≤ maxLength → Item t (t.enclose body)

/-- No item of the kind stands in front of the bytes. This shows as an error after some of them. -/
inductive Tag.Missing : Tag → Bytes → Error → Nat → Prop
  /-- Nothing is left. -/
  | absent {t : Tag} : Missing t [] .unexpectedEnd 0
  /-- Another byte stands in the place of the tag. -/
  | other {t : Tag} {x : UInt8} {rest : Bytes} : x ≠ t.toByte → Missing t (x :: rest) (.invalidTag x) 0
  /-- The byte of a scalar is not there. -/
  | noByte : Missing .scalar [Tag.scalar.toByte] .unexpectedEnd 1
  /-- The length is cut short. -/
  | noLength {t : Tag} {rest : Bytes} : t ≠ .scalar → rest.length < lengthWidth →
      Missing t (t.toByte :: rest) .unexpectedEnd 1
  /-- The body is cut short. -/
  | noBody {t : Tag} {header rest : Bytes} : t ≠ .scalar → header.length = lengthWidth →
      rest.length < Bytes.toNatLE header →
      Missing t (t.toByte :: (header ++ rest)) .unexpectedEnd (1 + lengthWidth)

/-- The bytes do not begin with an item of the kind. -/
inductive Tag.Refuses : Tag → Bytes → Error → Prop
  /-- Another byte stands in the place of the tag. -/
  | other {t : Tag} {x : UInt8} {rest : Bytes} : x ≠ t.toByte → Refuses t (x :: rest) (.invalidTag x)
  /-- The bytes end before an item of the kind does. -/
  | ends {t : Tag} {b more : Bytes} : more ≠ [] → t.Item (b ++ more) → Refuses t b .unexpectedEnd

/-- No more bytes are passed than there are. -/
theorem Tag.Missing.le_length {t : Tag} {b : Bytes} {e : Error} {n : Nat} (h : t.Missing b e n) :
    n ≤ b.length := by
  cases h with
  | absent | other => exact Nat.zero_le _
  | noByte => exact Nat.le_refl _
  | noLength =>
    rw [List.length_cons]
    omega
  | noBody _ hheader =>
    rw [List.length_cons, List.length_append, hheader]
    omega

/-- A body stands behind the four bytes that spell its length. -/
theorem Tag.enclose_of_header {t : Tag} {header body : Bytes} (hheader : header.length = lengthWidth)
    (hbody : body.length = Bytes.toNatLE header) : t.enclose body = t.toByte :: (header ++ body) := by
  rw [enclose, hbody, ← hheader, Bytes.ofNatLE_toNatLE]

/-- Any four bytes begin an item, whose body is as long as they say. -/
theorem Tag.item_of_header {t : Tag} {header body : Bytes} (ht : t ≠ .scalar)
    (hheader : header.length = lengthWidth) (hbody : body.length = Bytes.toNatLE header) :
    t.Item (t.toByte :: (header ++ body)) := by
  rw [← enclose_of_header hheader hbody]
  exact .enclosed ht (by rw [hbody]; exact toNatLE_le_maxLength hheader)

/-- Bytes that end too early can be completed to an item. -/
theorem Tag.Missing.exists_item {t : Tag} {b : Bytes} {n : Nat} (h : t.Missing b .unexpectedEnd n) :
    ∃ more, more ≠ [] ∧ t.Item (b ++ more) := by
  cases h with
  | absent =>
    cases t with
    | scalar => exact ⟨_, List.cons_ne_nil _ _, .scalar 0⟩
    | blob | record =>
      have hitem {t : Tag} (ht : t ≠ .scalar) : t.Item (t.enclose []) := .enclosed ht (Nat.zero_le _)
      exact ⟨_, List.cons_ne_nil _ _, hitem (by decide)⟩
  | noByte => exact ⟨[0], List.cons_ne_nil _ _, .scalar 0⟩
  | @noLength _ rest ht hrest =>
    -- Zeros complete the length, and more zeros are the body that it asks for.
    let zeros := List.replicate (lengthWidth - rest.length) (0 : UInt8)
    have hheader : (rest ++ zeros).length = lengthWidth := by
      rw [List.length_append, List.length_replicate]
      omega
    have hitem := item_of_header ht hheader (List.length_replicate (a := 0))
    rw [List.append_assoc, ← List.cons_append] at hitem
    refine ⟨_, List.append_ne_nil_of_left_ne_nil ?_ _, hitem⟩
    rw [Ne, List.replicate_eq_nil_iff]
    omega
  | @noBody _ header rest ht hheader hrest =>
    let zeros := List.replicate (Bytes.toNatLE header - rest.length) (0 : UInt8)
    have hbody : (rest ++ zeros).length = Bytes.toNatLE header := by
      rw [List.length_append, List.length_replicate]
      omega
    have hitem := item_of_header ht hheader hbody
    rw [← List.append_assoc, ← List.cons_append] at hitem
    refine ⟨zeros, ?_, hitem⟩
    rw [Ne, List.replicate_eq_nil_iff]
    omega

/-- Bytes that can be completed to an item end too early. -/
theorem Tag.missing_of_item {t : Tag} {b more : Bytes} (hmore : more ≠ [])
    (hitem : t.Item (b ++ more)) :
    ∃ n, t.Missing b .unexpectedEnd n := by
  have hpos := List.length_pos_iff.2 hmore
  cases b with
  | nil => exact ⟨0, .absent⟩
  | cons x rest =>
    rw [List.cons_append] at hitem
    generalize hb : x :: (rest ++ more) = item at hitem
    cases hitem with
    | scalar y =>
      obtain ⟨rfl, htail⟩ := List.cons.inj hb
      cases rest with
      | nil => exact ⟨1, .noByte⟩
      | cons z rest =>
        -- Two bytes are all of a scalar, but more were to come.
        have hlen := congrArg List.length htail
        simp only [List.length_append, List.length_cons, List.length_nil] at hlen
        omega
    | @enclosed _ body ht hbody =>
      obtain ⟨rfl, htail⟩ := List.cons.inj hb
      by_cases hshort : rest.length < lengthWidth
      · exact ⟨1, .noLength ht hshort⟩
      · -- The length is there, so it is the body that is cut short.
        have hheader : (rest.take lengthWidth).length = lengthWidth :=
          List.length_take_of_le (Nat.le_of_not_lt hshort)
        have hsplit : rest.take lengthWidth ++ (rest.drop lengthWidth ++ more)
            = Bytes.ofNatLE lengthWidth body.length ++ body := by
          rw [← List.append_assoc, List.take_append_drop, htail]
        obtain ⟨hlength, hrest⟩ :=
          List.append_inj hsplit (hheader.trans (Bytes.length_ofNatLE _ _).symm)
        have hcut : (rest.drop lengthWidth).length < Bytes.toNatLE (rest.take lengthWidth) := by
          rw [hlength, toNatLE_ofNatLE_length hbody, ← hrest, List.length_append]
          omega
        have hmissing := Missing.noBody ht hheader hcut
        rw [List.take_append_drop] at hmissing
        exact ⟨_, hmissing⟩

/-- The bytes do not begin with an item exactly if the item is missing in one of its ways. -/
theorem Tag.refuses_iff_missing {t : Tag} {b : Bytes} {e : Error} :
    t.Refuses b e ↔ ∃ n, t.Missing b e n := by
  constructor
  · intro h
    cases h with
    | other hother => exact ⟨0, .other hother⟩
    | ends hmore hitem => exact missing_of_item hmore hitem
  · rintro ⟨n, h⟩
    have hends : e = .unexpectedEnd → t.Refuses b e := by
      rintro rfl
      obtain ⟨more, hmore, hitem⟩ := h.exists_item
      exact .ends hmore hitem
    cases h with
    | other hother => exact .other hother
    | absent | noByte | noLength | noBody => exact hends rfl

/-! ## Readings that fail -/

namespace View

/-- A sequence of two readings fails if the first one does, or the second where the first one left
off. -/
theorem bind_eq_error_iff {α β : Type} {r : Reading α} {f : α → Reading β} {v w : View} {e : Error} :
    (r >>= f) v = .error e w ↔ r v = .error e w ∨ ∃ a u, r v = .ok a u ∧ f a u = .error e w := by
  show EStateM.bind r f v = .error e w ↔ _
  unfold EStateM.bind
  cases hr : r v with
  | ok a u =>
    refine ⟨fun h => .inr ⟨a, u, rfl, h⟩, ?_⟩
    rintro (h | ⟨a', u', hok, h⟩)
    · cases h
    · cases hok
      exact h
  | error e' u =>
    constructor
    · intro h
      cases h
      exact .inl rfl
    · rintro (h | ⟨a', u', hok, -⟩)
      · cases h
        rfl
      · cases hok

/-- Bytes cannot be taken if fewer are left, and then none are. -/
theorem take_eq_error_iff {n : Nat} {v w : View} {e : Error} :
    take n v = .error e w ↔ v.bytes.length < n ∧ e = .unexpectedEnd ∧ w = v := by
  unfold take remaining
  split
  · next hfits => simp [Nat.not_lt.2 hfits]
  · next hshort => simp [Nat.not_le.1 hshort, eq_comm]

/-- No tag is seen if nothing is left or if the next byte is no tag. -/
theorem peekTag_eq_error_iff {v w : View} {e : Error} :
    peekTag v = .error e w ↔ w = v ∧ (v.bytes = [] ∧ e = .unexpectedEnd ∨
      ∃ x rest, v.bytes = x :: rest ∧ Tag.ofByte? x = none ∧ e = .invalidTag x) := by
  unfold peekTag
  cases hbytes : v.bytes with
  | nil => simp [eq_comm, and_comm]
  | cons x rest =>
    cases htag : Tag.ofByte? x with
    | none => simp [htag, eq_comm, and_comm]
    | some t => simp [htag]

/-- A tag is refused if it is not there, and then nothing is passed. -/
theorem expectTag_eq_error_iff {t : Tag} {v w : View} {e : Error} :
    expectTag t v = .error e w ↔ w = v ∧ (v.bytes = [] ∧ e = .unexpectedEnd ∨
      ∃ x rest, v.bytes = x :: rest ∧ x ≠ t.toByte ∧ e = .invalidTag x) := by
  unfold expectTag
  rw [bind_eq_error_iff]
  constructor
  · rintro (h | ⟨found, u, hpeek, h⟩)
    · obtain ⟨rfl, h | ⟨x, rest, hbytes, htag, rfl⟩⟩ := peekTag_eq_error_iff.1 h
      · exact ⟨rfl, .inl h⟩
      · refine ⟨rfl, .inr ⟨x, rest, hbytes, ?_, rfl⟩⟩
        rintro rfl
        rw [Tag.ofByte?_toByte] at htag
        cases htag
    · obtain ⟨rfl, rest, hbytes⟩ := peekTag_eq_ok_iff.1 hpeek
      split at h
      · rw [discard_take_of_cons hbytes] at h
        cases h
      · next hother =>
        cases h
        exact ⟨rfl, .inr ⟨_, rest, hbytes, mt Tag.toByte_inj.1 hother, rfl⟩⟩
  · rintro ⟨rfl, h | ⟨x, rest, hbytes, hother, rfl⟩⟩
    · exact .inl (peekTag_eq_error_iff.2 ⟨rfl, .inl h⟩)
    · cases htag : Tag.ofByte? x with
      | none => exact .inl (peekTag_eq_error_iff.2 ⟨rfl, .inr ⟨x, rest, hbytes, htag, rfl⟩⟩)
      | some found =>
        -- The byte is another tag.
        have hx := Tag.toByte_of_ofByte? htag
        rw [← hx] at hbytes hother ⊢
        refine .inr ⟨found, w, peekTag_eq_ok_iff.2 ⟨rfl, rest, hbytes⟩, ?_⟩
        rw [if_neg (mt Tag.toByte_inj.2 hother)]
        rfl

/-- A length is refused if it is cut short. -/
theorem length_eq_error_iff {v w : View} {e : Error} :
    length v = .error e w ↔ v.bytes.length < lengthWidth ∧ e = .unexpectedEnd ∧ w = v := by
  unfold length
  rw [bind_eq_error_iff, take_eq_error_iff]
  constructor
  · rintro (h | ⟨_, _, -, h⟩)
    · exact h
    · cases h
  · exact .inl

/-- An item with a body is refused if it is missing, and what is passed of it is not given back. -/
theorem enclosed_eq_error_iff {t : Tag} (ht : t ≠ .scalar) {v w : View} {e : Error} :
    (do expectTag t; take (← length) : Reading View) v = .error e w ↔
      ∃ n, t.Missing v.bytes e n ∧ w = v.back n := by
  obtain ⟨offset, bytes⟩ := v
  rw [bind_eq_error_iff, expectTag_eq_error_iff]
  constructor
  · rintro (⟨rfl, htag⟩ | ⟨⟨⟩, u, htag, h⟩)
    · rcases htag with ⟨rfl, rfl⟩ | ⟨x, rest, rfl, hother, rfl⟩
      · exact ⟨0, .absent, rfl⟩
      · exact ⟨0, .other hother, rfl⟩
    · -- The tag is there, so the length is cut short, or else the body.
      obtain ⟨tail, rfl, rfl⟩ := expectTag_eq_ok_iff.1 htag
      rcases bind_eq_error_iff.1 h with hlength | ⟨n, u, hlength, htake⟩
      · obtain ⟨hshort, rfl, rfl⟩ := length_eq_error_iff.1 hlength
        exact ⟨1, .noLength ht hshort, rfl⟩
      · obtain ⟨hn, rest, rfl, rfl⟩ := length_eq_ok_iff.1 hlength
        obtain ⟨hshort, rfl, rfl⟩ := take_eq_error_iff.1 htake
        have hcut : rest.length < Bytes.toNatLE (Bytes.ofNatLE lengthWidth n) := by
          rwa [toNatLE_ofNatLE_length hn]
        exact ⟨_, .noBody ht (Bytes.length_ofNatLE _ _) hcut, rfl⟩
  · rintro ⟨n, hmissing, rfl⟩
    cases hmissing with
    | absent => exact .inl ⟨rfl, .inl ⟨rfl, rfl⟩⟩
    | other hother => exact .inl ⟨rfl, .inr ⟨_, _, rfl, hother, rfl⟩⟩
    | noByte => exact absurd rfl ht
    | noLength _ hshort =>
      refine .inr ⟨(), _, expectTag_eq_ok_iff.2 ⟨_, rfl, rfl⟩, bind_eq_error_iff.2 (.inl ?_)⟩
      exact length_eq_error_iff.2 ⟨hshort, rfl, rfl⟩
    | @noBody _ header rest _ hheader hshort =>
      refine .inr ⟨(), _, expectTag_eq_ok_iff.2 ⟨_, rfl, rfl⟩, bind_eq_error_iff.2 (.inr ?_)⟩
      -- Four bytes are the spelling of the number that is read from them.
      have hback : Bytes.ofNatLE lengthWidth (Bytes.toNatLE header) = header := by
        rw [← hheader, Bytes.ofNatLE_toNatLE]
      refine ⟨_, _, length_eq_ok_iff.2 ⟨toNatLE_le_maxLength hheader, rest, ?_, rfl⟩, ?_⟩
      · rw [hback]
      · refine take_eq_error_iff.2 ⟨hshort, rfl, back_of_append (t.toByte :: header) rfl ?_⟩
        rw [List.length_cons, hheader, Nat.add_comm]

theorem blob_eq_error_iff {v w : View} {e : Error} :
    blob v = .error e w ↔ ∃ n, Tag.blob.Missing v.bytes e n ∧ w = v.back n :=
  enclosed_eq_error_iff (by decide)

theorem record_eq_error_iff {v w : View} {e : Error} :
    record v = .error e w ↔ ∃ n, Tag.record.Missing v.bytes e n ∧ w = v.back n :=
  enclosed_eq_error_iff (by decide)

/-- A scalar is refused if it is missing. -/
theorem scalar_eq_error_iff {v w : View} {e : Error} :
    scalar v = .error e w ↔ ∃ n, Tag.scalar.Missing v.bytes e n ∧ w = v.back n := by
  obtain ⟨offset, bytes⟩ := v
  unfold scalar
  rw [bind_eq_error_iff, expectTag_eq_error_iff]
  constructor
  · rintro (⟨rfl, htag⟩ | ⟨⟨⟩, u, htag, h⟩)
    · rcases htag with ⟨rfl, rfl⟩ | ⟨x, rest, rfl, hother, rfl⟩
      · exact ⟨0, .absent, rfl⟩
      · exact ⟨0, .other hother, rfl⟩
    · obtain ⟨tail, rfl, rfl⟩ := expectTag_eq_ok_iff.1 htag
      rcases bind_eq_error_iff.1 h with htake | ⟨_, _, -, h⟩
      · obtain ⟨hshort, rfl, rfl⟩ := take_eq_error_iff.1 htake
        obtain rfl : tail = [] := List.length_eq_zero_iff.1 (Nat.lt_one_iff.1 hshort)
        exact ⟨1, .noByte, rfl⟩
      · cases h
  · rintro ⟨n, hmissing, rfl⟩
    cases hmissing with
    | absent => exact .inl ⟨rfl, .inl ⟨rfl, rfl⟩⟩
    | other hother => exact .inl ⟨rfl, .inr ⟨_, _, rfl, hother, rfl⟩⟩
    | noByte =>
      refine .inr ⟨(), _, expectTag_eq_ok_iff.2 ⟨_, rfl, rfl⟩, bind_eq_error_iff.2 (.inl ?_)⟩
      exact take_eq_error_iff.2 ⟨Nat.one_pos, rfl, rfl⟩
    | noLength ht | noBody ht => exact absurd rfl ht

/-- A reading that fails where an item is missing fails on the bytes that do not begin with one. -/
theorem exists_error_iff {α : Type} {t : Tag} {r : Reading α} {v : View} {e : Error}
    (hr : ∀ {w}, r v = .error e w ↔ ∃ n, t.Missing v.bytes e n ∧ w = v.back n) :
    (∃ w, r v = .error e w) ↔ t.Refuses v.bytes e := by
  rw [Tag.refuses_iff_missing]
  constructor
  · rintro ⟨w, h⟩
    obtain ⟨n, hmissing, -⟩ := hr.1 h
    exact ⟨n, hmissing⟩
  · rintro ⟨n, hmissing⟩
    exact ⟨_, hr.2 ⟨n, hmissing, rfl⟩⟩

/-- A view is not finished while bytes are left. -/
theorem finish_eq_error_iff {v w : View} {e : Error} :
    finish v = .error e w ↔ v.bytes ≠ [] ∧ e = .trailingBytes v.bytes.length ∧ w = v := by
  unfold finish remaining
  split
  · next hlen => simp [List.length_eq_zero_iff.1 hlen]
  · next hlen => simp [mt List.length_eq_zero_iff.2 hlen, eq_comm]

end View

end HashLoader.Record
