import HashLoader.Record.View

/-!
# What a reading takes from its view

A reading that succeeds splits the bytes of its view: what it took stands in front, what is left
follows. Each reading has one law of this form (`take_eq_ok_iff` to `scalar_eq_ok_iff`), in both
directions, so a format that is read item by item is inverted by rewriting with them. Blobs and
records share one layout, `Tag.enclose`, and one law, `enclosed_eq_ok_iff`.
-/

namespace HashLoader.Record

/-- An item that holds a body: its tag, the length of the body and the body. -/
def Tag.enclose (t : Tag) (body : Bytes) : Bytes :=
  t.toByte :: (Bytes.ofNatLE lengthWidth body.length ++ body)

/-- Five bytes stand in front of the body of an item. -/
@[simp]
theorem Tag.length_enclose (t : Tag) (body : Bytes) :
    (t.enclose body).length = 1 + lengthWidth + body.length := by
  simp only [Tag.enclose, List.length_cons, List.length_append, Bytes.length_ofNatLE]
  omega

/-- What four bytes spell is a length that a body can have. -/
theorem toNatLE_le_maxLength {header : Bytes} (hheader : header.length = lengthWidth) :
    Bytes.toNatLE header ≤ maxLength := by
  have hlt := Bytes.toNatLE_lt header
  rw [hheader] at hlt
  exact Nat.le_of_lt_succ hlt

/-- A length that a body can have is spelled by four bytes. -/
theorem toNatLE_ofNatLE_length {n : Nat} (hn : n ≤ maxLength) :
    Bytes.toNatLE (Bytes.ofNatLE lengthWidth n) = n := by
  rw [Bytes.toNatLE_ofNatLE]
  exact Nat.mod_eq_of_lt (Nat.lt_succ_of_le hn)

namespace View

/-- Behind the bytes in front stand the others. -/
theorem back_of_append {v : View} {rest : Bytes} {n : Nat} (front : Bytes)
    (hbytes : v.bytes = front ++ rest) (hn : front.length = n) : v.back n = ⟨v.offset + n, rest⟩ := by
  rw [back, hbytes, List.drop_left' hn]

/-- A sequence of two readings succeeds if both do. -/
theorem bind_eq_ok_iff {α β : Type} {r : Reading α} {f : α → Reading β} {v w : View} {b : β} :
    (r >>= f) v = .ok b w ↔ ∃ a u, r v = .ok a u ∧ f a u = .ok b w := by
  show EStateM.bind r f v = .ok b w ↔ _
  unfold EStateM.bind
  constructor
  · intro h
    split at h
    · next a u hr => exact ⟨a, u, hr, h⟩
    · contradiction
  · rintro ⟨a, u, hr, hf⟩
    rw [hr]
    exact hf

/-- Giving a value takes nothing. -/
theorem pure_eq_ok_iff {α : Type} {a b : α} {v w : View} :
    (pure a : Reading α) v = .ok b w ↔ a = b ∧ v = w := by
  show EStateM.Result.ok a v = .ok b w ↔ _
  rw [EStateM.Result.ok.injEq]

/-- Taking `n` bytes splits the view after them. -/
theorem take_eq_ok_iff {n : Nat} {v a w : View} :
    take n v = .ok a w ↔
      a.bytes.length = n ∧ ∃ rest, v.bytes = a.bytes ++ rest ∧ a.offset = v.offset ∧
        w = ⟨v.offset + n, rest⟩ := by
  unfold take
  constructor
  · intro h
    split at h
    · next hn =>
      obtain ⟨rfl, rfl⟩ := EStateM.Result.ok.inj h
      exact ⟨List.length_take_of_le hn, v.bytes.drop n, (List.take_append_drop n v.bytes).symm,
        rfl, rfl⟩
    · contradiction
  · rintro ⟨rfl, rest, hbytes, hoffset, rfl⟩
    have hfits : a.bytes.length ≤ v.remaining := by simp [remaining, hbytes]
    rw [if_pos hfits, front, back, hbytes, List.take_left, List.drop_left, ← hoffset]

/-- A byte that is there can be passed. -/
theorem discard_take_of_cons {x : UInt8} {rest : Bytes} {v : View} (h : v.bytes = x :: rest) :
    (discard (take 1) : Reading Unit) v = .ok () ⟨v.offset + 1, rest⟩ := by
  obtain ⟨offset, bytes⟩ := v
  subst h
  rfl

/-- The next tag is the byte in front, which stays. -/
theorem peekTag_eq_ok_iff {t : Tag} {v w : View} :
    peekTag v = .ok t w ↔ w = v ∧ ∃ rest, v.bytes = t.toByte :: rest := by
  unfold peekTag
  constructor
  · intro h
    split at h
    · cases h
    · next b rest hbytes =>
      split at h
      · next t' htag =>
        obtain ⟨rfl, rfl⟩ := EStateM.Result.ok.inj h
        exact ⟨rfl, rest, by rw [hbytes, Tag.toByte_of_ofByte? htag]⟩
      · cases h
  · rintro ⟨rfl, rest, hbytes⟩
    rw [hbytes]
    dsimp only
    rw [Tag.ofByte?_toByte]

/-- An expected tag is the byte in front. -/
theorem expectTag_eq_ok_iff {t : Tag} {v w : View} :
    expectTag t v = .ok () w ↔
      ∃ rest, v.bytes = t.toByte :: rest ∧ w = ⟨v.offset + 1, rest⟩ := by
  unfold expectTag
  rw [bind_eq_ok_iff]
  constructor
  · rintro ⟨found, u, hpeek, h⟩
    obtain ⟨rfl, rest, hbytes⟩ := peekTag_eq_ok_iff.1 hpeek
    split at h
    · next heq =>
      subst heq
      rw [discard_take_of_cons hbytes] at h
      obtain ⟨-, rfl⟩ := EStateM.Result.ok.inj h
      exact ⟨rest, hbytes, rfl⟩
    · cases h
  · rintro ⟨rest, hbytes, rfl⟩
    refine ⟨t, v, peekTag_eq_ok_iff.2 ⟨rfl, rest, hbytes⟩, ?_⟩
    rw [if_pos rfl, discard_take_of_cons hbytes]

/-- A length header is the four bytes of a number that fits. -/
theorem length_eq_ok_iff {n : Nat} {v w : View} :
    length v = .ok n w ↔
      n ≤ maxLength ∧ ∃ rest, v.bytes = Bytes.ofNatLE lengthWidth n ++ rest ∧
        w = ⟨v.offset + lengthWidth, rest⟩ := by
  unfold length
  rw [bind_eq_ok_iff]
  constructor
  · rintro ⟨header, u, htake, h⟩
    obtain ⟨hlen, rest, hbytes, -, rfl⟩ := take_eq_ok_iff.1 htake
    obtain ⟨rfl, rfl⟩ := pure_eq_ok_iff.1 h
    refine ⟨toNatLE_le_maxLength hlen, rest, ?_, rfl⟩
    have hback := Bytes.ofNatLE_toNatLE header.bytes
    rw [hlen] at hback
    rw [hback, hbytes]
  · rintro ⟨hn, rest, hbytes, rfl⟩
    refine ⟨⟨v.offset, Bytes.ofNatLE lengthWidth n⟩, _,
      take_eq_ok_iff.2 ⟨Bytes.length_ofNatLE _ _, rest, hbytes, rfl, rfl⟩, ?_⟩
    rw [toNatLE_ofNatLE_length hn]
    rfl

/-- An item that holds a body is read to the body, where it stands, and to what follows the item. -/
theorem enclosed_eq_ok_iff {t : Tag} {v a w : View} :
    (do expectTag t; take (← length) : Reading View) v = .ok a w ↔
      a.bytes.length ≤ maxLength ∧ ∃ rest, v.bytes = t.enclose a.bytes ++ rest ∧
        a.offset = v.offset + 1 + lengthWidth ∧
        w = ⟨v.offset + 1 + lengthWidth + a.bytes.length, rest⟩ := by
  constructor
  · intro h
    obtain ⟨⟨⟩, u, htag, h⟩ := bind_eq_ok_iff.1 h
    obtain ⟨n, x, hlength, h⟩ := bind_eq_ok_iff.1 h
    obtain ⟨tail, htail, rfl⟩ := expectTag_eq_ok_iff.1 htag
    obtain ⟨hn, body, hbody, rfl⟩ := length_eq_ok_iff.1 hlength
    obtain ⟨rfl, rest, hrest, hoffset, rfl⟩ := take_eq_ok_iff.1 h
    refine ⟨hn, rest, ?_, hoffset, rfl⟩
    simp only at hbody hrest
    rw [htail, hbody, hrest, Tag.enclose, List.cons_append, List.append_assoc]
  · rintro ⟨hn, rest, hbytes, hoffset, rfl⟩
    have hsplit : v.bytes =
        t.toByte :: (Bytes.ofNatLE lengthWidth a.bytes.length ++ (a.bytes ++ rest)) := by
      rw [hbytes, Tag.enclose, List.cons_append, List.append_assoc]
    refine bind_eq_ok_iff.2 ⟨(), _, expectTag_eq_ok_iff.2 ⟨_, hsplit, rfl⟩, ?_⟩
    refine bind_eq_ok_iff.2 ⟨_, _, length_eq_ok_iff.2 ⟨hn, _, rfl, rfl⟩, ?_⟩
    exact take_eq_ok_iff.2 ⟨rfl, rest, rfl, hoffset, rfl⟩

/-- A blob is read to its data. -/
theorem blob_eq_ok_iff {v a w : View} :
    blob v = .ok a w ↔
      a.bytes.length ≤ maxLength ∧ ∃ rest, v.bytes = Tag.blob.enclose a.bytes ++ rest ∧
        a.offset = v.offset + 1 + lengthWidth ∧
        w = ⟨v.offset + 1 + lengthWidth + a.bytes.length, rest⟩ :=
  enclosed_eq_ok_iff

/-- A record is read to its body. -/
theorem record_eq_ok_iff {v a w : View} :
    record v = .ok a w ↔
      a.bytes.length ≤ maxLength ∧ ∃ rest, v.bytes = Tag.record.enclose a.bytes ++ rest ∧
        a.offset = v.offset + 1 + lengthWidth ∧
        w = ⟨v.offset + 1 + lengthWidth + a.bytes.length, rest⟩ :=
  enclosed_eq_ok_iff

/-- A scalar is its tag and one byte. -/
theorem scalar_eq_ok_iff {x : UInt8} {v w : View} :
    scalar v = .ok x w ↔
      ∃ rest, v.bytes = Tag.scalar.toByte :: x :: rest ∧ w = ⟨v.offset + 2, rest⟩ := by
  unfold scalar
  rw [bind_eq_ok_iff]
  constructor
  · rintro ⟨⟨⟩, u, htag, h⟩
    obtain ⟨tail, htail, rfl⟩ := expectTag_eq_ok_iff.1 htag
    obtain ⟨a, x', htake, h⟩ := bind_eq_ok_iff.1 h
    obtain ⟨hlen, rest, hrest, -, rfl⟩ := take_eq_ok_iff.1 htake
    obtain ⟨rfl, rfl⟩ := pure_eq_ok_iff.1 h
    obtain ⟨y, hy⟩ := List.length_eq_one_iff.1 hlen
    simp only at hrest
    exact ⟨rest, by rw [htail, hrest, hy]; rfl, rfl⟩
  · rintro ⟨rest, hbytes, rfl⟩
    refine ⟨(), _, expectTag_eq_ok_iff.2 ⟨_, hbytes, rfl⟩, ?_⟩
    refine bind_eq_ok_iff.2 ⟨⟨v.offset + 1, [x]⟩, _, take_eq_ok_iff.2 ⟨rfl, rest, rfl, rfl, rfl⟩, ?_⟩
    rfl

/-- A finished view has nothing left. -/
theorem finish_eq_ok_iff {v w : View} : finish v = .ok () w ↔ v.bytes = [] ∧ w = v := by
  unfold finish remaining
  constructor
  · intro h
    split at h
    · next hlen =>
      obtain ⟨-, rfl⟩ := EStateM.Result.ok.inj h
      exact ⟨List.length_eq_zero_iff.1 hlen, rfl⟩
    · contradiction
  · rintro ⟨hbytes, rfl⟩
    rw [hbytes, if_pos List.length_nil]

end View

/-- Two items of one kind with which the same bytes start are the same: none continues another. -/
theorem Tag.enclose_append_inj {t : Tag} {a b r s : Bytes} (ha : a.length ≤ maxLength)
    (hb : b.length ≤ maxLength) (h : t.enclose a ++ r = t.enclose b ++ s) : a = b ∧ r = s := by
  have hread := View.enclosed_eq_ok_iff (t := t) (v := ⟨0, t.enclose a ++ r⟩) (a := ⟨5, a⟩)
    |>.2 ⟨ha, r, rfl, rfl, rfl⟩
  have hread' := View.enclosed_eq_ok_iff (t := t) (v := ⟨0, t.enclose a ++ r⟩) (a := ⟨5, b⟩)
    |>.2 ⟨hb, s, h, rfl, rfl⟩
  obtain ⟨hbody, hrest⟩ := EStateM.Result.ok.inj (hread.symm.trans hread')
  exact ⟨(View.mk.inj hbody).2, (View.mk.inj hrest).2⟩

end HashLoader.Record
