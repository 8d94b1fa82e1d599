import HashLoader.Text.Utf8

/-!
# Characters as bytes

The bytes of a character are `charBytes`. What is pending while a character is read says which bytes
complete it to which character (`Pending.Completes`). After a first byte these are exactly the bytes
that follow it in a character (`charBytes_eq_cons_iff`). This is the only place where the ranges of
the bytes matter: no character is longer than it has to be, none is a surrogate, and none is behind
U+10FFFF.

So no character begins with all bytes of another one (`eq_of_charBytes_append`).
-/

namespace HashLoader.Utf8

/-! ## The bytes of a character -/

/-- The bytes of a character. -/
def charBytes (c : Char) : Bytes := String.utf8EncodeChar c

/-- Going through a byte array gives the bytes behind an index. -/
theorem toList_loop_eq (b : ByteArray) (i : Nat) (read : Bytes) :
    ByteArray.toList.loop b i read = read.reverse ++ b.data.toList.drop i := by
  fun_induction ByteArray.toList.loop b i read with
  | case1 i read h ih =>
    have hi : i < b.data.toList.length := by simpa using h
    rw [ih, List.drop_eq_getElem_cons hi]
    simp [ByteArray.get!, h]
  | case2 i read h =>
    rw [List.drop_eq_nil_of_le (by simpa using Nat.le_of_not_lt h), List.append_nil]

/-- The bytes of a text are those of its characters, one after another. -/
theorem encode_eq_flatMap (s : String) : encode s = s.toList.flatMap charBytes := by
  rw [encode, String.toUTF8_eq_toByteArray, ← String.utf8Encode_toList, ByteArray.toList,
    toList_loop_eq, List.reverse_nil, List.nil_append, List.drop_zero, List.utf8Encode,
    List.toList_data_toByteArray]
  rfl

/-- The numbers of characters. -/
theorem toNat_valid (c : Char) : c.toNat < 0xD800 ∨ 0xDFFF < c.toNat ∧ c.toNat < 0x110000 := c.valid

/-- The character with a number that is valid has that number. -/
theorem toNat_ofNat {n : Nat} (h : n < 0xD800 ∨ 0xDFFF < n ∧ n < 0x110000) :
    (Char.ofNat n).toNat = n := by
  rw [Char.ofNat, dif_pos h]
  rfl

/-- A character has one to four bytes, by its number. -/
theorem charBytes_cases (c : Char) :
    (c.toNat < 0x80 ∧ ∃ b : UInt8, charBytes c = [b] ∧ b.toNat = c.toNat) ∨
    (0x80 ≤ c.toNat ∧ c.toNat < 0x800 ∧ ∃ b x : UInt8, charBytes c = [b, x] ∧
      b.toNat = c.toNat / 64 + 0xC0 ∧ x.toNat = c.toNat % 64 + 0x80) ∨
    (0x800 ≤ c.toNat ∧ c.toNat < 0x10000 ∧ ∃ b x y : UInt8, charBytes c = [b, x, y] ∧
      b.toNat = c.toNat / 4096 + 0xE0 ∧ x.toNat = c.toNat / 64 % 64 + 0x80 ∧
      y.toNat = c.toNat % 64 + 0x80) ∨
    (0x10000 ≤ c.toNat ∧ ∃ b x y z : UInt8, charBytes c = [b, x, y, z] ∧
      b.toNat = c.toNat / 262144 + 0xF0 ∧ x.toNat = c.toNat / 4096 % 64 + 0x80 ∧
      y.toNat = c.toNat / 64 % 64 + 0x80 ∧ z.toNat = c.toNat % 64 + 0x80) := by
  have hvalid := toNat_valid c
  have hbyte : ∀ n, (UInt8.ofNat n).toNat = n % 256 := fun _ => UInt8.toNat_ofNat'
  unfold charBytes
  -- The bytes are numbers below 256, so none of them is reduced.
  fun_cases String.utf8EncodeChar c with
  | case1 v h =>
    have hv : v = c.toNat := rfl
    exact .inl ⟨by omega, _, rfl, by rw [hbyte]; omega⟩
  | case2 v h h' =>
    have hv : v = c.toNat := rfl
    exact .inr (.inl ⟨by omega, by omega, _, _, rfl, by rw [hbyte]; omega, by rw [hbyte]; omega⟩)
  | case3 v h h' h'' =>
    have hv : v = c.toNat := rfl
    exact .inr (.inr (.inl ⟨by omega, by omega, _, _, _, rfl, by rw [hbyte]; omega,
      by rw [hbyte]; omega, by rw [hbyte]; omega⟩))
  | case4 v h h' h'' =>
    have hv : v = c.toNat := rfl
    exact .inr (.inr (.inr ⟨by omega, _, _, _, _, rfl, by rw [hbyte]; omega,
      by rw [hbyte]; omega, by rw [hbyte]; omega, by rw [hbyte]; omega⟩))

/-! ## What is pending -/

namespace Pending

/-- A byte may come next. -/
def Takes (p : Pending) (b : UInt8) : Prop := p.low ≤ b ∧ b ≤ p.high

instance (p : Pending) (b : UInt8) : Decidable (p.Takes b) := inferInstanceAs (Decidable (_ ∧ _))

/-- The bits of the code point after one more byte. -/
def bitsWith (p : Pending) (b : UInt8) : Nat := p.bits * 64 + b.toNat % 64

/-- What is pending after one more byte that is not the last. -/
def next (p : Pending) (b : UInt8) : Pending := ⟨p.owed - 1, 0x80, 0xBF, p.bitsWith b⟩

/-- The bytes complete what is pending to a character. -/
def Completes (p : Pending) : Bytes → Char → Prop
  | [], _ => False
  | b :: rest, c => p.Takes b ∧
      if p.owed = 1 then rest = [] ∧ c = Char.ofNat (p.bitsWith b) else (p.next b).Completes rest c

/-- The bytes that may come next, by their numbers. -/
theorem takes_iff {p : Pending} {b : UInt8} :
    p.Takes b ↔ p.low.toNat ≤ b.toNat ∧ b.toNat ≤ p.high.toNat := by
  rw [Takes, UInt8.le_iff_toNat_le, UInt8.le_iff_toNat_le]

variable {p : Pending} {q : Bytes} {c : Char}

/-- The last byte completes a character. -/
theorem completes_last (h : p.owed = 1) :
    p.Completes q c ↔ ∃ x, q = [x] ∧ p.Takes x ∧ c = Char.ofNat (p.bitsWith x) := by
  cases q with
  | nil => simp [Completes]
  | cons b rest =>
    rw [Completes, if_pos h]
    constructor
    · rintro ⟨htakes, rfl, rfl⟩
      exact ⟨b, rfl, htakes, rfl⟩
    · rintro ⟨x, heq, htakes, rfl⟩
      obtain ⟨rfl, rfl⟩ := List.cons.inj heq
      exact ⟨htakes, rfl, rfl⟩

/-- Any other byte leaves less to complete. -/
theorem completes_more (h : p.owed ≠ 1) :
    p.Completes q c ↔ ∃ x rest, q = x :: rest ∧ p.Takes x ∧ (p.next x).Completes rest c := by
  cases q with
  | nil => simp [Completes]
  | cons b rest =>
    rw [Completes, if_neg h]
    constructor
    · rintro ⟨htakes, hrest⟩
      exact ⟨b, rest, rfl, htakes, hrest⟩
    · rintro ⟨x, r, heq, htakes, hrest⟩
      obtain ⟨rfl, rfl⟩ := List.cons.inj heq
      exact ⟨htakes, hrest⟩

/-- What is pending after the first byte of a character of more than one byte. -/
def lead (b : UInt8) : Pending :=
  let n := b.toNat
  if n < 0xE0 then ⟨1, 0x80, 0xBF, n % 32⟩
  else if n < 0xF0 then
    ⟨2, if n = 0xE0 then 0xA0 else 0x80, if n = 0xED then 0x9F else 0xBF, n % 16⟩
  else ⟨3, if n = 0xF0 then 0x90 else 0x80, if n = 0xF4 then 0x8F else 0xBF, n % 8⟩

end Pending

/-- A byte is a character, an ill-formed piece, or the first byte of a longer character. -/
theorem start_eq (b : UInt8) :
    start b = if b.toNat < 0x80 then ([some (Char.ofNat b.toNat)], none)
      else if b.toNat < 0xC2 ∨ 0xF4 < b.toNat then ([none], none)
      else ([], some (.lead b)) := by
  unfold start Pending.lead
  simp only [UInt8.lt_iff_toNat_lt, ← UInt8.toNat_inj, UInt8.reduceToNat]
  repeat' split
  all_goals first | rfl | omega

section Lead

open Pending

variable {b : UInt8} {q : Bytes} {c : Char}

/-- A byte is given by its number. -/
theorem byte_inj (x y : UInt8) (h : x.toNat = y.toNat) : x = y := UInt8.toNat_inj.1 h

/-- Every later byte is a continuation. -/
theorem takes_next {p : Pending} {x y : UInt8} :
    (p.next y).Takes x ↔ 0x80 ≤ x.toNat ∧ x.toNat ≤ 0xBF := takes_iff

/-- After the first of two bytes any continuation may come. -/
theorem lead_of_two (h : b.toNat < 0xE0) :
    (lead b).owed = 1 ∧ (lead b).bits = b.toNat % 32 ∧
      (∀ x, (lead b).Takes x ↔ 0x80 ≤ x.toNat ∧ x.toNat ≤ 0xBF) := by
  rw [show lead b = _ from if_pos h]
  exact ⟨rfl, rfl, fun _ => takes_iff⟩

/-- After the first of three bytes a continuation may come, unless two bytes would do or the
character would be a surrogate. -/
theorem lead_of_three (h : 0xE0 ≤ b.toNat) (h' : b.toNat < 0xF0) :
    (lead b).owed = 2 ∧ (lead b).bits = b.toNat % 16 ∧
      (∀ x, (lead b).Takes x ↔ 0x80 ≤ x.toNat ∧ x.toNat ≤ 0xBF ∧ (b.toNat = 0xE0 → 0xA0 ≤ x.toNat) ∧
        (b.toNat = 0xED → x.toNat ≤ 0x9F)) := by
  rw [show lead b = _ from (if_neg (Nat.not_lt.2 h)).trans (if_pos h')]
  refine ⟨rfl, rfl, fun x => ?_⟩
  simp only [takes_iff, apply_ite UInt8.toNat, UInt8.reduceToNat]
  repeat' split
  all_goals omega

/-- After the first of four bytes a continuation may come, unless three bytes would do or the
character would be too large. -/
theorem lead_of_four (h : 0xF0 ≤ b.toNat) :
    (lead b).owed = 3 ∧ (lead b).bits = b.toNat % 8 ∧
      (∀ x, (lead b).Takes x ↔ 0x80 ≤ x.toNat ∧ x.toNat ≤ 0xBF ∧ (b.toNat = 0xF0 → 0x90 ≤ x.toNat) ∧
        (b.toNat = 0xF4 → x.toNat ≤ 0x8F)) := by
  rw [show lead b = _ from (if_neg (by omega)).trans (if_neg (Nat.not_lt.2 h))]
  refine ⟨rfl, rfl, fun x => ?_⟩
  simp only [takes_iff, apply_ite UInt8.toNat, UInt8.reduceToNat]
  repeat' split
  all_goals omega

/-- The bytes that follow the first one in a character complete what is pending after it. -/
theorem completes_of_charBytes (h : charBytes c = b :: q) (hlead : 0x80 ≤ b.toNat) :
    (lead b).Completes q c := by
  have hvalid := toNat_valid c
  have hofNat : ∀ n, c.toNat = n → c = Char.ofNat n := by
    rintro _ rfl
    exact (Char.ofNat_toNat c).symm
  obtain ⟨hlt, b', heq, hb⟩ | ⟨hge, hlt, b', x, heq, hb, hx⟩ |
    ⟨hge, hlt, b', x, y, heq, hb, hx, hy⟩ | ⟨hge, b', x, y, z, heq, hb, hx, hy, hz⟩ :=
      charBytes_cases c
  all_goals obtain ⟨rfl, rfl⟩ := List.cons.inj (heq.symm.trans h)
  -- One case for each length. The least number of that length and the gap of the surrogates are
  -- what the bounds of the second byte say.
  · omega
  · obtain ⟨howed, hbits, htakes⟩ := lead_of_two (b := b') (by omega)
    refine (completes_last howed).2 ⟨x, rfl, (htakes x).2 (by omega), hofNat _ ?_⟩
    rw [bitsWith, hbits]
    omega
  · obtain ⟨howed, hbits, htakes⟩ := lead_of_three (b := b') (by omega) (by omega)
    refine (completes_more (by omega)).2 ⟨x, [y], rfl, (htakes x).2 (by omega),
      (completes_last (by rw [next, howed])).2 ⟨y, rfl, takes_next.2 (by omega), hofNat _ ?_⟩⟩
    simp only [next, bitsWith, hbits]
    omega
  · obtain ⟨howed, hbits, htakes⟩ := lead_of_four (b := b') (by omega)
    refine (completes_more (by omega)).2 ⟨x, [y, z], rfl, (htakes x).2 (by omega),
      (completes_more (by simp only [next, howed]; decide)).2 ⟨y, [z], rfl, takes_next.2 (by omega),
        (completes_last (by simp only [next, howed])).2 ⟨z, rfl, takes_next.2 (by omega), hofNat _ ?_⟩⟩⟩
    simp only [next, bitsWith, hbits]
    omega

/-- What completes the first of two bytes is the other one. -/
theorem charBytes_of_two (h : (lead b).Completes q c) (hlow : 0xC2 ≤ b.toNat)
    (htwo : b.toNat < 0xE0) : charBytes c = b :: q := by
  obtain ⟨howed, hbits, htakes⟩ := lead_of_two htwo
  obtain ⟨x, rfl, hx, hc⟩ := (completes_last howed).1 h
  have hx := (htakes x).1 hx
  have hn : c.toNat = b.toNat % 32 * 64 + x.toNat % 64 := by
    rw [hc, bitsWith, hbits]
    exact toNat_ofNat (by omega)
  obtain ⟨hlt, -⟩ | ⟨-, -, b', x', heq, hb', hx'⟩ | ⟨hge, -⟩ | ⟨hge, -⟩ := charBytes_cases c
  · omega
  · rw [heq, byte_inj b' b (by omega), byte_inj x' x (by omega)]
  · omega
  · omega

/-- What completes the first of three bytes are the other two. -/
theorem charBytes_of_three (h : (lead b).Completes q c) (hlow : 0xE0 ≤ b.toNat)
    (hthree : b.toNat < 0xF0) : charBytes c = b :: q := by
  obtain ⟨howed, hbits, htakes⟩ := lead_of_three hlow hthree
  obtain ⟨x, r, rfl, hx, hrest⟩ := (completes_more (by omega)).1 h
  obtain ⟨y, rfl, hy, hc⟩ := (completes_last (by simp only [next, howed])).1 hrest
  have hx := (htakes x).1 hx
  have hy := takes_next.1 hy
  have hn : c.toNat = (b.toNat % 16 * 64 + x.toNat % 64) * 64 + y.toNat % 64 := by
    simp only [hc, bitsWith, next, hbits]
    exact toNat_ofNat (by omega)
  obtain ⟨hlt, -⟩ | ⟨-, hlt, -⟩ | ⟨-, -, b', x', y', heq, hb', hx', hy'⟩ | ⟨hge, -⟩ :=
    charBytes_cases c
  · omega
  · omega
  · rw [heq, byte_inj b' b (by omega), byte_inj x' x (by omega), byte_inj y' y (by omega)]
  · omega

/-- What completes the first of four bytes are the other three. -/
theorem charBytes_of_four (h : (lead b).Completes q c) (hlow : 0xF0 ≤ b.toNat)
    (hfour : b.toNat ≤ 0xF4) : charBytes c = b :: q := by
  obtain ⟨howed, hbits, htakes⟩ := lead_of_four hlow
  obtain ⟨x, r, rfl, hx, hrest⟩ := (completes_more (by omega)).1 h
  obtain ⟨y, s, rfl, hy, hrest⟩ := (completes_more (by simp only [next, howed]; decide)).1 hrest
  obtain ⟨z, rfl, hz, hc⟩ := (completes_last (by simp only [next, howed])).1 hrest
  have hx := (htakes x).1 hx
  have hy := takes_next.1 hy
  have hz := takes_next.1 hz
  have hn : c.toNat
      = ((b.toNat % 8 * 64 + x.toNat % 64) * 64 + y.toNat % 64) * 64 + z.toNat % 64 := by
    simp only [hc, bitsWith, next, hbits]
    exact toNat_ofNat (by omega)
  obtain ⟨hlt, -⟩ | ⟨-, hlt, -⟩ | ⟨-, hlt, -⟩ | ⟨-, b', x', y', z', heq, hb', hx', hy', hz'⟩ :=
    charBytes_cases c
  · omega
  · omega
  · omega
  · rw [heq, byte_inj b' b (by omega), byte_inj x' x (by omega), byte_inj y' y (by omega),
      byte_inj z' z (by omega)]

/-- What completes what is pending after the first byte are the bytes that follow it in a character.
-/
theorem charBytes_eq_cons_iff (hlow : 0xC2 ≤ b.toNat) (hhigh : b.toNat ≤ 0xF4) :
    charBytes c = b :: q ↔ (lead b).Completes q c := by
  refine ⟨fun h => completes_of_charBytes h (by omega), fun h => ?_⟩
  by_cases htwo : b.toNat < 0xE0
  · exact charBytes_of_two h hlow htwo
  · by_cases hthree : b.toNat < 0xF0
    · exact charBytes_of_three h (Nat.not_lt.1 htwo) hthree
    · exact charBytes_of_four h (Nat.not_lt.1 hthree) hhigh

/-- A byte below 0x80 is a character of its own. -/
theorem charBytes_eq_singleton (h : b.toNat < 0x80) : charBytes (Char.ofNat b.toNat) = [b] := by
  have hn : (Char.ofNat b.toNat).toNat = b.toNat := toNat_ofNat (by omega)
  obtain ⟨-, b', heq, hb'⟩ | ⟨hge, -⟩ | ⟨hge, -⟩ | ⟨hge, -⟩ := charBytes_cases (Char.ofNat b.toNat)
  · rw [heq, byte_inj b' b (by omega)]
  · omega
  · omega
  · omega

/-- The bytes that characters begin with. -/
theorem first_byte (h : charBytes c = b :: q) :
    b.toNat < 0x80 ∧ q = [] ∧ c = Char.ofNat b.toNat ∨ 0xC2 ≤ b.toNat ∧ b.toNat ≤ 0xF4 := by
  have hvalid := toNat_valid c
  obtain ⟨hlt, b', heq, hb⟩ | ⟨hge, hlt, b', x, heq, hb, -⟩ | ⟨hge, hlt, b', x, y, heq, hb, -⟩ |
    ⟨hge, b', x, y, z, heq, hb, -⟩ := charBytes_cases c
  all_goals obtain ⟨rfl, rfl⟩ := List.cons.inj (heq.symm.trans h)
  · exact .inl ⟨by omega, rfl, by rw [hb, Char.ofNat_toNat]⟩
  · exact .inr ⟨by omega, by omega⟩
  · exact .inr ⟨by omega, by omega⟩
  · exact .inr ⟨by omega, by omega⟩

end Lead

/-! ## Characters that begin others -/

/-- Every character has a byte. -/
theorem charBytes_ne_nil (c : Char) : charBytes c ≠ [] := by
  obtain ⟨-, b, heq, -⟩ | ⟨-, -, b, x, heq, -⟩ | ⟨-, -, b, x, y, heq, -⟩ | ⟨-, b, x, y, z, heq, -⟩ :=
    charBytes_cases c
  all_goals rw [heq]
  all_goals exact List.cons_ne_nil _ _

namespace Pending

variable {p : Pending} {q r : Bytes} {c d : Char}

/-- What completes a character is not the beginning of what completes another one. -/
theorem Completes.unique (h : p.Completes q c) (h' : p.Completes (q ++ r) d) : r = [] ∧ c = d := by
  induction q generalizing p with
  | nil => exact h.elim
  | cons b rest ih =>
    obtain ⟨-, hrest⟩ := h
    obtain ⟨-, hrest'⟩ := h'
    by_cases hlast : p.owed = 1
    · rw [if_pos hlast] at hrest hrest'
      obtain ⟨rfl, rfl⟩ := hrest
      exact ⟨hrest'.1, hrest'.2.symm⟩
    · rw [if_neg hlast] at hrest hrest'
      exact ih hrest hrest'

/-- Something can be completed: a byte is owed, and there is one that may come. -/
structure Live (p : Pending) : Prop where
  owed_pos : 0 < p.owed
  takes : ∃ b, p.Takes b

/-- It stays so with every byte that is not the last. -/
theorem Live.next (h : p.Live) (hmore : p.owed ≠ 1) (b : UInt8) : (p.next b).Live :=
  ⟨Nat.sub_pos_of_lt (Nat.lt_of_le_of_ne h.owed_pos hmore.symm), 0x80, takes_next.2 (by decide)⟩

/-- Some bytes complete what is live. -/
theorem Live.exists_completes (h : p.Live) : ∃ q c, p.Completes q c := by
  obtain ⟨n, hn⟩ : ∃ n, p.owed = n + 1 := Nat.exists_eq_add_one.2 h.owed_pos
  induction n generalizing p with
  | zero =>
    obtain ⟨x, hx⟩ := h.takes
    exact ⟨[x], _, (completes_last hn).2 ⟨x, rfl, hx, rfl⟩⟩
  | succ n ih =>
    have hmore : p.owed ≠ 1 := by omega
    obtain ⟨x, hx⟩ := h.takes
    obtain ⟨q, c, hrest⟩ :=
      ih (h.next hmore x) (by simp only [Pending.next, hn, Nat.add_sub_cancel])
    exact ⟨x :: q, c, (completes_more hmore).2 ⟨x, q, rfl, hx, hrest⟩⟩

/-- What is pending after a first byte is live. -/
theorem lead_live (b : UInt8) : (lead b).Live := by
  by_cases htwo : b.toNat < 0xE0
  · obtain ⟨howed, -, htakes⟩ := lead_of_two htwo
    exact ⟨by omega, 0x80, (htakes _).2 (by decide)⟩
  · by_cases hthree : b.toNat < 0xF0
    · obtain ⟨howed, -, htakes⟩ := lead_of_three (Nat.not_lt.1 htwo) hthree
      refine ⟨by omega, if b.toNat = 0xE0 then 0xA0 else 0x80, (htakes _).2 ?_⟩
      split
      all_goals simp only [UInt8.reduceToNat]
      all_goals omega
    · obtain ⟨howed, -, htakes⟩ := lead_of_four (Nat.not_lt.1 hthree)
      refine ⟨by omega, if b.toNat = 0xF0 then 0x90 else 0x80, (htakes _).2 ?_⟩
      split
      all_goals simp only [UInt8.reduceToNat]
      all_goals omega

end Pending

/-- No character begins with all bytes of another one. -/
theorem eq_of_charBytes_append {c d : Char} {r : Bytes} (h : charBytes d = charBytes c ++ r) :
    r = [] ∧ c = d := by
  obtain ⟨b, q, hq⟩ := List.exists_cons_of_ne_nil (charBytes_ne_nil c)
  rw [hq, List.cons_append] at h
  obtain ⟨hlow, rfl, rfl⟩ | ⟨hlow, hhigh⟩ := first_byte hq
  · obtain ⟨-, hr, rfl⟩ | ⟨hge, -⟩ := first_byte h
    · exact ⟨hr, rfl⟩
    · omega
  · exact ((charBytes_eq_cons_iff hlow hhigh).1 hq).unique ((charBytes_eq_cons_iff hlow hhigh).1 h)

end HashLoader.Utf8
