import HashLoader.Wasm.Binary

/-!
# The frame of a binary

The format says how numbers and sections are spelled, and says nothing of how they are read. `Leb`
and `Section.Framed` are these two grammars. The readers take from the front of their input just
what the grammars allow and leave the rest (`unsigned_eq_some_iff`, `blob_eq_some_iff`), so a binary
is cut into sections exactly if it is framed by them (`ofBinary?_eq_some_iff`).

Frames can be joined (`Framed.append`), which says what happens to a binary at whose end sections
are added. A custom section that is added with a name changes nothing of the module
(`Module.ofBinary?_append_custom`).
-/

namespace HashLoader.Wasm

/-! ## Numbers -/

/-- Bytes spell a number of at most `width` bits: seven bits to a byte, lowest first, and a high bit
on every byte but the last. -/
inductive Leb : (width n : Nat) → Bytes → Prop
  | last {width : Nat} {b : UInt8} : b.toNat < 128 → b.toNat < 1 <<< width → Leb width b.toNat [b]
  | more {width n : Nat} {b : UInt8} {rest : Bytes} : 128 ≤ b.toNat → 7 < width →
      Leb (width - 7) n rest → Leb width (b.toNat - 128 + 128 * n) (b :: rest)

/-- The lowest seven bits of a number, with a high bit, come before what spells all others. -/
theorem Leb.cons_mod {width n : Nat} {rest : Bytes} (hwidth : 7 < width)
    (hrest : Leb (width - 7) (n / 128) rest) : Leb width n ((n % 128 + 128).toUInt8 :: rest) := by
  have hbyte : (n % 128 + 128).toUInt8.toNat = n % 128 + 128 := by
    rw [UInt8.toNat_ofNat']
    omega
  have hsplit : (n % 128 + 128).toUInt8.toNat - 128 + 128 * (n / 128) = n := by
    rw [hbyte]
    omega
  have hleb := Leb.more (b := (n % 128 + 128).toUInt8) (by rw [hbyte]; omega) hwidth hrest
  rwa [hsplit] at hleb

namespace Reader

variable {α β : Type} {s r : Bytes} {hr : r.length ≤ s.length}

/-- Of two readers the second takes from what the first leaves. -/
theorem bind_eq_some_iff {x : Reader α} {f : α → Reader β} {b : β} :
    (x >>= f) s = some (b, ⟨r, hr⟩) ↔ ∃ a t ht, x s = some (a, ⟨t, ht⟩) ∧
      ∃ hrt, f a t = some (b, ⟨r, hrt⟩) := by
  constructor
  · intro h
    simp only [Bind.bind] at h
    split at h
    · cases h
    · next a t ht hx =>
      split at h
      · cases h
      · next hrt hf =>
        cases h
        exact ⟨a, t, ht, hx, hrt, hf⟩
  · rintro ⟨a, t, ht, hx, hrt, hf⟩
    simp only [Bind.bind, hx, hf]

/-- A reader of numbers takes what spells one. -/
theorem unsigned_eq_some_iff {width n : Nat} :
    unsigned width s = some (n, ⟨r, hr⟩) ↔ ∃ b, s = b ++ r ∧ Leb width n b := by
  constructor
  · intro h
    -- On the bytes: the reader takes one at a time and stops at the first below 128.
    induction s generalizing width n with
    | nil => cases h
    | cons x rest ih =>
      rw [unsigned] at h
      split at h
      · next hlast =>
        split at h
        · next hwidth =>
          cases h
          exact ⟨[x], rfl, .last hlast hwidth⟩
        · cases h
      · next hmore =>
        split at h
        · next hwidth =>
          split at h
          · next n' r' hr' hrest =>
            cases h
            obtain ⟨b, hb, hleb⟩ := ih hrest
            exact ⟨x :: b, congrArg (x :: ·) hb, .more (Nat.le_of_not_lt hmore) hwidth hleb⟩
          · cases h
        · cases h
  · rintro ⟨b, rfl, hleb⟩
    -- On what is spelled.
    induction hleb with
    | @last width x hlast hwidth =>
      show unsigned width (x :: r) = _
      rw [unsigned, if_pos hlast, if_pos hwidth]
      rfl
    | @more width n x rest hmore hwidth _ ih =>
      have hfits : r.length ≤ (rest ++ r).length := by
        rw [List.length_append]
        exact Nat.le_add_left _ _
      have hrest : unsigned (width - 7) (rest ++ r) = some (n, ⟨r, hfits⟩) := ih
      show unsigned width (x :: (rest ++ r)) = _
      rw [unsigned, if_neg (Nat.not_lt.2 hmore), if_pos hwidth, hrest]

/-- A reader of bytes takes that many. -/
theorem bytes_eq_some_iff {n : Nat} {b : Bytes} :
    bytes n s = some (b, ⟨r, hr⟩) ↔ s = b ++ r ∧ b.length = n := by
  unfold bytes
  dsimp only
  constructor
  · intro h
    split at h
    · next hlen =>
      cases h
      exact ⟨(List.take_append_drop n s).symm, hlen⟩
    · cases h
  · rintro ⟨rfl, rfl⟩
    simp

/-- A reader of counted bytes takes their number and the bytes. -/
theorem blob_eq_some_iff {b : Bytes} :
    blob s = some (b, ⟨r, hr⟩) ↔ ∃ size, s = size ++ (b ++ r) ∧ Leb 32 b.length size := by
  rw [blob, u32, bind_eq_some_iff]
  constructor
  · rintro ⟨n, t, ht, hn, hrt, hb⟩
    obtain ⟨size, rfl, hleb⟩ := unsigned_eq_some_iff.1 hn
    obtain ⟨rfl, rfl⟩ := bytes_eq_some_iff.1 hb
    exact ⟨size, rfl, hleb⟩
  · rintro ⟨size, rfl, hleb⟩
    have hlen : (b ++ r).length ≤ (size ++ (b ++ r)).length := by simp
    have hrest : r.length ≤ (b ++ r).length := by simp
    exact ⟨b.length, b ++ r, hlen, unsigned_eq_some_iff.2 ⟨size, rfl, hleb⟩, hrest,
      bytes_eq_some_iff.2 ⟨rfl, rfl⟩⟩

theorem require_eq_some_iff {condition : Bool} {u : Unit} :
    require condition s = some (u, ⟨r, hr⟩) ↔ condition = true ∧ s = r := by
  cases condition with
  | false => exact ⟨nofun, nofun⟩
  | true =>
    refine ⟨fun h => ?_, ?_⟩
    · cases h
      exact ⟨rfl, rfl⟩
    · rintro ⟨-, rfl⟩
      rfl

theorem ofOption_eq_some_iff {x : Option α} {a : α} :
    ofOption x s = some (a, ⟨r, hr⟩) ↔ x = some a ∧ s = r := by
  cases x with
  | none => exact ⟨nofun, nofun⟩
  | some b =>
    refine ⟨fun h => ?_, ?_⟩
    · cases h
      exact ⟨rfl, rfl⟩
    · rintro ⟨hb, rfl⟩
      cases hb
      rfl

/-- A name is counted bytes that are well-formed text. -/
theorem name_eq_some_iff {text : String} :
    name s = some (text, ⟨r, hr⟩) ↔ ∃ size b, s = size ++ (b ++ r) ∧ Leb 32 b.length size ∧
      b.length ≤ maxName ∧ Utf8.decode? b = some text := by
  rw [name, bind_eq_some_iff]
  constructor
  · rintro ⟨b, t, ht, hb, hrt, h⟩
    obtain ⟨_, t', ht', hrequire, hrt', hdecode⟩ := bind_eq_some_iff.1 h
    obtain ⟨hlen, rfl⟩ := require_eq_some_iff.1 hrequire
    obtain ⟨htext, rfl⟩ := ofOption_eq_some_iff.1 hdecode
    obtain ⟨size, hs, hsize⟩ := blob_eq_some_iff.1 hb
    exact ⟨size, b, hs, hsize, of_decide_eq_true hlen, htext⟩
  · rintro ⟨size, b, hs, hsize, hlen, htext⟩
    exact ⟨b, r, hr, blob_eq_some_iff.2 ⟨size, hs, hsize⟩, Nat.le_refl _, bind_eq_some_iff.2
      ⟨(), r, Nat.le_refl _, require_eq_some_iff.2 ⟨decide_eq_true hlen, rfl⟩, Nat.le_refl _,
        ofOption_eq_some_iff.2 ⟨htext, rfl⟩⟩⟩

/-- A number is read from what spells it and nothing else. -/
theorem run?_u32_eq_some_iff {n : Nat} : u32.run? s = some n ↔ Leb 32 n s := by
  have hnil : ([] : Bytes).length ≤ s.length := Nat.zero_le _
  have hread : u32 s = some (n, ⟨[], hnil⟩) ↔ Leb 32 n s := by
    rw [u32, unsigned_eq_some_iff]
    simp
  rw [← hread]
  unfold run?
  constructor
  · intro h
    split at h
    · next hs =>
      cases h
      exact hs
    · cases h
  · intro h
    rw [h]

end Reader

/-! ## Sections -/

namespace Section

/-- Bytes are sections one after the other, each with its number, the size of its body, and its
body. -/
inductive Framed : List Section → Bytes → Prop
  | nil : Framed [] []
  | cons {id : UInt8} {size body rest : Bytes} {later : List Section} :
      Leb 32 body.length size → Framed later rest →
      Framed (⟨id, body⟩ :: later) (id :: (size ++ (body ++ rest)))

/-- Frames can be joined. -/
theorem Framed.append {front later : List Section} {b c : Bytes} (hfront : Framed front b)
    (hlater : Framed later c) : Framed (front ++ later) (b ++ c) := by
  induction hfront with
  | nil => exact hlater
  | cons hsize _ ih =>
    simp only [List.cons_append, List.append_assoc]
    exact .cons hsize ih

/-- Bytes are cut into the sections that they are. -/
theorem split?_eq_some_iff {b : Bytes} {sections : List Section} :
    split? b = some sections ↔ Framed sections b := by
  constructor
  · intro h
    -- On the recursion of the reader, which goes on behind the section that it took.
    induction b using split?.induct generalizing sections with
    | case1 =>
      rw [split?] at h
      cases h
      exact .nil
    | case2 id rest hblob =>
      rw [split?, hblob] at h
      cases h
    | case3 id rest body r hr hblob ih =>
      rw [split?, hblob] at h
      obtain ⟨later, hlater, rfl⟩ := Option.map_eq_some_iff.1 h
      obtain ⟨size, hrest, hsize⟩ := Reader.blob_eq_some_iff.1 hblob
      rw [hrest]
      exact .cons hsize (ih hlater)
  · intro h
    induction h with
    | nil => rw [split?]
    | @cons id size body rest later hsize _ ih =>
      have hrest : rest.length ≤ (size ++ (body ++ rest)).length := by
        simp only [List.length_append]
        omega
      have hblob : Reader.blob (size ++ (body ++ rest)) = some (body, ⟨rest, hrest⟩) :=
        Reader.blob_eq_some_iff.2 ⟨size, rfl, hsize⟩
      rw [split?, hblob]
      exact Option.map_eq_some_iff.2 ⟨later, ih, rfl⟩

/-- A binary is cut into the sections that follow its preamble. -/
theorem ofBinary?_eq_some_iff {b : Bytes} {sections : List Section} :
    ofBinary? b = some sections ↔ ∃ rest, b = preamble ++ rest ∧ Framed sections rest := by
  rw [ofBinary?, Option.ite_none_right_eq_some, split?_eq_some_iff]
  constructor
  · rintro ⟨hpreamble, hframed⟩
    have hsplit := List.take_append_drop preamble.length b
    rw [hpreamble] at hsplit
    exact ⟨_, hsplit.symm, hframed⟩
  · rintro ⟨rest, rfl, hframed⟩
    exact ⟨List.take_left, by rwa [List.drop_left]⟩

/-- A binary at whose end sections are added is cut into its own sections and those. -/
theorem ofBinary?_append {b c : Bytes} {front later : List Section}
    (hfront : ofBinary? b = some front) (hlater : Framed later c) :
    ofBinary? (b ++ c) = some (front ++ later) := by
  obtain ⟨rest, rfl, hframed⟩ := ofBinary?_eq_some_iff.1 hfront
  exact ofBinary?_eq_some_iff.2 ⟨rest ++ c, List.append_assoc _ _ _, hframed.append hlater⟩

end Section

/-- A custom section that is added with a name is skipped. -/
theorem Module.ofBinary?_append_custom {b c : Bytes} {sections : List Section} {custom : Section}
    (hsections : Section.ofBinary? b = some sections) (hframed : Section.Framed [custom] c)
    (hcustom : custom.isCustom = true) (hname : custom.hasName = true) :
    Module.ofBinary? (b ++ c) = Module.ofBinary? b := by
  have hadded := Section.ofBinary?_append hsections hframed
  -- The added section is the last custom one, and the others are as they were.
  have hcustoms : (sections ++ [custom]).filter Section.isCustom
      = sections.filter Section.isCustom ++ [custom] := by simp [hcustom]
  have hothers : (sections ++ [custom]).filter (not ∘ Section.isCustom)
      = sections.filter (not ∘ Section.isCustom) := by simp [hcustom]
  have hnamed : (sections.filter Section.isCustom ++ [custom]).all Section.hasName
      = (sections.filter Section.isCustom).all Section.hasName := by simp [hname]
  simp only [Module.ofBinary?, hsections, hadded, Option.bind_eq_bind, Option.bind_some,
    List.partition_eq_filter_filter, hcustoms, hothers, hnamed]

end HashLoader.Wasm
