import HashLoader.Proofs.Text.Utf8

/-!
# Ill-formed text

Which characters and ill-formed pieces bytes consist of is said without a reader: a piece is
ill-formed if no character is at the front of it and what follows it, and it is as long as the
beginning of a character can be there, or one byte (`Piece`). Bytes split into characters and such
pieces in exactly one way (`Splits.unique`), and the reader finds it (`splits_iff`).

From this follows what a reader makes of text that is well-formed (`lossy_encode`) or was cut
(`lossy_take_encode`), and how much longer text becomes by the replacement of pieces
(`length_encode_lossy_le`).
-/

namespace HashLoader.Utf8

/-! ## Pieces -/

/-- An ill-formed piece, and what follows it. -/
structure Piece (piece rest : Bytes) : Prop where
  ne_nil : piece ≠ []
  /-- No character is here. -/
  ill_formed : ∀ c, ¬ charBytes c <+: piece ++ rest
  /-- The piece begins a character, unless it is one byte. -/
  begins : piece.length = 1 ∨ ∃ c, piece <+: charBytes c
  /-- Nothing longer does. -/
  longest : ∀ front c, front <+: piece ++ rest → front <+: charBytes c → front.length ≤ piece.length

/-- Bytes split into characters and ill-formed pieces, in order. -/
inductive Splits : Bytes → List (Option Char) → Prop
  | nil : Splits [] []
  | char (c : Char) {rest : Bytes} {out : List (Option Char)} :
    Splits rest out → Splits (charBytes c ++ rest) (some c :: out)
  | piece {piece rest : Bytes} {out : List (Option Char)} :
    Piece piece rest → Splits rest out → Splits (piece ++ rest) (none :: out)

variable {b front rest : Bytes} {out : List (Option Char)}

/-- Two characters at the front of the same bytes are one. -/
theorem charBytes_inj {c d : Char} (hc : charBytes c <+: b) (hd : charBytes d <+: b) : c = d := by
  obtain ⟨r, hr⟩ | ⟨r, hr⟩ := List.prefix_or_prefix_of_prefix hc hd
  · exact (eq_of_charBytes_append hr.symm).2
  · exact (eq_of_charBytes_append hr.symm).2.symm

/-- Two pieces at the front of the same bytes are one. -/
theorem Piece.unique {p q r s : Bytes} (hp : Piece p r) (hq : Piece q s) (h : p ++ r = q ++ s) :
    p = q ∧ r = s := by
  have hle : ∀ {p q r s : Bytes}, Piece p r → Piece q s → p ++ r = q ++ s → p.length ≤ q.length := by
    intro p q r s hp hq h
    rcases hp.begins with hone | ⟨c, hc⟩
    · rw [hone]
      exact List.length_pos_iff.2 hq.ne_nil
    · exact hq.longest p c (h ▸ List.prefix_append p r) hc
  exact List.append_inj h (Nat.le_antisymm (hle hp hq h) (hle hq hp h.symm))

/-- Bytes split in no more than one way. -/
theorem Splits.unique {out' : List (Option Char)} (h : Splits b out) (h' : Splits b out') :
    out = out' := by
  induction h generalizing out' with
  | nil =>
    generalize hb : ([] : Bytes) = b at h'
    cases h' with
    | nil => rfl
    | char c _ => exact absurd (List.append_eq_nil_iff.1 hb.symm).1 (charBytes_ne_nil c)
    | piece hpiece _ => exact absurd (List.append_eq_nil_iff.1 hb.symm).1 hpiece.ne_nil
  | @char c rest out _ ih =>
    -- A split begins with a character or with an ill-formed piece, never both.
    generalize hb : charBytes c ++ rest = b at h'
    cases h' with
    | nil => exact absurd (List.append_eq_nil_iff.1 hb).1 (charBytes_ne_nil c)
    | @char d rest' out' hrest =>
      obtain rfl : c = d := charBytes_inj (List.prefix_append _ rest) (hb ▸ List.prefix_append _ rest')
      rw [ih (List.append_cancel_left hb ▸ hrest)]
    | piece hpiece _ => exact absurd (hb ▸ List.prefix_append _ _) (hpiece.ill_formed c)
  | @piece front rest out hpiece _ ih =>
    generalize hb : front ++ rest = b at h'
    cases h' with
    | nil => exact absurd (List.append_eq_nil_iff.1 hb).1 hpiece.ne_nil
    | char d _ => exact absurd (hb ▸ List.prefix_append _ _) (hpiece.ill_formed d)
    | piece hpiece' hrest =>
      obtain ⟨-, rfl⟩ := hpiece.unique hpiece' hb
      rw [ih hrest]

/-! ## The reader -/

/-- After these bytes of a character this much is pending. -/
structure Begun (front : Bytes) (p : Pending) : Prop where
  ne_nil : front ≠ []
  live : p.Live
  /-- What completes what is pending are the bytes that follow these in a character. -/
  completes_iff : ∀ q c, charBytes c = front ++ q ↔ p.Completes q c

/-- One more byte of a character that is not its last. -/
theorem Begun.next {p : Pending} (h : Begun front p) {x : UInt8} (htakes : p.Takes x)
    (hmore : p.owed ≠ 1) : Begun (front ++ [x]) (p.next x) where
  ne_nil := List.append_ne_nil_of_right_ne_nil _ (List.cons_ne_nil _ _)
  live := h.live.next hmore x
  completes_iff q c := by
    rw [List.append_assoc, List.singleton_append, h.completes_iff, Pending.completes_more hmore]
    constructor
    · rintro ⟨y, rest, heq, -, hrest⟩
      obtain ⟨rfl, rfl⟩ := List.cons.inj heq
      exact hrest
    · intro hrest
      exact ⟨x, q, rfl, htakes, hrest⟩

/-- A byte that goes on in a character may come next. -/
theorem Begun.takes {p : Pending} (h : Begun front p) {x : UInt8} {tail : Bytes} {c : Char}
    (hc : front ++ x :: tail <+: charBytes c) : p.Takes x := by
  obtain ⟨r, hr⟩ := hc
  rw [List.append_assoc, List.cons_append] at hr
  exact ((h.completes_iff _ c).1 hr.symm).1

/-- Bytes of a character that do not go on are an ill-formed piece. -/
theorem Begun.piece {p : Pending} (h : Begun front p)
    (hstops : ∀ x tail, rest = x :: tail → ¬ p.Takes x) : Piece front rest := by
  obtain ⟨q, d, hd⟩ := h.live.exists_completes
  have hbytes : charBytes d = front ++ q := (h.completes_iff q d).2 hd
  have hstop : ∀ {x tail}, x :: tail <+: rest → ¬ p.Takes x := by
    rintro x tail ⟨r, hr⟩
    exact hstops x (tail ++ r) hr.symm
  refine ⟨h.ne_nil, fun c hc => ?_, .inr ⟨d, q, hbytes.symm⟩, fun f c hf hc => ?_⟩
  · obtain ⟨r, hr⟩ | ⟨r, hr⟩ := List.prefix_or_prefix_of_prefix hc (List.prefix_append front rest)
    -- The character would end before the bytes do, which begin another one.
    · rw [← hr, List.append_assoc] at hbytes
      obtain ⟨hnil, -⟩ := eq_of_charBytes_append hbytes
      rw [(List.append_eq_nil_iff.1 hnil).2] at hd
      exact hd
    · have hcompletes := (h.completes_iff r c).1 hr.symm
      rw [← hr] at hc
      cases r with
      | nil => exact hcompletes
      | cons x tail => exact hstop ((List.prefix_append_right_inj front).1 hc) hcompletes.1
  · refine Nat.le_of_not_lt fun hlonger => ?_
    obtain ⟨r, rfl⟩ :=
      List.prefix_of_prefix_length_le (List.prefix_append front rest) hf (Nat.le_of_lt hlonger)
    cases r with
    | nil => rw [List.append_nil] at hlonger; exact Nat.lt_irrefl _ hlonger
    | cons x tail => exact hstop ((List.prefix_append_right_inj front).1 hf) (h.takes hc)

/-- After its first byte a character is begun. -/
theorem begun_lead {x : UInt8} (hlow : 0xC2 ≤ x.toNat) (hhigh : x.toNat ≤ 0xF4) :
    Begun [x] (.lead x) :=
  ⟨List.cons_ne_nil _ _, Pending.lead_live x, fun _ _ => charBytes_eq_cons_iff hlow hhigh⟩

/-- A byte that no character begins with is an ill-formed piece. -/
theorem piece_singleton {x : UInt8} (h : ∀ c q, charBytes c ≠ x :: q) (rest : Bytes) :
    Piece [x] rest where
  ne_nil := List.cons_ne_nil _ _
  ill_formed c hc := by
    obtain ⟨y, q, hq⟩ := List.exists_cons_of_ne_nil (charBytes_ne_nil c)
    rw [hq, List.singleton_append] at hc
    obtain ⟨rfl, -⟩ := List.cons_prefix_cons.1 hc
    exact h c q hq
  begins := .inl rfl
  longest f c hf hc := by
    cases f with
    | nil => exact Nat.zero_le _
    | cons y f =>
      obtain ⟨rfl, -⟩ := List.cons_prefix_cons.1 hf
      obtain ⟨r, hr⟩ := hc
      exact absurd hr.symm (h c _)

/-- What is read goes before what is read later. -/
theorem scan_cons (pending : Option Pending) (x : UInt8) (rest : Bytes) :
    scan pending (x :: rest) = (step pending x).1 ++ scan (step pending x).2 rest := by
  cases pending <;> rfl

/-- A byte goes on with a character, or something new is begun. -/
theorem step_some (p : Pending) (x : UInt8) :
    step (some p) x = if p.Takes x then
        if p.owed = 1 then ([some (Char.ofNat (p.bitsWith x))], none) else ([], some (p.next x))
      else (none :: (start x).1, (start x).2) := rfl

/-- The reader splits bytes, and those of a character that was begun with those that follow. -/
theorem splits_scan (b : Bytes) :
    Splits b (scan none b) ∧ ∀ front p, Begun front p → Splits (front ++ b) (scan (some p) b) := by
  -- What was begun is given up where it cannot go on, and the byte there starts something new: both
  -- parts need both parts for the rest.
  induction b with
  | nil => exact ⟨.nil, fun front p h => .piece (h.piece nofun) .nil⟩
  | cons x rest ih =>
    obtain ⟨hrest, hbegun⟩ := ih
    have hstart : Splits (x :: rest) ((start x).1 ++ scan (start x).2 rest) := by
      rw [start_eq]
      split
      · next hascii =>
        have hchar := Splits.char (Char.ofNat x.toNat) hrest
        rwa [charBytes_eq_singleton hascii] at hchar
      · next hlow =>
        split
        · next hbad =>
          refine .piece (piece_singleton (fun c q hc => ?_) rest) hrest
          obtain ⟨hascii, -⟩ | ⟨hge, hle⟩ := first_byte hc
          · exact hlow hascii
          · omega
        · next hlead => exact hbegun [x] _ (begun_lead (by omega) (by omega))
    refine ⟨hstart, fun front p h => ?_⟩
    rw [scan_cons, step_some]
    by_cases htakes : p.Takes x
    · rw [if_pos htakes]
      by_cases hlast : p.owed = 1
      · rw [if_pos hlast]
        have hbytes : charBytes (Char.ofNat (p.bitsWith x)) = front ++ [x] :=
          (h.completes_iff [x] _).2 ((Pending.completes_last hlast).2 ⟨x, rfl, htakes, rfl⟩)
        have hchar := Splits.char (Char.ofNat (p.bitsWith x)) hrest
        rwa [hbytes, List.append_assoc, List.singleton_append] at hchar
      · rw [if_neg hlast]
        have hmore := hbegun (front ++ [x]) _ (h.next htakes hlast)
        rwa [List.append_assoc, List.singleton_append] at hmore
    · rw [if_neg htakes]
      refine .piece (h.piece ?_) hstart
      rintro y tail heq
      obtain ⟨rfl, -⟩ := List.cons.inj heq
      exact htakes

/-- The reader finds the one way in which bytes split. -/
theorem splits_iff : Splits b out ↔ out = scan none b := by
  constructor
  · intro h
    exact h.unique (splits_scan b).1
  · rintro rfl
    exact (splits_scan b).1

/-! ## Well-formed and cut text -/

/-- The characters of a text that fit into so many bytes, up to the first one that does not. -/
def fitting : List Char → Nat → List Char
  | [], _ => []
  | c :: rest, n =>
    if (charBytes c).length ≤ n then c :: fitting rest (n - (charBytes c).length) else []

/-- The front of a text, in whole characters, that fits into so many bytes. -/
def cut (s : String) (n : Nat) : String := String.ofList (fitting s.toList n)

/-- What fits is a front of the characters, and the next one does not fit any more. -/
theorem fitting_spec (l : List Char) (n : Nat) :
    ∃ rest, l = fitting l n ++ rest ∧ ((fitting l n).flatMap charBytes).length ≤ n ∧
      ∀ c tail, rest = c :: tail →
        n < ((fitting l n).flatMap charBytes).length + (charBytes c).length := by
  induction l generalizing n with
  | nil => exact ⟨[], rfl, Nat.zero_le _, nofun⟩
  | cons c l ih =>
    rw [fitting]
    by_cases hfits : (charBytes c).length ≤ n
    · obtain ⟨rest, hl, hle, hnext⟩ := ih (n - (charBytes c).length)
      rw [if_pos hfits, List.flatMap_cons, List.length_append]
      refine ⟨rest, by rw [List.cons_append, ← hl], by omega, fun d tail heq => ?_⟩
      have hd := hnext d tail heq
      omega
    · rw [if_neg hfits]
      refine ⟨c :: l, rfl, Nat.zero_le _, fun d tail heq => ?_⟩
      obtain ⟨rfl, -⟩ := List.cons.inj heq
      simpa using hfits

/-- The cut of a text is a front of it that fits, and with one more character it would not. -/
theorem cut_spec (s : String) (n : Nat) :
    ∃ rest : String, s = cut s n ++ rest ∧ (encode (cut s n)).length ≤ n ∧
      ∀ c tail, rest.toList = c :: tail → n < (encode (cut s n)).length + (charBytes c).length := by
  obtain ⟨rest, hl, hle, hnext⟩ := fitting_spec s.toList n
  have hcut : encode (cut s n) = (fitting s.toList n).flatMap charBytes := by
    rw [encode_eq_flatMap, cut, String.toList_ofList]
  rw [← hcut] at hle hnext
  refine ⟨String.ofList rest, ?_, hle, fun c tail heq => hnext c tail ?_⟩
  · rw [cut, ← String.ofList_append, ← hl, String.ofList_toList]
  · rwa [String.toList_ofList] at heq

/-- Characters that all fit leave less room for those that follow. -/
theorem fitting_append {l : List Char} {n : Nat} (h : (l.flatMap charBytes).length ≤ n)
    (r : List Char) : fitting (l ++ r) n = l ++ fitting r (n - (l.flatMap charBytes).length) := by
  induction l generalizing n with
  | nil => rfl
  | cons c l ih =>
    rw [List.flatMap_cons, List.length_append] at h
    rw [List.cons_append, fitting, if_pos (by omega), ih (by omega), List.flatMap_cons,
      List.length_append, Nat.sub_add_eq, List.cons_append]

/-- The front of a character is an ill-formed piece where nothing follows. -/
theorem piece_of_charBytes {q : Bytes} {c : Char} (h : charBytes c = front ++ q) (hfront : front ≠ [])
    (hq : q ≠ []) : Piece front [] where
  ne_nil := hfront
  ill_formed d hd := by
    obtain ⟨r, hr⟩ := hd
    rw [List.append_nil] at hr
    rw [← hr, List.append_assoc] at h
    exact hq (List.append_eq_nil_iff.1 (eq_of_charBytes_append h).1).2
  begins := .inr ⟨c, q, h.symm⟩
  longest f d hf _ := by
    rw [List.append_nil] at hf
    exact hf.length_le

/-- The bytes of a text that was cut split into the characters that fit, and one ill-formed piece if
the cut is inside a character. -/
theorem splits_take (l : List Char) (n : Nat) :
    Splits ((l.flatMap charBytes).take n) ((fitting l n).map some
      ++ if (fitting l n).flatMap charBytes = (l.flatMap charBytes).take n then [] else [none]) := by
  -- On the characters: the cut is behind the first one, or before or inside it.
  induction l generalizing n with
  | nil =>
    rw [List.flatMap_nil, List.take_nil, fitting, List.flatMap_nil, if_pos rfl]
    exact .nil
  | cons c l ih =>
    rw [fitting, List.flatMap_cons, List.take_append]
    by_cases hfits : (charBytes c).length ≤ n
    · rw [if_pos hfits, List.take_of_length_le hfits, List.flatMap_cons, List.map_cons]
      simp only [List.append_cancel_left_eq]
      exact .char c (ih _)
    · have hover : n - (charBytes c).length = 0 := by omega
      rw [if_neg hfits, hover, List.take_zero, List.append_nil]
      by_cases hn : n = 0
      · rw [hn, List.take_zero, List.flatMap_nil, if_pos rfl]
        exact .nil
      -- The cut is inside the character, so a part of it is left on each side.
      · have hne : (charBytes c).take n ≠ [] := by
          rw [Ne, List.take_eq_nil_iff]
          exact not_or_intro hn (charBytes_ne_nil c)
        have hrest : (charBytes c).drop n ≠ [] := by
          rw [Ne, List.drop_eq_nil_iff]
          exact hfits
        rw [List.flatMap_nil, if_neg hne.symm]
        have hpiece := piece_of_charBytes (List.take_append_drop n _).symm hne hrest
        have hsplits := Splits.piece hpiece .nil
        rwa [List.append_nil] at hsplits

/-- The bytes of a text split into its characters. -/
theorem splits_encode (s : String) : Splits (encode s) (s.toList.map some) := by
  rw [encode_eq_flatMap]
  induction s.toList with
  | nil => exact .nil
  | cons c l ih => exact .char c ih

/-- The bytes are read as a text: the characters that they split into, with one replacement
character for each ill-formed piece. -/
def Reads (b : Bytes) (text : String) : Prop :=
  ∃ out, Splits b out ∧ text = String.ofList (out.map fun c => c.getD replacement)

/-- What the bytes of a text are read as, from the way in which they split. -/
theorem lossy_of_splits (h : Splits b out) :
    lossy b = String.ofList (out.map fun c => c.getD replacement) := by
  rw [lossy, splits_iff.1 h]

/-- Bytes are read as one text, which the reader gives. -/
theorem reads_iff {text : String} : Reads b text ↔ text = lossy b := by
  constructor
  · rintro ⟨out, hsplits, rfl⟩
    exact (lossy_of_splits hsplits).symm
  · rintro rfl
    exact ⟨_, (splits_scan b).1, rfl⟩

/-- Nothing is replaced where there is no ill-formed piece. -/
theorem map_some_getD (l : List Char) : (l.map some).map (fun c => c.getD replacement) = l := by
  rw [List.map_map]
  exact List.map_id _

/-- Well-formed text is read as it is. -/
theorem lossy_encode (s : String) : lossy (encode s) = s := by
  rw [lossy_of_splits (splits_encode s), map_some_getD, String.ofList_toList]

/-- Text that was cut is read as the characters that fit, and one replacement character if the cut
is inside a character. -/
theorem lossy_take_encode (s : String) (n : Nat) :
    lossy ((encode s).take n) = if encode (cut s n) = (encode s).take n then cut s n
      else cut s n ++ String.singleton replacement := by
  have hcut : encode (cut s n) = (fitting s.toList n).flatMap charBytes := by
    rw [encode_eq_flatMap, cut, String.toList_ofList]
  have hsplits := splits_take s.toList n
  rw [← encode_eq_flatMap, ← hcut] at hsplits
  rw [lossy_of_splits hsplits, List.map_append, map_some_getD, String.ofList_append, ← cut]
  split
  · rw [List.map_nil, String.ofList_nil, String.append_empty]
  · rfl

/-- The replacement of ill-formed pieces makes text at most three times as long. -/
theorem length_encode_lossy_le (b : Bytes) : (encode (lossy b)).length ≤ 3 * b.length := by
  have hreplacement : (charBytes replacement).length = 3 := by decide
  have hsplits := (splits_scan b).1
  rw [lossy, encode_eq_flatMap, String.toList_ofList]
  generalize scan none b = out at hsplits
  induction hsplits with
  | nil => exact Nat.le_refl _
  | char c _ ih =>
    rw [List.map_cons, List.flatMap_cons, List.length_append, List.length_append, Option.getD_some]
    omega
  | piece hpiece _ ih =>
    have hpos := List.length_pos_iff.2 hpiece.ne_nil
    rw [List.map_cons, List.flatMap_cons, List.length_append, List.length_append, Option.getD_none,
      hreplacement]
    omega

/-- A message is what is left of a text of which so many bytes are kept: its characters that fit,
and one replacement character if the cut goes through the next one. -/
structure LeftOf (text : String) (n : Nat) (message : String) : Prop where
  /-- The characters that fit are a front of the text, and the next one does not fit. -/
  fits : ∃ rest, text = cut text n ++ rest ∧ (encode (cut text n)).length ≤ n ∧
    ∀ c tail, rest.toList = c :: tail → n < (encode (cut text n)).length + (charBytes c).length
  eq_ite : message = if encode (cut text n) = (encode text).take n then cut text n
    else cut text n ++ String.singleton replacement
  /-- The replacement character takes up to two bytes more than there was room for. -/
  length_le : (encode message).length ≤ n + 2
  /-- A text that fits is left as it is. -/
  eq_of_fits : (encode text).length ≤ n → message = text

/-- Texts one after another have their bytes one after another. -/
theorem encode_append (s t : String) : encode (s ++ t) = encode s ++ encode t := by
  rw [encode_eq_flatMap, String.toList_append, List.flatMap_append, ← encode_eq_flatMap,
    ← encode_eq_flatMap]

/-- What the kept bytes of a text are read as is what is left of it. -/
theorem leftOf_lossy (text : String) (n : Nat) : LeftOf text n (lossy ((encode text).take n)) where
  fits := cut_spec text n
  eq_ite := lossy_take_encode text n
  length_le := by
    obtain ⟨rest, htext, hle, -⟩ := cut_spec text n
    have hreplacement : (encode (String.singleton replacement)).length = 3 := by decide +kernel
    rw [lossy_take_encode]
    split
    · omega
    · next hinside =>
      -- A cut behind a character would leave all bytes before it.
      have hne : (encode (cut text n)).length ≠ n := by
        intro hn
        have hbytes : encode text = encode (cut text n) ++ encode rest := by
          rw [← encode_append, ← htext]
        exact hinside (by rw [hbytes, List.take_left' hn])
      rw [encode_append, List.length_append, hreplacement]
      omega
  eq_of_fits h := by rw [List.take_of_length_le h, lossy_encode]

end HashLoader.Utf8
