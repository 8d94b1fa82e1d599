import HashLoader.Args

/-!
# Arguments are taken apart as they are put together

Arguments that are long enough consist of a reference and a payload (`exists_layout`), and reading
them takes the pieces apart again (`decode_layout`, `payload_layout`). So reading undoes writing
(`decode_encode`), and arguments that are accepted are those that were written (`decode_eq_ok_iff`).
All others are refused for their length or for one byte (`decode_eq_error_iff`).
-/

namespace HashLoader

/-! ## Hash types -/

/-- The bytes that are a hash type are the first three. -/
theorem HashType.isSome_ofByte?_iff {b : UInt8} :
    (HashType.ofByte? b).isSome = true ↔ b = 0 ∨ b = 1 ∨ b = 2 := by
  unfold HashType.ofByte?
  split
  · next h => simp [h]
  · next h0 =>
    split
    · next h => simp [h]
    · next h1 =>
      split
      · next h => simp [h]
      · next h2 => simp [h0, h1, h2]

/-- The bytes above the last hash type are those that are none. -/
theorem HashType.ofByte?_eq_none_iff {b : UInt8} : HashType.ofByte? b = none ↔ 2 < b := by
  rw [← Option.not_isSome_iff_eq_none, isSome_ofByte?_iff]
  simp only [UInt8.lt_iff_toNat_lt, ← UInt8.toNat_inj, UInt8.reduceToNat]
  omega

/-- Every byte up to the last hash type is one. -/
theorem HashType.isSome_ofByte? {b : UInt8} (h : ¬ 2 < b) : (HashType.ofByte? b).isSome = true := by
  rw [Option.isSome_iff_ne_none, Ne, HashType.ofByte?_eq_none_iff]
  exact h

/-! ## References and payloads -/

namespace CodeReference

variable {args : Bytes}

/-- Arguments of at least 35 bytes consist of two bytes, a hash, one byte and a payload. -/
theorem exists_layout (h : size ≤ args.length) :
    ∃ (r₀ r₁ : UInt8) (codeHash : Hash) (t : UInt8) (rest : Bytes),
      args = r₀ :: r₁ :: (codeHash.bytes ++ t :: rest) := by
  unfold size hashSize at h
  match args, h with
  | r₀ :: r₁ :: tail, h =>
    -- What follows the two bytes has room for a hash and one byte more.
    simp only [List.length_cons] at h
    have hhash : (tail.take hashSize).length = hashSize := by
      rw [List.length_take]
      unfold hashSize
      omega
    obtain ⟨t, rest, hrest⟩ : ∃ t rest, tail.drop hashSize = t :: rest := by
      apply List.exists_cons_of_length_pos
      rw [List.length_drop]
      unfold hashSize
      omega
    refine ⟨r₀, r₁, ⟨tail.take hashSize, hhash⟩, t, rest, ?_⟩
    rw [← hrest, List.take_append_drop]

/-- Such arguments hold the reference of their pieces, if the one byte is a hash type. -/
theorem decode_layout (r₀ r₁ : UInt8) (codeHash : Hash) (t : UInt8) (rest : Bytes) :
    decode (r₀ :: r₁ :: (codeHash.bytes ++ t :: rest)) = match HashType.ofByte? t with
      | some hashType => .ok ⟨(r₀, r₁), codeHash, hashType⟩
      | none => .error (.unknownHashType t) := by
  have htake : (codeHash.bytes ++ t :: rest).take hashSize = codeHash.bytes :=
    List.take_left' codeHash.length_bytes
  have hdrop : (codeHash.bytes ++ t :: rest).drop hashSize = t :: rest :=
    List.drop_left' codeHash.length_bytes
  cases htype : HashType.ofByte? t with
  | none => simp only [decode, htake, hdrop, Hash.ofBytes?_bytes, htype]
  | some hashType => simp only [decode, htake, hdrop, Hash.ofBytes?_bytes, htype]

/-- What follows the pieces is the payload. -/
theorem payload_layout (r₀ r₁ : UInt8) (codeHash : Hash) (t : UInt8) (rest : Bytes) :
    payload (r₀ :: r₁ :: (codeHash.bytes ++ t :: rest)) = rest := by
  have hsplit : r₀ :: r₁ :: (codeHash.bytes ++ t :: rest)
      = (r₀ :: r₁ :: (codeHash.bytes ++ [t])) ++ rest := by simp
  rw [payload, hsplit]
  apply List.drop_left'
  simp [codeHash.length_bytes, size, hashSize]

/-- The byte behind the hash is the thirty-fifth. -/
theorem getElem?_layout (r₀ r₁ : UInt8) (codeHash : Hash) (t : UInt8) (rest : Bytes) :
    (r₀ :: r₁ :: (codeHash.bytes ++ t :: rest))[34]? = some t := by
  rw [List.getElem?_cons_succ, List.getElem?_cons_succ,
    List.getElem?_append_right (by rw [codeHash.length_bytes]; decide), codeHash.length_bytes]
  rfl

/-- Shorter arguments hold no reference. -/
theorem decode_of_short (h : args.length < size) :
    decode args = .error (.invalidArgsFormat args.length size) := by
  unfold decode
  split
  · next r₀ r₁ tail =>
    split
    -- A hash and a byte after it make 35 bytes with the two in front.
    · next codeHash t rest hhash hrest =>
      have hlen := congrArg List.length hrest
      simp only [List.length_drop, List.length_cons] at hlen
      simp only [size, List.length_cons] at h
      omega
    · rfl
  · rfl

/-- The arguments that hold a reference have 35 bytes besides the payload. -/
theorem length_encode (r : CodeReference) (input : Bytes) :
    (r.encode input).length = input.length + 35 := by
  simp only [encode, List.length_cons, List.length_append, r.codeHash.length_bytes, hashSize]
  omega

/-- The arguments that hold a reference and a payload are read back. -/
theorem decode_encode (r : CodeReference) (input : Bytes) : decode (r.encode input) = .ok r := by
  rw [encode, decode_layout, HashType.ofByte?_toByte]

/-- The payload of arguments is what was put behind the reference. -/
theorem payload_encode (r : CodeReference) (input : Bytes) : payload (r.encode input) = input :=
  payload_layout _ _ _ _ _

/-- Arguments hold a reference exactly if they are those of the reference and of what follows it. -/
theorem decode_eq_ok_iff {r : CodeReference} :
    decode args = .ok r ↔ r.encode (payload args) = args := by
  constructor
  · intro h
    by_cases hlong : size ≤ args.length
    · obtain ⟨r₀, r₁, codeHash, t, rest, rfl⟩ := exists_layout hlong
      rw [payload_layout]
      rw [decode_layout] at h
      split at h
      · next hashType htype =>
        cases h
        rw [encode, HashType.toByte_of_ofByte? htype]
      · cases h
    · rw [decode_of_short (Nat.not_le.1 hlong)] at h
      cases h
  · intro h
    calc decode args = decode (r.encode (payload args)) := by rw [h]
      _ = .ok r := decode_encode r (payload args)

/-- Arguments hold no reference if they are too short for one, or else by the byte of its hash type.
-/
theorem decode_eq_error_iff {e : LoaderError} :
    decode args = .error e ↔ args.length < size ∧ e = .invalidArgsFormat args.length size ∨
      ∃ t, args[34]? = some t ∧ HashType.ofByte? t = none ∧ e = .unknownHashType t := by
  by_cases hlong : size ≤ args.length
  · obtain ⟨r₀, r₁, codeHash, t, rest, hsplit⟩ := exists_layout hlong
    have hbyte : args[34]? = some t := by rw [hsplit, getElem?_layout]
    have hdecode := decode_layout r₀ r₁ codeHash t rest
    rw [← hsplit] at hdecode
    rw [hdecode, hbyte]
    simp only [Nat.not_lt.2 hlong, false_and, false_or]
    cases htype : HashType.ofByte? t with
    | none => simp [htype, eq_comm]
    | some hashType => simp [htype]
  · -- There is no byte behind a hash, so nothing can be wrong with it.
    have hshort : args.length < size := Nat.not_le.1 hlong
    have hnone : args[34]? = none := List.getElem?_eq_none (Nat.le_of_lt_succ hshort)
    rw [decode_of_short hshort, hnone]
    simp [hshort, eq_comm]

/-- The payload is not looked at for the reference. -/
theorem decode_take (args : Bytes) : decode (args.take size) = decode args := by
  by_cases hlong : size ≤ args.length
  · obtain ⟨r₀, r₁, codeHash, t, rest, rfl⟩ := exists_layout hlong
    have hsplit : r₀ :: r₁ :: (codeHash.bytes ++ t :: rest)
        = (r₀ :: r₁ :: (codeHash.bytes ++ [t])) ++ rest := by simp
    have hlength : (r₀ :: r₁ :: (codeHash.bytes ++ [t])).length = size := by
      simp [codeHash.length_bytes, size, hashSize]
    have htake : (r₀ :: r₁ :: (codeHash.bytes ++ t :: rest)).take size
        = r₀ :: r₁ :: (codeHash.bytes ++ [t]) := by
      rw [hsplit, List.take_left' hlength]
    rw [htake, decode_layout, decode_layout]
  · rw [List.take_of_length_le (Nat.le_of_lt (Nat.not_le.1 hlong))]

/-- Writing arguments and reading them undo each other. Every reference and payload is read back
from the arguments made of them. Arguments of fewer than 35 bytes are refused for their length,
others for the thirty-fifth byte exactly if that is none of the three hash types, and all that are
left are made of the reference and the payload that are read from them. Behind the first 35 bytes
nothing matters for the reference. -/
theorem decode_inverts_encode :
    (∀ (r : CodeReference) (input : Bytes),
      decode (r.encode input) = .ok r ∧ payload (r.encode input) = input) ∧
    ∀ args : Bytes,
      (∀ e, decode args = .error e ↔
        args.length < 35 ∧ e = .invalidArgsFormat args.length 35 ∨
          ∃ t, args[34]? = some t ∧ ¬(t = 0 ∨ t = 1 ∨ t = 2) ∧ e = .unknownHashType t) ∧
      ((∃ r, decode args = .ok r) ↔ ∃ t, args[34]? = some t ∧ (t = 0 ∨ t = 1 ∨ t = 2)) ∧
      (∀ r, decode args = .ok r ↔ r.encode (payload args) = args) ∧
      decode (args.take 35) = decode args := by
  refine ⟨fun r input => ⟨decode_encode r input, payload_encode r input⟩,
    fun args => ⟨fun e => ?_, ⟨?_, ?_⟩, fun r => decode_eq_ok_iff, decode_take args⟩⟩
  · simp only [← HashType.isSome_ofByte?_iff, Option.not_isSome_iff_eq_none]
    exact decode_eq_error_iff
  · rintro ⟨r, h⟩
    rw [← decode_eq_ok_iff.1 h, encode, getElem?_layout]
    refine ⟨_, rfl, HashType.isSome_ofByte?_iff.1 ?_⟩
    rw [HashType.ofByte?_toByte, Option.isSome_some]
  · rintro ⟨t, ht, htype⟩
    cases hdecode : decode args with
    | ok r => exact ⟨r, rfl⟩
    | error e =>
      -- A byte that is there and is a hash type rules out both errors.
      rcases decode_eq_error_iff.1 hdecode with ⟨hshort, -⟩ | ⟨t', ht', hnone, -⟩
      · have hnothing : args[34]? = none := List.getElem?_eq_none (Nat.le_of_lt_succ hshort)
        cases ht.symm.trans hnothing
      · cases ht.symm.trans ht'
        have hsome := HashType.isSome_ofByte?_iff.2 htype
        rw [hnone] at hsome
        cases hsome

/-- A fourth byte for a hash type is refused, whatever the payload is. -/
example : decode (List.replicate 34 0 ++ [3, 7]) = .error (.unknownHashType 3) := rfl

end CodeReference

end HashLoader
