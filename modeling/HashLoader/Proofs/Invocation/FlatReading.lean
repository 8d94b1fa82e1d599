import HashLoader.Host.Local
import HashLoader.Invocation
import HashLoader.Proofs.Args
import HashLoader.Proofs.Record.Script

/-!
# Scripts are read at fixed offsets

What a script asks for is found layer by layer: the host copies the script into a buffer, the record
is verified, its arguments are cut into a code reference and a payload. `readScript` runs the layers
one after another. `readFlat` knows nothing of them: apart from the verification it reads single
bytes and ranges of the script at offsets that never change. `readScript_eq_readFlat` says that on a
local host the two are one function, failures and their order included.

The arguments have a fixed place in a record (`verify_args`), and the pieces of a reference have one
in the arguments. So each piece stands at an offset of the script (`CodeReference.pieces_of_drop`),
which settles all that comes after the verification.
-/

namespace HashLoader

/-! ## The offsets of the pieces -/

/-- In a script whose arguments these pieces are, each of them has its place. -/
theorem CodeReference.pieces_of_drop {script : Bytes} {r₀ r₁ : UInt8} {codeHash : Hash} {t : UInt8}
    {rest : Bytes} (h : script.drop 49 = r₀ :: r₁ :: (codeHash.bytes ++ t :: rest)) :
    script[49]? = some r₀ ∧ script[50]? = some r₁ ∧ script[83]? = some t ∧
      (script.drop 51).take 32 = codeHash.bytes ∧ script.drop 84 = rest := by
  have hbyte : ∀ i, script[49 + i]? = (r₀ :: r₁ :: (codeHash.bytes ++ t :: rest))[i]? := by
    intro i
    rw [← h, List.getElem?_drop]
  refine ⟨hbyte 0, hbyte 1, ?_, ?_, ?_⟩
  · exact (hbyte 34).trans (getElem?_layout r₀ r₁ codeHash t rest)
  · have hback : script.drop 51 = codeHash.bytes ++ t :: rest := by
      rw [show 51 = 49 + 2 from rfl, ← List.drop_drop, h]
      rfl
    rw [hback]
    exact List.take_left' codeHash.length_bytes
  · rw [show 84 = 49 + 35 from rfl, ← List.drop_drop, h]
    exact payload_layout r₀ r₁ codeHash t rest

/-! ## The layers and the offsets -/

/-- Reads a script layer by layer: the record, the reference in its arguments, and the payload. -/
def Envelope.read (raw : Bytes) (limit : Nat) : Except LoaderError (CodeReference × Bytes) := do
  let envelope ← Envelope.parse raw limit
  let reference ← CodeReference.decode envelope.args
  return (reference, CodeReference.payload envelope.args)

/-- Loads the script of a host into a zeroed buffer of `limit` bytes and reads it. -/
def readScript {σ : Type} (host : Host σ) (limit : Nat) (s : σ) :
    Except LoaderError (CodeReference × Bytes) × σ :=
  match Envelope.load host limit s with
  | (.error e, s) => (.error e, s)
  | (.ok raw, s) => (Envelope.read raw limit, s)

/-- Reads a script at fixed offsets: the reference stands from 49 on and the payload from 84 on. -/
def readFlat (script : Bytes) (limit : Nat) : Except LoaderError (CodeReference × Bytes) :=
  if limit < script.length then .error (.scriptTooLarge script.length limit)
  else
    match Record.Script.verify script with
    | .error e => .error (.encoding e)
    | .ok _ =>
      if hlong : script.length < 84 then .error (.invalidArgsFormat (script.length - 49) 35)
      else if htype : (2 : UInt8) < script[83] then .error (.unknownHashType script[83])
      else
        .ok ({ reserved := (script[49], script[50])
               codeHash := ⟨(script.drop 51).take 32, by
                rw [List.length_take, List.length_drop, hashSize]
                omega⟩
               hashType := (HashType.ofByte? script[83]).get (HashType.isSome_ofByte? htype) },
          script.drop 84)

/-- What an invocation asks a script for is what is read from it, if it fits the input window. -/
theorem request_eq_read (config : Config) (label : String) (raw : Bytes) :
    request config .fromArgs label raw = (do
      let (reference, input) ← Envelope.read raw config.maxScriptSize
      checkInput input label
      return (reference, input)) := by
  unfold request Envelope.read
  cases Envelope.parse raw config.maxScriptSize with
  | error e => rfl
  | ok envelope =>
    rw [ok_bind, ok_bind]
    cases CodeReference.decode envelope.args with
    | error e => rfl
    | ok reference => rfl

/-- A local host hands out its whole script, if the buffer is large enough. -/
theorem LocalHost.load_setScript (h : LocalHost) (script : Bytes) (limit : Nat) :
    Envelope.load LocalHost.host limit (h.setScript script)
      = (if limit < script.length then .error (.scriptTooLarge script.length limit) else .ok script,
        h.setScript script) := by
  simp only [Envelope.load, LocalHost.host, LocalHost.setScript, partialLoad, Nat.zero_le, if_true,
    List.drop_zero, Nat.sub_zero]
  split
  · rfl
  · next hfits =>
    -- The whole script fits in front of the buffer, and what follows it is not looked at.
    rw [take_toList_overlay (Vector.replicate limit 0) (Nat.not_lt.1 hfits)]

/-- The arguments of a script that was verified are all that follows its first 49 bytes. -/
theorem Record.Script.verify_args {buf : Bytes} {script : Record.Script}
    (h : Record.Script.verify buf = .ok script) :
    script.args.bytes = buf.drop 49 ∧ buf.length = 49 + script.args.bytes.length := by
  obtain ⟨-, rfl, -⟩ := Record.Script.verify_eq_ok_iff.1 h
  refine ⟨script.fields.drop_layout.symm, ?_⟩
  rw [Record.ScriptFields.length_layout]
  exact Nat.add_comm _ _

/-- Reading a script layer by layer is reading it at fixed offsets. -/
theorem Envelope.read_eq_readFlat {script : Bytes} {limit : Nat} :
    Envelope.read script limit = readFlat script limit := by
  unfold Envelope.read Envelope.parse readFlat
  by_cases hlarge : limit < script.length
  · rw [if_pos hlarge, if_pos hlarge]
    rfl
  rw [if_neg hlarge, if_neg hlarge]
  cases hverify : Record.Script.verify script with
  | error e => rfl
  | ok verified =>
    obtain ⟨hargs, hlength⟩ := Record.Script.verify_args hverify
    have henvelope : Envelope.args ⟨script, verified⟩ = verified.args.bytes := rfl
    dsimp only
    rw [ok_bind, henvelope]
    by_cases hshort : script.length < 84
    · have hsize : verified.args.bytes.length < CodeReference.size := by
        show verified.args.bytes.length < 35
        omega
      have hlen : verified.args.bytes.length = script.length - 49 := by omega
      rw [dif_pos hshort, CodeReference.decode_of_short hsize, hlen]
      rfl
    rw [dif_neg hshort]
    -- The arguments are a reference and a payload, so each offset of the script names its piece.
    have hlong : CodeReference.size ≤ verified.args.bytes.length := by
      show 35 ≤ verified.args.bytes.length
      omega
    obtain ⟨r₀, r₁, codeHash, t, rest, hsplit⟩ := CodeReference.exists_layout hlong
    have hdrop : script.drop 49 = r₀ :: r₁ :: (codeHash.bytes ++ t :: rest) := by
      rw [← hargs, hsplit]
    obtain ⟨hbyte₀, hbyte₁, hbyte, hhash, hrest⟩ := CodeReference.pieces_of_drop hdrop
    obtain ⟨_, hr₀⟩ := List.getElem?_eq_some_iff.1 hbyte₀
    obtain ⟨_, hr₁⟩ := List.getElem?_eq_some_iff.1 hbyte₁
    obtain ⟨_, ht⟩ := List.getElem?_eq_some_iff.1 hbyte
    rw [hsplit, CodeReference.decode_layout, CodeReference.payload_layout]
    cases htype : HashType.ofByte? t with
    | none =>
      have habove : (2 : UInt8) < script[83] := by rw [ht]; exact HashType.ofByte?_eq_none_iff.1 htype
      rw [dif_pos habove, ht]
      rfl
    | some hashType =>
      have hbelow : ¬ (2 : UInt8) < script[83] := by
        rw [ht, ← HashType.ofByte?_eq_none_iff, htype]
        exact nofun
      rw [dif_neg hbelow]
      simp only [ht, hr₀, hr₁, hhash, hrest, htype, Option.get_some]
      rfl

/-! ## Local hosts -/

/-- A script of the loader is made exactly if its record can be: with the reference and the items in
front of it, the payload has to fit the length header. -/
theorem LocalHost.scriptWithCodeHash_eq_ok_iff {codeHash : Hash} {t : HashType} {input script : Bytes} :
    LocalHost.scriptWithCodeHash codeHash t input = .ok script ↔
      input.length + 79 ≤ Record.maxLength ∧
        script = Record.ScriptFields.layout ⟨LocalHost.loaderCodeHash, HashType.data1.toByte,
          CodeReference.encode ⟨(0, 0), codeHash, t⟩ input⟩ := by
  rw [scriptWithCodeHash, scriptWithArgs, Record.ScriptFields.encode_eq_ok_iff,
    CodeReference.length_encode]

/-- Such a script is verified, and its arguments are the reference and the payload. -/
theorem LocalHost.verify_scriptWithCodeHash {codeHash : Hash} {t : HashType} {input script : Bytes}
    (h : LocalHost.scriptWithCodeHash codeHash t input = .ok script) :
    ∃ verified, Record.Script.verify script = .ok verified ∧
      verified.args.bytes = CodeReference.encode ⟨(0, 0), codeHash, t⟩ input := by
  obtain ⟨hlength, hscript⟩ := LocalHost.scriptWithCodeHash_eq_ok_iff.1 h
  let args : Bytes := CodeReference.encode ⟨(0, 0), codeHash, t⟩ input
  let verified : Record.Script := ⟨loaderCodeHash, HashType.data1.toByte, ⟨49, args⟩⟩
  have hargs : args.length = input.length + 35 := CodeReference.length_encode _ input
  exact ⟨verified, Record.Script.verify_eq_ok_iff.2 ⟨by rw [hargs]; omega, hscript, rfl⟩, rfl⟩

/-- Such a script is read back, if the buffer holds it. -/
theorem LocalHost.readFlat_scriptWithCodeHash {codeHash : Hash} {t : HashType} {input script : Bytes}
    {limit : Nat} (hfits : 84 + input.length ≤ limit)
    (h : LocalHost.scriptWithCodeHash codeHash t input = .ok script) :
    readFlat script limit = .ok (⟨(0, 0), codeHash, t⟩, input) := by
  obtain ⟨verified, hverify, hargs⟩ := LocalHost.verify_scriptWithCodeHash h
  have hlen : script.length = 49 + (input.length + 35) := by
    rw [(Record.Script.verify_args hverify).2, hargs, CodeReference.length_encode]
  rw [← Envelope.read_eq_readFlat, Envelope.read, Envelope.parse, if_neg (by omega), hverify]
  show (do
    let reference ← CodeReference.decode verified.args.bytes
    return (reference, CodeReference.payload verified.args.bytes) :
      Except LoaderError (CodeReference × Bytes)) = _
  rw [hargs, CodeReference.decode_encode, CodeReference.payload_encode]
  rfl

/-- On a local host, reading a script layer by layer is reading it at fixed offsets, where a byte is
refused as a hash type exactly if it is above 2. In particular a script that was made for a code
hash, a hash type and a payload is read back as these. It is made unless the payload is too long for
any record. -/
theorem LocalHost.readScript_eq_readFlat :
    (∀ (h : LocalHost) (script : Bytes) (limit : Nat),
      readScript LocalHost.host limit (h.setScript script)
        = (readFlat script limit, h.setScript script)) ∧
    ∀ (h : LocalHost) (codeHash : Hash) (t : HashType) (input : Bytes) (limit : Nat),
      84 + input.length ≤ limit →
      ((∃ script, LocalHost.scriptWithCodeHash codeHash t input = .ok script) ↔
        input.length + 79 ≤ Record.maxLength) ∧
      ∀ script, LocalHost.scriptWithCodeHash codeHash t input = .ok script →
        readScript LocalHost.host limit (h.setScript script)
          = (.ok (⟨(0, 0), codeHash, t⟩, input), h.setScript script) := by
  have hall : ∀ (h : LocalHost) (script : Bytes) (limit : Nat),
      readScript LocalHost.host limit (h.setScript script)
        = (readFlat script limit, h.setScript script) := by
    intro h script limit
    rw [readScript, LocalHost.load_setScript]
    -- A script that is too large is refused before it is looked at.
    by_cases hlarge : limit < script.length
    · rw [if_pos hlarge, readFlat, if_pos hlarge]
    · rw [if_neg hlarge, ← Envelope.read_eq_readFlat]
  refine ⟨hall, fun h codeHash t input limit hfits => ⟨⟨?_, ?_⟩, fun script hmade => ?_⟩⟩
  · rintro ⟨script, hmade⟩
    exact (LocalHost.scriptWithCodeHash_eq_ok_iff.1 hmade).1
  · exact fun hlength => ⟨_, LocalHost.scriptWithCodeHash_eq_ok_iff.2 ⟨hlength, rfl⟩⟩
  · rw [hall, LocalHost.readFlat_scriptWithCodeHash hfits hmade]

/-- A script with four bytes of payload is made, and it is read back from a buffer that it fills. -/
theorem LocalHost.readScript_eq_readFlat_ping :
    84 + ([0x70, 0x69, 0x6e, 0x67] : Bytes).length ≤ 88 ∧
      ∃ script, LocalHost.scriptWithCodeHash .zero .data1 [0x70, 0x69, 0x6e, 0x67] = .ok script ∧
        (readScript LocalHost.host 88 (LocalHost.empty.setScript script)).1
          = .ok (⟨(0, 0), .zero, .data1⟩, [0x70, 0x69, 0x6e, 0x67]) := by
  have hfits : 84 + ([0x70, 0x69, 0x6e, 0x67] : Bytes).length ≤ 88 := by decide
  obtain ⟨hmade, hread⟩ := LocalHost.readScript_eq_readFlat.2 LocalHost.empty .zero .data1
    [0x70, 0x69, 0x6e, 0x67] 88 hfits
  obtain ⟨script, hscript⟩ := hmade.2 (by decide)
  exact ⟨hfits, script, hscript, congrArg Prod.fst (hread script hscript)⟩

end HashLoader
