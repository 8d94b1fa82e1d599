import HashLoader.Arena.Execution
import HashLoader.Proofs.Except

/-!
# What staging leaves in a memory

Label and payload are staged at fixed places of the input window, and the check of the inputs is all
that keeps them there: the label and its NUL end before the payload, the payload ends with the
window (`end_of_label`, `end_of_payload`). So each is read back at its place (`read_staged_label`,
`read_staged_payload`), and no other byte changes (`byte_staged_of_outside`).

The NUL is staged with the label. What a longer label left behind it is therefore no part of the
text at the place (`text?_staged`).
-/

namespace HashLoader

/-! ## Reading memory -/

namespace Wasm.Memory

variable {m : Memory} {address : Nat}

/-- A range is read if it lies inside the memory and has the bytes. -/
theorem read_eq_of_bytes {b : Bytes} (hfits : address + b.length ≤ m.size)
    (hbytes : ∀ i, (h : i < b.length) → m.byte (address + i) = b[i]) :
    m.read address b.length = some b := by
  have hcontains : m.contains address b.length = true := decide_eq_true hfits
  rw [read, if_pos hcontains]
  refine congrArg some (List.ext_getElem (m.length_peek _ _) fun i _ hi => ?_)
  simp only [peek, List.getElem_map, List.getElem_range', Nat.one_mul]
  exact hbytes i hi

/-- What was put at an address is there. -/
theorem byte_put_of_lt {i : Nat} {b : Bytes} (h : i < b.length) :
    (m.put address b).byte (address + i) = b[i] := by
  rw [byte_put, if_pos (by omega), Nat.add_sub_cancel_left, List.getD_eq_getElem?_getD,
    List.getElem?_eq_getElem h, Option.getD_some]

/-- The text at an address: the bytes up to the first NUL from there on, if the memory has one. -/
def text? (m : Memory) (address : Nat) : Option Bytes :=
  let rest := m.peek address (m.size - address)
  if (0 : UInt8) ∈ rest then some (rest.takeWhile (· ≠ 0)) else none

/-- A range is followed by the bytes after it. -/
theorem peek_add (m : Memory) (address n k : Nat) :
    m.peek address (n + k) = m.peek address n ++ m.peek (address + n) k := by
  simp only [peek, ← List.map_append, List.range'_append_1]

/-- Bytes without a NUL that are followed by one are the text at their address. -/
theorem text?_of_read {b : Bytes} (hb : (0 : UInt8) ∉ b)
    (hread : m.read address (b ++ [0]).length = some (b ++ [0])) : m.text? address = some b := by
  obtain ⟨hcontains, hpeek⟩ := Option.ite_none_right_eq_some.1 hread
  have hfits : address + (b ++ [0]).length ≤ m.size := of_decide_eq_true hcontains
  have hsplit : m.size - address = (b ++ [0]).length + (m.size - address - (b ++ [0]).length) := by
    omega
  have hrest : m.peek address (m.size - address) = b ++ 0 ::
      m.peek (address + (b ++ [0]).length) (m.size - address - (b ++ [0]).length) := by
    rw [hsplit, peek_add, Option.some.inj hpeek, ← hsplit, List.append_assoc, List.singleton_append]
  have hkept : ∀ x ∈ b, decide (x ≠ 0) = true := by
    intro x hx
    rw [decide_eq_true_eq]
    rintro rfl
    exact hb hx
  have hmem : (0 : UInt8) ∈ m.peek address (m.size - address) := by simp [hrest]
  rw [text?, if_pos hmem, hrest, List.takeWhile_append_of_pos hkept,
    List.takeWhile_cons_of_neg (by simp), List.append_nil]

end Wasm.Memory

/-! ## The check of the inputs -/

variable {payload : Bytes} {label : String}

/-- Inputs pass the check if both are short enough and the label has no NUL. -/
theorem checkInput_eq_ok_iff :
    checkInput payload label = .ok () ↔ payload.length ≤ maxPayload ∧
      (Utf8.encode label).length ≤ maxLabel ∧ (0 : UInt8) ∉ Utf8.encode label := by
  unfold checkInput
  dsimp only
  split
  · next h => exact ⟨fun _ => h, fun _ => rfl⟩
  · next h => exact ⟨nofun, fun h' => absurd h' h⟩

/-- Payload or label cannot be staged. -/
def Unfit (payload : Bytes) (label : String) : Prop :=
  maxPayload < payload.length ∨ maxLabel < (Utf8.encode label).length ∨
    (0 : UInt8) ∈ Utf8.encode label

/-- All other inputs pass the check. -/
theorem checkInput_eq_ok_iff_not_unfit :
    checkInput payload label = .ok () ↔ ¬ Unfit payload label := by
  rw [checkInput_eq_ok_iff, Unfit, not_or, not_or, Nat.not_lt, Nat.not_lt]

/-- Inputs that cannot be staged fail the check with their lengths. -/
theorem checkInput_of_unfit (h : Unfit payload label) :
    checkInput payload label
      = .error (.argumentsLen payload.length (Utf8.encode label).length) := by
  have hnot := mt checkInput_eq_ok_iff_not_unfit.1 (not_not_intro h)
  unfold checkInput at hnot ⊢
  dsimp only at hnot ⊢
  split
  · next hfits =>
    rw [if_pos hfits] at hnot
    exact absurd rfl hnot
  · rfl

/-- Inputs that pass the check end with the input window. -/
theorem end_of_payload (h : checkInput payload label = .ok ()) :
    payloadOffset + payload.length ≤ inputWindow := by
  obtain ⟨hpayload, -, -⟩ := checkInput_eq_ok_iff.1 h
  simp only [maxPayload, payloadOffset, inputWindow] at hpayload ⊢
  omega

/-- The label and its NUL end before the payload. -/
theorem end_of_label (h : checkInput payload label = .ok ()) :
    labelOffset + (Utf8.encode label).length < payloadOffset := by
  obtain ⟨-, hlabel, -⟩ := checkInput_eq_ok_iff.1 h
  simp only [maxLabel, labelOffset, payloadOffset] at hlabel ⊢
  omega

/-! ## Staging -/

namespace Wasm.Memory

/-- A memory with label and payload at their places. -/
def staged (m : Memory) (payload : Bytes) (label : String) : Memory :=
  (m.put labelOffset (Utf8.encode label ++ [0])).put payloadOffset payload

variable {m : Memory}

@[simp]
theorem size_staged (m : Memory) (payload : Bytes) (label : String) :
    (m.staged payload label).size = m.size := by
  rw [staged, size_put, size_put]

/-- The payload is at its place. -/
theorem byte_staged_payload {i : Nat} (h : i < payload.length) :
    (m.staged payload label).byte (payloadOffset + i) = payload[i] := byte_put_of_lt h

/-- The label is at its place, followed by a NUL, since it ends before the payload. -/
theorem byte_staged_label (hinput : checkInput payload label = .ok ()) {i : Nat}
    (h : i < (Utf8.encode label ++ [0]).length) :
    (m.staged payload label).byte (labelOffset + i) = (Utf8.encode label ++ [0])[i] := by
  have hend := end_of_label hinput
  have hi : i ≤ (Utf8.encode label).length := by
    rw [List.length_append, List.length_singleton] at h
    omega
  rw [staged, byte_put, if_neg (by omega), byte_put_of_lt h]

/-- Staging changes no other byte. -/
theorem byte_staged_of_outside {j : Nat}
    (hlabel : ¬ (labelOffset ≤ j ∧ j ≤ labelOffset + (Utf8.encode label).length))
    (hpayload : ¬ (payloadOffset ≤ j ∧ j < payloadOffset + payload.length)) :
    (m.staged payload label).byte j = m.byte j := by
  rw [staged, byte_put, if_neg hpayload, byte_put, if_neg]
  rw [List.length_append, List.length_singleton]
  omega

/-- The payload is read back at its place. -/
theorem read_staged_payload (hinput : checkInput payload label = .ok ())
    (hwindow : inputWindow ≤ m.size) :
    (m.staged payload label).read payloadOffset payload.length = some payload := by
  have hend := end_of_payload hinput
  exact read_eq_of_bytes (by rw [size_staged]; omega) fun _ => byte_staged_payload

/-- The label is read back at its place, with its NUL. -/
theorem read_staged_label (hinput : checkInput payload label = .ok ())
    (hwindow : inputWindow ≤ m.size) :
    (m.staged payload label).read labelOffset (Utf8.encode label ++ [0]).length
      = some (Utf8.encode label ++ [0]) := by
  have hend := end_of_label hinput
  refine read_eq_of_bytes ?_ fun _ => byte_staged_label hinput
  rw [size_staged, List.length_append, List.length_singleton]
  simp only [labelOffset, payloadOffset, inputWindow] at hend hwindow ⊢
  omega

/-- The label is the text at its place. -/
theorem text?_staged (hinput : checkInput payload label = .ok ()) (hwindow : inputWindow ≤ m.size) :
    (m.staged payload label).text? labelOffset = some (Utf8.encode label) :=
  text?_of_read (checkInput_eq_ok_iff.1 hinput).2.2 (read_staged_label hinput hwindow)

end Wasm.Memory

/-- Where inputs are once they are staged. -/
def StagedInput.ofPayload (payload : Bytes) : StagedInput :=
  ⟨Int32.ofNat payloadOffset, Int32.ofNat payload.length, Int32.ofNat labelOffset⟩

/-- Inputs are staged if they pass the check. -/
theorem stageInput_eq_ok_iff {m m' : Wasm.Memory} {input : StagedInput} :
    stageInput m payload label = .ok (m', input) ↔
      checkInput payload label = .ok () ∧ m' = m.staged payload label ∧ input = .ofPayload payload := by
  unfold stageInput
  constructor
  · intro h
    obtain ⟨⟨⟩, hcheck, h⟩ := bind_eq_ok_iff.1 h
    cases h
    exact ⟨hcheck, rfl, rfl⟩
  · rintro ⟨hcheck, rfl, rfl⟩
    rw [hcheck]
    rfl

/-- Inputs that fail the check are not staged. -/
theorem stageInput_of_unfit {m : Wasm.Memory} (h : Unfit payload label) :
    stageInput m payload label
      = .error (.argumentsLen payload.length (Utf8.encode label).length) := by
  rw [stageInput, checkInput_of_unfit h, error_bind]

end HashLoader
