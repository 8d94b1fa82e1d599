import HashLoader.Image.Page
import HashLoader.Proofs.Arena.Staging

/-!
# Execution arenas keep to their ranges

An execution arena is a memory that cannot grow, and what is done to it is staging inputs, reading,
writing and asking for more pages. `ExecutionArena.Effect` says what each of these steps does: one
that is refused changes nothing, and one that is taken changes the range that it names.

From that, by induction over steps, an arena keeps its size, and beyond the input window each byte
is the one that the last write put there, or zero (`run_fixed`): staging never gets so far. So
whatever steps an arena went through, it is `Contained`, which is also to say that what is staged
next is read back as it is (`reserve_contained`).
-/

namespace HashLoader.ExecutionArena

/-! ## Reserving -/

/-- What is reserved is a memory of zeros that cannot grow. -/
theorem eq_of_reserve {size : Nat} {arena : ExecutionArena}
    (h : ExecutionArena.reserve size = .ok arena) :
    arena = ⟨.ofLimits ⟨unitsFor (inputWindow + size) Wasm.memoryPage,
      some (unitsFor (inputWindow + size) Wasm.memoryPage)⟩, inputWindow, inputWindow + size⟩ := by
  unfold ExecutionArena.reserve at h
  dsimp only at h
  split at h
  · exact (Except.ok.inj h).symm
  · cases h

/-- A memory that cannot be reserved means that the code cannot be loaded. -/
theorem error_of_reserve {size : Nat} {e : LoaderError}
    (h : ExecutionArena.reserve size = .error e) : ∃ reason, e = .cannotLoad reason := by
  unfold ExecutionArena.reserve at h
  dsimp only at h
  split at h
  · cases h
  · exact ⟨_, (Except.error.inj h).symm⟩

/-- An arena that ends at an address of 32 bits needs no more pages than there are. -/
theorem pages_le {size : Nat} (hsize : inputWindow + size ≤ UInt32.size - 1) :
    unitsFor (inputWindow + size) Wasm.memoryPage ≤ Wasm.maxMemoryPages := by
  have hlarge := unitsFor_mul_lt (inputWindow + size) Wasm.memoryPage_pos
  simp only [Wasm.memoryPage, Wasm.maxMemoryPages, UInt32.size] at hlarge hsize ⊢
  omega

/-- So it can be reserved. -/
theorem exists_reserve {size : Nat} (hsize : inputWindow + size ≤ UInt32.size - 1) :
    ∃ arena, ExecutionArena.reserve size = .ok arena :=
  ⟨_, if_pos (pages_le hsize)⟩

/-- An arena as it is reserved: a memory of zeros that holds it and cannot grow. -/
structure Fresh (size : Nat) (a : ExecutionArena) : Prop where
  base_eq : a.base = inputWindow
  limit_eq : a.limit = inputWindow + size
  pages_eq : a.memory.pages = unitsFor (inputWindow + size) Wasm.memoryPage
  maxPages_eq : a.memory.maxPages = a.memory.pages
  byte_eq : ∀ address, a.memory.byte address = 0

/-- What is reserved is fresh. -/
theorem fresh_of_reserve {size : Nat} {arena : ExecutionArena}
    (h : ExecutionArena.reserve size = .ok arena) : arena.Fresh size := by
  obtain rfl := eq_of_reserve h
  refine ⟨rfl, rfl, rfl, rfl, fun address => ?_⟩
  simp [Wasm.Memory.byte, Wasm.Memory.ofLimits]

/-- The memory holds the arena. -/
theorem Fresh.limit_le {size : Nat} {a : ExecutionArena} (h : a.Fresh size) :
    a.limit ≤ a.memory.size := by
  rw [h.limit_eq, Wasm.Memory.size, h.pages_eq]
  exact le_unitsFor_mul _ Wasm.memoryPage_pos

/-! ## Steps -/

variable {a : ExecutionArena} {steps : List Step}

/-- What a step does to an arena whose memory cannot grow, and what it answers. -/
inductive Effect (a : ExecutionArena) : Step → Answer × ExecutionArena → Prop
  /-- Inputs are staged. -/
  | staged {payload : Bytes} {label : String} : ¬ Unfit payload label →
      Effect a (.stage payload label)
        (.staged (.ofPayload payload), { a with memory := a.memory.staged payload label })
  /-- Inputs do not fit. -/
  | refused {payload : Bytes} {label : String} : Unfit payload label →
      Effect a (.stage payload label)
        (.refused (.argumentsLen payload.length (Utf8.encode label).length), a)
  /-- No more pages are asked for. -/
  | unasked : Effect a (.grow 0) (.grown a.memory.pages, a)
  /-- There are no more pages. -/
  | notGrown {pages : Nat} : 0 < pages → Effect a (.grow pages) (.notGrown, a)
  /-- A range is read. -/
  | data {address len : Nat} : address + len ≤ a.memory.size →
      Effect a (.read address len) (.data (a.memory.peek address len), a)
  /-- A range to read is not inside. -/
  | unread {address len : Nat} : a.memory.size < address + len →
      Effect a (.read address len) (.outOfBounds, a)
  /-- A range is written. -/
  | written {address : Nat} {data : Bytes} : address + data.length ≤ a.memory.size →
      Effect a (.write address data) (.written, { a with memory := a.memory.put address data })
  /-- A range to write is not inside. -/
  | unwritten {address : Nat} {data : Bytes} : a.memory.size < address + data.length →
      Effect a (.write address data) (.outOfBounds, a)

/-- A memory that cannot grow gives no pages. -/
theorem grow_of_fixed {m : Wasm.Memory} (hfixed : m.maxPages = m.pages) (pages : Nat) :
    m.grow pages = if pages = 0 then some m else none := by
  unfold Wasm.Memory.grow
  split
  · next hroom =>
    have hnone : pages = 0 := by omega
    rw [if_pos hnone, hnone, Nat.add_zero]
  · next hfull =>
    have hsome : pages ≠ 0 := by omega
    rw [if_neg hsome]

/-- Every step has one of the effects. -/
theorem apply_effect (hfixed : a.memory.maxPages = a.memory.pages) (step : Step) :
    a.Effect step (a.apply step) := by
  cases step with
  | stage payload label =>
    by_cases hsize : Unfit payload label
    · rw [apply, stageInput_of_unfit hsize]
      exact .refused hsize
    · have hstaged : stageInput a.memory payload label
          = .ok (a.memory.staged payload label, .ofPayload payload) :=
        stageInput_eq_ok_iff.2 ⟨checkInput_eq_ok_iff_not_unfit.2 hsize, rfl, rfl⟩
      rw [apply, hstaged]
      exact .staged hsize
  | grow pages =>
    -- The memory is as large as it may become.
    rw [apply, grow_of_fixed hfixed]
    by_cases hnone : pages = 0
    · subst hnone
      exact .unasked
    · rw [if_neg hnone]
      exact .notGrown (Nat.pos_of_ne_zero hnone)
  | read address len =>
    rw [apply, Wasm.Memory.read, Wasm.Memory.contains]
    by_cases hfits : address + len ≤ a.memory.size
    · rw [if_pos (decide_eq_true hfits)]
      exact .data hfits
    · rw [if_neg (by simpa using hfits)]
      exact .unread (Nat.lt_of_not_le hfits)
  | write address data =>
    rw [apply, Wasm.Memory.write, Wasm.Memory.contains]
    by_cases hfits : address + data.length ≤ a.memory.size
    · rw [if_pos (decide_eq_true hfits)]
      exact .written hfits
    · rw [if_neg (by simpa using hfits)]
      exact .unwritten (Nat.lt_of_not_le hfits)

/-- The byte that a step writes at an address of a memory of `size` bytes, if it writes one there.
-/
def Step.byte? (size address : Nat) : Step → Option UInt8
  | .write start data =>
    if start + data.length ≤ size ∧ start ≤ address then data[address - start]? else none
  | .stage _ _ | .grow _ | .read _ _ => none

/-- The byte that the last of the steps wrote that wrote one at an address. -/
def Step.lastByte? (size address : Nat) (steps : List Step) : Option UInt8 :=
  steps.reverse.findSome? (Step.byte? size address)

/-- A step comes before those that follow it. -/
theorem Step.lastByte?_cons (size address : Nat) (step : Step) (rest : List Step) :
    lastByte? size address (step :: rest)
      = (lastByte? size address rest).or (step.byte? size address) := by
  rw [lastByte?, lastByte?, List.reverse_cons, List.findSome?_append, List.findSome?_singleton]

/-- An arena whose memory cannot grow, after some steps: it has the same range and the same size. -/
structure Fixed (a b : ExecutionArena) : Prop where
  base_eq : b.base = a.base
  limit_eq : b.limit = a.limit
  pages_eq : b.memory.pages = a.memory.pages
  maxPages_eq : b.memory.maxPages = b.memory.pages

theorem Fixed.size_eq {b : ExecutionArena} (h : a.Fixed b) : b.memory.size = a.memory.size := by
  rw [Wasm.Memory.size, Wasm.Memory.size, h.pages_eq]

/-- A step keeps range and size, and beyond the input window it changes what it writes and no more.
-/
theorem Effect.fixed {step : Step} {x : Answer × ExecutionArena} (h : a.Effect step x)
    (hfixed : a.memory.maxPages = a.memory.pages) :
    a.Fixed x.2 ∧ ∀ address, inputWindow ≤ address →
      x.2.memory.byte address
        = (step.byte? a.memory.size address).getD (a.memory.byte address) := by
  have hsame : a.Fixed a := ⟨rfl, rfl, rfl, hfixed⟩
  cases h with
  | refused | unasked | notGrown | data | unread => exact ⟨hsame, fun _ _ => rfl⟩
  | @staged payload label hfits =>
    have hinput := checkInput_eq_ok_iff_not_unfit.2 hfits
    have hpayload := end_of_payload hinput
    have hlabel : payloadOffset ≤ inputWindow := by decide
    have hend := end_of_label hinput
    refine ⟨⟨rfl, rfl, ?_, ?_⟩, fun address haddress => ?_⟩
    · simp [Wasm.Memory.staged]
    · simpa [Wasm.Memory.staged] using hfixed
    -- Both inputs end in the window.
    · exact Wasm.Memory.byte_staged_of_outside (by omega) (by omega)
  | @written start data hfits =>
    refine ⟨⟨rfl, rfl, Wasm.Memory.pages_put _ _ _, ?_⟩, fun address _ => ?_⟩
    · simpa using hfixed
    · show (a.memory.put start data).byte address = _
      simp only [Wasm.Memory.byte_put_eq_getD, Step.byte?, hfits, true_and]
  | @unwritten start data hlarge =>
    refine ⟨hsame, fun address _ => ?_⟩
    rw [Step.byte?, if_neg fun h => Nat.not_le_of_lt hlarge h.1]
    rfl

/-! ## Runs -/

/-- An arena after steps. -/
def run (a : ExecutionArena) (steps : List Step) : ExecutionArena :=
  steps.foldl (fun a step => (a.apply step).2) a

/-- Steps keep range and size, and beyond the input window a byte is the one that was written last.
-/
theorem run_fixed (hfixed : a.memory.maxPages = a.memory.pages) (steps : List Step) :
    a.Fixed (a.run steps) ∧ ∀ address, inputWindow ≤ address →
      (a.run steps).memory.byte address
        = (Step.lastByte? a.memory.size address steps).getD (a.memory.byte address) := by
  induction steps generalizing a with
  | nil => exact ⟨⟨rfl, rfl, rfl, hfixed⟩, fun _ _ => rfl⟩
  | cons step rest ih =>
    obtain ⟨hstep, hbyte⟩ := (apply_effect hfixed step).fixed hfixed
    obtain ⟨hrest, hbytes⟩ := ih hstep.maxPages_eq
    have hrun : a.run (step :: rest) = (a.apply step).2.run rest := rfl
    rw [hrun]
    refine ⟨⟨hrest.base_eq.trans hstep.base_eq, hrest.limit_eq.trans hstep.limit_eq,
      hrest.pages_eq.trans hstep.pages_eq, hrest.maxPages_eq⟩, fun address haddress => ?_⟩
    rw [hbytes address haddress, hbyte address haddress, hstep.size_eq, Step.lastByte?_cons]
    cases Step.lastByte? a.memory.size address rest <;> rfl

/-- Inputs were staged in an arena, and all else is as it was. -/
structure Stages (a : ExecutionArena) (payload : Bytes) (label : String) (input : StagedInput)
    (b : ExecutionArena) : Prop where
  /-- Only the label, its NUL and the payload are put. -/
  frame : ∀ address, ¬ (labelOffset ≤ address ∧ address ≤ labelOffset + (Utf8.encode label).length) →
    ¬ (payloadOffset ≤ address ∧ address < payloadOffset + payload.length) →
    b.memory.byte address = a.memory.byte address
  /-- The text at the address of the label is the label. -/
  label_eq : b.memory.text? input.labelPtr.toUInt32.toNat = some (Utf8.encode label)
  /-- The range of the payload holds the payload. -/
  payload_eq : b.memory.read input.payloadPtr.toUInt32.toNat input.payloadLen.toUInt32.toNat
    = some payload

/-- What is true of an arena after steps, given the fresh one. -/
structure Contained (fresh : ExecutionArena) (steps : List Step) (a : ExecutionArena) : Prop where
  /-- Range and size are those of the fresh arena. -/
  fixed : fresh.Fixed a
  /-- It gets no more pages. -/
  not_grown : ∀ pages, 0 < pages → a.apply (.grow pages) = (.notGrown, a)
  /-- Inputs that do not fit are refused, and nothing changes. -/
  refuses : ∀ payload label, Unfit payload label → a.apply (.stage payload label)
    = (.refused (.argumentsLen payload.length (Utf8.encode label).length), a)
  /-- All others are staged. -/
  stages : ∀ payload label, ¬ Unfit payload label → ∃ input b,
    a.apply (.stage payload label) = (.staged input, b) ∧ a.Stages payload label input b
  /-- A range that is not inside is not written, and nothing changes. -/
  bounded : ∀ address data, fresh.memory.size < address + data.length →
    a.apply (.write address data) = (.outOfBounds, a)
  /-- The range that belongs to the code holds what was written last, and zeros. -/
  byte_eq : ∀ address, a.base ≤ address → address < a.limit → a.memory.byte address
    = (Step.lastByte? fresh.memory.size address steps).getD 0

/-- What is staged is found at the addresses that staging answers. -/
theorem stages_of_checked {payload : Bytes} {label : String}
    (hinput : checkInput payload label = .ok ()) (hwindow : inputWindow ≤ a.memory.size) :
    a.Stages payload label (.ofPayload payload)
      { a with memory := a.memory.staged payload label } := by
  have hend := end_of_payload hinput
  have hpayload : payload.length < UInt32.size := by
    simp only [payloadOffset, inputWindow, UInt32.size] at hend ⊢
    omega
  have hlength : (StagedInput.ofPayload payload).payloadLen.toUInt32.toNat = payload.length :=
    UInt32.toNat_ofNat_of_lt' hpayload
  refine ⟨fun _ => Wasm.Memory.byte_staged_of_outside, ?_, ?_⟩
  · exact Wasm.Memory.text?_staged hinput hwindow
  · rw [hlength]
    exact Wasm.Memory.read_staged_payload hinput hwindow

/-- After every sequence of steps a fresh arena is contained. -/
theorem Fresh.contained {size : Nat} {fresh : ExecutionArena} (h : fresh.Fresh size)
    (steps : List Step) : fresh.Contained steps (fresh.run steps) := by
  obtain ⟨hfixed, hbyte⟩ := run_fixed h.maxPages_eq steps
  have hsize := hfixed.size_eq
  have hwindow : inputWindow ≤ (fresh.run steps).memory.size := by
    have hlimit := h.limit_le
    rw [h.limit_eq] at hlimit
    omega
  generalize fresh.run steps = a at hfixed hbyte hsize hwindow
  have heffect := apply_effect hfixed.maxPages_eq
  refine ⟨hfixed, fun pages hpages => ?_, fun payload label hlarge => ?_,
    fun payload label hfits => ?_, fun address data hlarge => ?_, fun address hlow hhigh => ?_⟩
  -- Of the effects that a step could have, all but one are ruled out.
  · have hstep := heffect (.grow pages)
    generalize a.apply (.grow pages) = x at hstep ⊢
    cases hstep with
    | unasked => exact absurd hpages (Nat.lt_irrefl 0)
    | notGrown => rfl
  · have hstep := heffect (.stage payload label)
    generalize a.apply (.stage payload label) = x at hstep ⊢
    cases hstep with
    | staged hfits => exact absurd hlarge hfits
    | refused => rfl
  · have hstep := heffect (.stage payload label)
    generalize a.apply (.stage payload label) = x at hstep ⊢
    cases hstep with
    | staged =>
      exact ⟨_, _, rfl, stages_of_checked (checkInput_eq_ok_iff_not_unfit.2 hfits) hwindow⟩
    | refused hlarge => exact absurd hlarge hfits
  · have hstep := heffect (.write address data)
    generalize a.apply (.write address data) = x at hstep ⊢
    cases hstep with
    | written hfits => omega
    | unwritten => rfl
  · have hbeyond : inputWindow ≤ address := by
      rw [hfixed.base_eq, h.base_eq] at hlow
      exact hlow
    rw [hbyte address hbeyond, h.byte_eq]

/-- For every size whose end is a 32-bit address, an arena can be reserved, and it is contained
after every sequence of steps. -/
theorem reserve_contained {size : Nat} (hsize : inputWindow + size ≤ UInt32.size - 1) :
    ∃ fresh, reserve size = .ok fresh ∧ fresh.Fresh size ∧ fresh.limit ≤ fresh.memory.size ∧
      ∀ steps, fresh.Contained steps (fresh.run steps) := by
  obtain ⟨fresh, hreserve⟩ := exists_reserve hsize
  have hfresh := fresh_of_reserve hreserve
  exact ⟨fresh, hreserve, hfresh, hfresh.limit_le, hfresh.contained⟩

/-- Steps that write a byte, stage inputs, and write over the end of a memory of two pages. -/
def sampleSteps : List Step :=
  [.write 65540 [7], .stage [1, 2, 3] "a long label", .write 131070 [1, 2, 3]]

/-- After these steps an arena of 16 bytes holds the one byte, gets no page, and a shorter label
that is staged over the long one is read back as it is. -/
theorem reserve_sixteen_contained :
    inputWindow + 16 ≤ UInt32.size - 1 ∧ ∃ fresh, reserve 16 = .ok fresh ∧
      (fresh.run sampleSteps).memory.byte 65540 = 7 ∧
      (fresh.run sampleSteps).memory.byte 65541 = 0 ∧
      (fresh.run sampleSteps).apply (.grow 1) = (.notGrown, fresh.run sampleSteps) ∧
      ∃ input b, (fresh.run sampleSteps).apply (.stage [9] "b") = (.staged input, b) ∧
        b.memory.text? input.labelPtr.toUInt32.toNat = some (Utf8.encode "b") ∧
        b.memory.read input.payloadPtr.toUInt32.toNat input.payloadLen.toUInt32.toNat
          = some [9] := by
  have hsize : inputWindow + 16 ≤ UInt32.size - 1 := by decide
  obtain ⟨fresh, hreserve, hfresh, -, hcontained⟩ := reserve_contained hsize
  have h := hcontained sampleSteps
  have hbase : (fresh.run sampleSteps).base = 65536 := h.fixed.base_eq.trans hfresh.base_eq
  have hlimit : (fresh.run sampleSteps).limit = 65552 := h.fixed.limit_eq.trans hfresh.limit_eq
  have hmemory : fresh.memory.size = 131072 := by
    rw [Wasm.Memory.size, hfresh.pages_eq]
    rfl
  have hwritten : Step.lastByte? 131072 65540 sampleSteps = some 7 := by decide
  have hunwritten : Step.lastByte? 131072 65541 sampleSteps = none := by decide
  have hfits : ¬ Unfit [9] "b" := by
    rw [Unfit, not_or, not_or]
    decide +kernel
  obtain ⟨input, b, happly, hstages⟩ := h.stages [9] "b" hfits
  refine ⟨hsize, fresh, hreserve, ?_, ?_, h.not_grown 1 Nat.one_pos, input, b, happly,
    hstages.label_eq, hstages.payload_eq⟩
  · rw [h.byte_eq 65540 (by omega) (by omega), hmemory, hwritten]
    rfl
  · rw [h.byte_eq 65541 (by omega) (by omega), hmemory, hunwritten]
    rfl

end HashLoader.ExecutionArena
