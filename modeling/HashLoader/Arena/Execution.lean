import HashLoader.Error
import HashLoader.Image.Page
import HashLoader.Text.Utf8
import HashLoader.Wasm.Memory

/-!
# Execution arenas

An execution arena is the memory that loaded code runs in. It cannot grow. Its first 64 KiB are the
input window, which the loader fills before code runs; the rest belongs to the code:

* from `0x100`: the label and a NUL;
* from `0x200`: the payload;
* from `0x10000` up to the limit: the arena itself, all zero.
-/

namespace HashLoader

/-- The length of the input window, which is also where the arena starts. -/
def inputWindow : Nat := 65536

/-- Where the label is put. -/
def labelOffset : Nat := 0x100

/-- The longest label in bytes. -/
def maxLabel : Nat := 255

/-- Where the payload is put. -/
def payloadOffset : Nat := 0x200

/-- The longest payload in bytes. -/
def maxPayload : Nat := inputWindow - payloadOffset

/-- Checks that payload and label fit the input window, and that the label has no NUL. This needs no
memory, so it comes before any code is looked for. -/
def checkInput (payload : Bytes) (label : String) : Except LoaderError Unit :=
  let text := Utf8.encode label
  if payload.length ≤ maxPayload ∧ text.length ≤ maxLabel ∧ (0 : UInt8) ∉ text then .ok ()
  else .error (.argumentsLen payload.length text.length)

/-- Where the inputs are, as code sees it. -/
structure StagedInput where
  payloadPtr : Int32
  payloadLen : Int32
  labelPtr : Int32
deriving DecidableEq, Repr

/-- Puts label and payload into the input window; inputs that do not fit are not put. -/
def stageInput (m : Wasm.Memory) (payload : Bytes) (label : String) :
    Except LoaderError (Wasm.Memory × StagedInput) := do
  checkInput payload label
  let m := m.put labelOffset (Utf8.encode label ++ [0])
  let m := m.put payloadOffset payload
  return (m, ⟨Int32.ofNat payloadOffset, Int32.ofNat payload.length, Int32.ofNat labelOffset⟩)

/-- A memory for one invocation and the range of it that belongs to the code. -/
structure ExecutionArena where
  memory : Wasm.Memory
  base : Nat
  limit : Nat
deriving DecidableEq, Repr

namespace ExecutionArena

/-- Reserves a memory of zeros for the input window and `size` more bytes. -/
def reserve (size : Nat) : Except LoaderError ExecutionArena :=
  let limit := inputWindow + size
  let pages := unitsFor limit Wasm.memoryPage
  if pages ≤ Wasm.maxMemoryPages then
    .ok { memory := .ofLimits ⟨pages, some pages⟩, base := inputWindow, limit }
  else .error (.cannotLoad "the execution arena exceeds the address space")

/-- The range that belongs to the code, in the words that code is given. -/
def bounds (a : ExecutionArena) : Int32 × Int32 := (Int32.ofNat a.base, Int32.ofNat a.limit)

/-- The length of the range that belongs to the code. -/
def len (a : ExecutionArena) : Nat := a.limit - a.base

/-- Something done to the memory of an arena. -/
inductive Step
  | stage (payload : Bytes) (label : String)
  | grow (pages : Nat)
  | read (address len : Nat)
  | write (address : Nat) (data : Bytes)
deriving DecidableEq, Repr

/-- What a step answers. -/
inductive Answer
  | staged (input : StagedInput)
  | refused (error : LoaderError)
  /-- The number of pages before growing. -/
  | grown (pages : Nat)
  | notGrown
  | data (b : Bytes)
  | written
  | outOfBounds
deriving DecidableEq

/-- Takes a step. -/
def apply (a : ExecutionArena) : Step → Answer × ExecutionArena
  | .stage payload label =>
    match stageInput a.memory payload label with
    | .ok (memory, input) => (.staged input, { a with memory })
    | .error e => (.refused e, a)
  | .grow pages =>
    match a.memory.grow pages with
    | some memory => (.grown a.memory.pages, { a with memory })
    | none => (.notGrown, a)
  | .read address len =>
    match a.memory.read address len with
    | some b => (.data b, a)
    | none => (.outOfBounds, a)
  | .write address data =>
    match a.memory.write address data with
    | some memory => (.written, { a with memory })
    | none => (.outOfBounds, a)

end ExecutionArena

end HashLoader
