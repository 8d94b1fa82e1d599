import HashLoader.Bytes
import HashLoader.Wasm.Value

/-!
# Memories

A memory is a number of pages of 64 KiB, all zero at first. It is held as the pages up to the
highest one that was ever written, each of them as the bytes up to its highest one; all others are
zero. The one view of a memory is `byte`, and what reading and writing do is said through it.
-/

namespace HashLoader.Wasm

/-- The most pages that 32-bit addresses reach. -/
def maxMemoryPages : Nat := 65536

/-- A linear memory. -/
structure Memory where
  pages : Nat
  /-- How many pages it may grow to. -/
  maxPages : Nat
  /-- The pages up to the highest one written so far, each up to its highest byte. -/
  touched : Array (Array UInt8)
deriving DecidableEq, Repr

namespace Memory

/-- A memory of zeros. -/
def ofLimits (l : Limits) : Memory := ⟨l.min, l.max.getD maxMemoryPages, #[]⟩

/-- The length in bytes. -/
def size (m : Memory) : Nat := m.pages * memoryPage

/-- The byte at an address. -/
def byte (m : Memory) (address : Nat) : UInt8 :=
  (m.touched.getD (address / memoryPage) #[]).getD (address % memoryPage) 0

/-- The bytes of a range, wherever it lies. -/
def peek (m : Memory) (address len : Nat) : Bytes := (List.range' address len).map m.byte

/-- Tells whether a range lies inside the memory. -/
def contains (m : Memory) (address len : Nat) : Bool := address + len ≤ m.size

/-- The bytes of a range inside the memory. -/
def read (m : Memory) (address len : Nat) : Option Bytes :=
  if m.contains address len then some (m.peek address len) else none

/-- Changes the cell with an index. The array stands for one without end: cells past its last one
are `zero`. -/
def update {α : Type} (cells : Array α) (zero : α) (i : Nat) (f : α → α) : Array α :=
  if i < cells.size then cells.modify i f else (cells.rightpad i zero).push (f zero)

/-- Puts a byte at an address, wherever it lies. -/
def putByte (m : Memory) (address : Nat) (b : UInt8) : Memory :=
  match m with
  | ⟨pages, maxPages, touched⟩ =>
    ⟨pages, maxPages, update touched #[] (address / memoryPage) fun page =>
      update page 0 (address % memoryPage) fun _ => b⟩

/-- Puts bytes at an address, wherever it lies. -/
def put (m : Memory) (address : Nat) : (data : Bytes) → Memory
  | [] => m
  | b :: rest => (m.putByte address b).put (address + 1) rest

/-- Writes a range inside the memory. -/
def write (m : Memory) (address : Nat) (data : Bytes) : Option Memory :=
  if m.contains address data.length then some (m.put address data) else none

/-- Adds pages, as many as the memory may grow by. -/
def grow (m : Memory) (extra : Nat) : Option Memory :=
  if m.pages + extra ≤ m.maxPages then some { m with pages := m.pages + extra } else none

/-! ## What the operations do to the bytes -/

theorem getD_update {α : Type} (cells : Array α) (zero : α) (i : Nat) (f : α → α) (j : Nat) :
    (update cells zero i f).getD j zero = if i = j then f (cells.getD i zero) else cells.getD j zero
    := by
  unfold update
  simp only [Array.getD_eq_getD_getElem?]
  split
  · next h =>
    rw [Array.getElem?_modify]
    split
    · next hij => subst hij; simp [h]
    · rfl
  -- Past the last cell: those in between are zero, and the cell that was asked for is the last one.
  · next h =>
    have hlen : (cells.rightpad i zero).size = i := by simp [Array.rightpad]; omega
    rw [Array.getElem?_push, hlen, Array.rightpad, Array.getElem?_append,
      Array.getElem?_eq_none (Nat.le_of_not_lt h), Array.getElem?_replicate]
    by_cases hij : i = j
    · simp [hij]
    · rw [if_neg hij, if_neg (Ne.symm hij)]
      split
      · rfl
      · next hj =>
        rw [Array.getElem?_eq_none (Nat.le_of_not_lt hj)]
        split <;> rfl

theorem byte_putByte (m : Memory) (address : Nat) (b : UInt8) (j : Nat) :
    (m.putByte address b).byte j = if address = j then b else m.byte j := by
  simp only [putByte, byte, getD_update]
  -- Addresses are equal if their pages and their places in the page are.
  by_cases hpage : address / memoryPage = j / memoryPage
  · rw [if_pos hpage, getD_update, hpage]
    by_cases hcell : address % memoryPage = j % memoryPage
    · have : address = j := by
        rw [← Nat.div_add_mod address memoryPage, ← Nat.div_add_mod j memoryPage, hpage, hcell]
      rw [if_pos hcell, if_pos this]
    · rw [if_neg hcell, if_neg (by rintro rfl; exact hcell rfl)]
  · rw [if_neg hpage, if_neg (by rintro rfl; exact hpage rfl)]

/-- Putting bytes changes those of its range and no others. -/
theorem byte_put (m : Memory) (address : Nat) (data : Bytes) (j : Nat) :
    (m.put address data).byte j =
      if address ≤ j ∧ j < address + data.length then data.getD (j - address) 0 else m.byte j := by
  induction data generalizing m address with
  | nil =>
    rw [put, if_neg]
    simp only [List.length_nil]
    omega
  | cons b rest ih =>
    rw [put, ih, byte_putByte]
    simp only [List.length_cons]
    by_cases hij : address = j
    · subst hij
      rw [if_neg (by omega), if_pos rfl, if_pos (by omega), Nat.sub_self, List.getD_cons_zero]
    · by_cases hin : address + 1 ≤ j ∧ j < address + 1 + rest.length
      · have hsub : j - address = j - (address + 1) + 1 := by omega
        rw [if_pos hin, if_pos (by omega), hsub, List.getD_cons_succ]
      · rw [if_neg hin, if_neg hij, if_neg (by omega)]

/-- A byte after putting bytes: the one of them that was put there, or the one from before. -/
theorem byte_put_eq_getD (m : Memory) (address : Nat) (data : Bytes) (j : Nat) :
    (m.put address data).byte j
      = (if address ≤ j then data[j - address]? else none).getD (m.byte j) := by
  rw [byte_put]
  by_cases hstart : address ≤ j
  · rw [if_pos hstart]
    by_cases hend : j < address + data.length
    · have hin : j - address < data.length := by omega
      rw [if_pos ⟨hstart, hend⟩, List.getD_eq_getElem?_getD, List.getElem?_eq_getElem hin]
      rfl
    · rw [if_neg fun h => hend h.2, List.getElem?_eq_none (by omega)]
      rfl
  · rw [if_neg hstart, if_neg fun h => hstart h.1]
    rfl

@[simp]
theorem pages_put (m : Memory) (address : Nat) (data : Bytes) :
    (m.put address data).pages = m.pages := by
  induction data generalizing m address with
  | nil => rfl
  | cons b rest ih => exact ih (m.putByte address b) (address + 1)

@[simp]
theorem maxPages_put (m : Memory) (address : Nat) (data : Bytes) :
    (m.put address data).maxPages = m.maxPages := by
  induction data generalizing m address with
  | nil => rfl
  | cons b rest ih => exact ih (m.putByte address b) (address + 1)

@[simp]
theorem size_put (m : Memory) (address : Nat) (data : Bytes) :
    (m.put address data).size = m.size := by
  simp [size]

@[simp]
theorem length_peek (m : Memory) (address len : Nat) : (m.peek address len).length = len := by
  simp [peek]

end Memory

end HashLoader.Wasm
