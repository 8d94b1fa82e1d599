import HashLoader.Config.Basic
import HashLoader.Proofs.Arena.Code
import HashLoader.Proofs.Arena.Execution

/-!
# Sizes in machine words

Sizes are words of 64 bits, a memory is made for a number of pages in 32 bits, and code is given
bounds, pointers and lengths as signed words of 32 bits. The definitions here count in such words,
where a sum wraps around and a cast cuts off.

None of that happens under a configuration that is accepted: its arena ends at an address of 32
bits, and all else follows from that. Rounding up to pages gives the exact number of them in words
(`toNat_unitsForWord`), which is small enough for the cast (`Fresh.exact`). Code is given words that
are the exact addresses when they are read without a sign, and inputs that pass their check are
written within the input window (`stagesExactly_of_checked`). `Config.exact_of_validate` puts these
together.
-/

namespace HashLoader

/-! ## Rounding up in words -/

/-- How many units of a size hold `n`, in words. -/
def unitsForWord (n unit : UInt64) : UInt64 := n / unit + if n % unit = 0 then 0 else 1

/-- Counting in words is exact, because a last unit that is not filled leaves room for the one that
is added. -/
theorem toNat_unitsForWord (n : UInt64) {unit : UInt64} (hunit : 1 < unit.toNat) :
    (unitsForWord n unit).toNat = unitsFor n.toNat unit.toNat := by
  have hn := n.toNat_lt
  have hhalf : n.toNat / unit.toNat ≤ n.toNat / 2 := Nat.div_le_div_left hunit Nat.two_pos
  have hzero : n % unit = 0 ↔ n.toNat % unit.toNat = 0 := by
    rw [← UInt64.toNat_inj, UInt64.toNat_mod, UInt64.toNat_zero]
  rw [unitsForWord, unitsFor, UInt64.toNat_add, UInt64.toNat_div]
  by_cases hrest : n % unit = 0
  · rw [if_pos hrest, if_pos (hzero.1 hrest), UInt64.toNat_zero]
    exact Nat.mod_eq_of_lt (by omega)
  · rw [if_neg hrest, if_neg (mt hzero.2 hrest), UInt64.toNat_one]
    exact Nat.mod_eq_of_lt (by omega)

/-! ## Code arenas -/

namespace CodeArena

/-- The capacity of an arena made for `capacity` bytes, in words. -/
def capacityWord (capacity : UInt64) : UInt64 :=
  unitsForWord capacity (UInt64.ofNat pageSize) * UInt64.ofNat pageSize

/-- Whole pages are the capacity. -/
theorem capacity_of_dvd {capacity : Nat} (hpages : pageSize ∣ capacity) :
    (ofCapacity capacity).capacity = capacity := by
  rw [capacity_ofCapacity, alignUp_of_dvd hpages]

/-- In words, too: the product is what was asked for, and so it does not wrap. -/
theorem capacityWord_of_dvd {capacity : UInt64} (hpages : pageSize ∣ capacity.toNat) :
    capacityWord capacity = capacity := by
  have hpage : (UInt64.ofNat pageSize).toNat = pageSize := by decide
  have hproduct : unitsFor capacity.toNat pageSize * pageSize = capacity.toNat :=
    alignUp_of_dvd hpages
  rw [← UInt64.toNat_inj, capacityWord, UInt64.toNat_mul, toNat_unitsForWord _ (by decide), hpage,
    hproduct]
  exact Nat.mod_eq_of_lt capacity.toNat_lt

end CodeArena

/-! ## Execution arenas -/

namespace ExecutionArena

/-- Where an arena of `size` bytes ends, in words. -/
def limitWord (size : UInt64) : UInt64 := UInt64.ofNat inputWindow + size

/-- The number of pages that a memory is made for, cut to 32 bits. -/
def pagesWord (size : UInt64) : UInt32 :=
  (unitsForWord (limitWord size) (UInt64.ofNat Wasm.memoryPage)).toUInt32

/-- The sum does not wrap. -/
theorem toNat_limitWord {size : Nat} (hsize : inputWindow + size ≤ UInt32.size - 1) :
    (limitWord (UInt64.ofNat size)).toNat = inputWindow + size := by
  simp only [inputWindow, UInt32.size] at hsize
  have hword : (UInt64.ofNat size).toNat = size := UInt64.toNat_ofNat_of_lt' (by
    simp only [UInt64.size]
    omega)
  have hwindow : (UInt64.ofNat inputWindow).toNat = 65536 := by decide
  rw [limitWord, UInt64.toNat_add, hword, hwindow, inputWindow]
  exact Nat.mod_eq_of_lt (by omega)

/-- The cast cuts nothing off. -/
theorem toNat_pagesWord {size : Nat} (hsize : inputWindow + size ≤ UInt32.size - 1) :
    (pagesWord (UInt64.ofNat size)).toNat = unitsFor (inputWindow + size) Wasm.memoryPage := by
  have hpage : (UInt64.ofNat Wasm.memoryPage).toNat = Wasm.memoryPage := by decide
  have hfits : unitsFor (inputWindow + size) Wasm.memoryPage < 2 ^ 32 :=
    Nat.lt_of_le_of_lt (pages_le hsize) (by decide)
  rw [pagesWord, UInt64.toNat_toUInt32, toNat_unitsForWord _ (by decide), toNat_limitWord hsize,
    hpage]
  exact Nat.mod_eq_of_lt hfits

/-- All arithmetic of an arena that was made for `size` bytes is exact. -/
structure Exact (size : Nat) (a : ExecutionArena) : Prop where
  /-- Adding the input window does not wrap. -/
  limit_eq : (limitWord (UInt64.ofNat size)).toNat = a.limit
  /-- The number of pages is not cut off. -/
  pages_eq : (pagesWord (UInt64.ofNat size)).toNat = a.memory.pages
  two_le_pages : 2 ≤ a.memory.pages
  pages_le : a.memory.pages ≤ Wasm.maxMemoryPages
  /-- The memory holds the arena, and no page is spare. -/
  limit_le : a.limit ≤ a.memory.pages * Wasm.memoryPage
  lt_limit_add : a.memory.pages * Wasm.memoryPage < a.limit + Wasm.memoryPage
  /-- The arena can be read, and it is zero. -/
  read_eq : a.memory.read a.base a.len = some (List.replicate a.len 0)
  /-- Code is given the exact addresses. -/
  base_word : a.bounds.1.toUInt32.toNat = a.base
  limit_word : a.bounds.2.toUInt32.toNat = a.limit
  base_eq : a.base = inputWindow
  limit_eq_add : a.limit = inputWindow + size
  base_lt : a.base < a.limit
  len_eq : a.len = size

/-- Every fresh arena is exact that ends at an address of 32 bits and is not empty. -/
theorem Fresh.exact {size : Nat} {a : ExecutionArena} (h : a.Fresh size) (hpos : 0 < size)
    (hsize : inputWindow + size ≤ UInt32.size - 1) : a.Exact size := by
  obtain ⟨hbase, hlimit, hpages, -, hzero⟩ := h
  have hlow := le_unitsFor_mul (inputWindow + size) Wasm.memoryPage_pos
  have hhigh := unitsFor_mul_lt (inputWindow + size) Wasm.memoryPage_pos
  rw [← hpages, ← hlimit] at hlow hhigh
  have hlen : a.len = size := by rw [len, hbase, hlimit, Nat.add_sub_cancel_left]
  have haddress : a.limit < UInt32.size := by
    rw [hlimit]
    exact Nat.lt_of_le_pred (by decide) hsize
  have hlt : a.base < a.limit := by omega
  have hread : a.memory.read a.base a.len = some (List.replicate a.len 0) := by
    have hfits : a.base + a.len ≤ a.memory.size := by
      rw [hlen, hbase, ← hlimit]
      exact hlow
    have hbytes : a.memory.read a.base (List.replicate a.len (0 : UInt8)).length
        = some (List.replicate a.len 0) :=
      Wasm.Memory.read_eq_of_bytes (by rwa [List.length_replicate]) fun i _ => by
        rw [hzero, List.getElem_replicate]
    rwa [List.length_replicate] at hbytes
  refine ⟨?_, ?_, ?_, ?_, hlow, hhigh, hread, ?_, ?_, hbase, hlimit, hlt, hlen⟩
  · rw [toNat_limitWord hsize, hlimit]
  · rw [toNat_pagesWord hsize, hpages]
  -- The input window fills one page, and the arena has a byte of the next one.
  · simp only [hlimit, inputWindow, Wasm.memoryPage] at hlow
    omega
  · rw [hpages]
    exact pages_le hsize
  · exact UInt32.toNat_ofNat_of_lt' (Nat.lt_trans hlt haddress)
  · exact UInt32.toNat_ofNat_of_lt' haddress

end ExecutionArena

/-! ## Staging -/

namespace Wasm.Memory

/-- What is put before something and what follows it are put apart. -/
theorem put_append (m : Memory) (address : Nat) (front rest : Bytes) :
    m.put address (front ++ rest) = (m.put address front).put (address + front.length) rest := by
  induction front generalizing m address with
  | nil => rfl
  | cons b front ih =>
    have hnext : address + (b :: front).length = address + 1 + front.length := by
      rw [List.length_cons]
      omega
    rw [List.cons_append, put, put, ih, hnext]

/-- Slices that all lie inside the memory are written, one after the other. -/
theorem foldlM_write {m : Memory} {slices : List (Nat × Bytes)}
    (h : ∀ slice ∈ slices, slice.1 + slice.2.length ≤ m.size) :
    slices.foldlM (fun m slice => m.write slice.1 slice.2) m
      = some (slices.foldl (fun m slice => m.put slice.1 slice.2) m) := by
  induction slices generalizing m with
  | nil => rfl
  | cons slice rest ih =>
    obtain ⟨hfits, hrest⟩ := List.forall_mem_cons.1 h
    have hwrite : m.write slice.1 slice.2 = some (m.put slice.1 slice.2) :=
      if_pos (decide_eq_true hfits)
    rw [List.foldlM_cons, hwrite, Option.bind_eq_bind, Option.bind_some, List.foldl_cons]
    exact ih (by simpa only [size_put] using hrest)

end Wasm.Memory

/-- The slices that staging writes: the label, its NUL and the payload. -/
def stagedSlices (payload : Bytes) (label : String) : List (Nat × Bytes) :=
  [(labelOffset, Utf8.encode label), (labelOffset + (Utf8.encode label).length, [0]),
    (payloadOffset, payload)]

/-- These are all that is put. -/
theorem Wasm.Memory.foldl_stagedSlices (m : Memory) (payload : Bytes) (label : String) :
    (stagedSlices payload label).foldl (fun m slice => m.put slice.1 slice.2) m
      = m.staged payload label := by
  rw [staged, put_append]
  rfl

/-- Staging of inputs is exact. -/
structure StagesExactly (payload : Bytes) (label : String) : Prop where
  /-- Every slice lies in the input window. -/
  slice_le : ∀ slice ∈ stagedSlices payload label, slice.1 + slice.2.length ≤ inputWindow
  /-- The NUL is before the payload. -/
  label_lt : labelOffset + (Utf8.encode label).length < payloadOffset
  /-- In a memory with an input window no slice is out of bounds, and staging writes the slices. -/
  write_eq : ∀ m : Wasm.Memory, inputWindow ≤ m.size → ∃ m' input,
    (stagedSlices payload label).foldlM (fun m slice => m.write slice.1 slice.2) m = some m' ∧
    stageInput m payload label = .ok (m', input) ∧
    input.payloadPtr.toInt = payloadOffset ∧ input.payloadLen.toInt = payload.length ∧
    input.labelPtr.toInt = labelOffset

variable {payload : Bytes} {label : String}

/-- Inputs that pass their check are staged exactly. -/
theorem stagesExactly_of_checked (h : checkInput payload label = .ok ()) :
    StagesExactly payload label := by
  have hlabel := end_of_label h
  have hpayload := end_of_payload h
  have hwindow : payloadOffset ≤ inputWindow := by decide
  have hslices : ∀ slice ∈ stagedSlices payload label,
      slice.1 + slice.2.length ≤ inputWindow := by
    simp only [stagedSlices, List.forall_mem_cons, List.length_singleton]
    exact ⟨by omega, by omega, hpayload, nofun⟩
  refine ⟨hslices, hlabel, fun m hm => ?_⟩
  have hlen : payload.length < 2 ^ 31 := by
    simp only [inputWindow] at hpayload
    omega
  have hwrite := Wasm.Memory.foldlM_write fun slice hmem =>
    Nat.le_trans (hslices slice hmem) hm
  rw [Wasm.Memory.foldl_stagedSlices] at hwrite
  exact ⟨_, _, hwrite, stageInput_eq_ok_iff.2 ⟨h, rfl, rfl⟩, rfl, Int32.toInt_ofNat_of_lt hlen, rfl⟩

/-! ## Configurations -/

/-- Under every configuration that is accepted all arithmetic of the arenas is exact, and so is the
staging of all inputs that pass their check. -/
theorem Config.exact_of_validate {config : Config} (h : config.validate = .ok ()) :
    inputWindow + config.arenaSize ≤ UInt32.size - 1 ∧
      (∃ arena, ExecutionArena.reserve config.arenaSize = .ok arena ∧
        arena.Exact config.arenaSize) ∧
      (CodeArena.ofCapacity config.maxCodeSize).capacity = config.maxCodeSize ∧
      (∀ word : UInt64, word.toNat = config.maxCodeSize → CodeArena.capacityWord word = word) ∧
      ∀ payload label, checkInput payload label = .ok () → StagesExactly payload label := by
  obtain ⟨⟨-, hpages⟩, ⟨hpos, -⟩, -⟩ := validate_eq_ok_iff.1 h
  have hsize := limit_le_of_validate h
  obtain ⟨arena, hreserve⟩ := ExecutionArena.exists_reserve hsize
  have hexact := (ExecutionArena.fresh_of_reserve hreserve).exact hpos hsize
  refine ⟨hsize, ⟨arena, hreserve, hexact⟩, CodeArena.capacity_of_dvd hpages, ?_,
    fun _ _ => stagesExactly_of_checked⟩
  rintro word hword
  exact CodeArena.capacityWord_of_dvd (by rwa [hword])

/-- The configuration with the largest execution arena. -/
def Config.widest : Config := { arenaSize := maxArenaSize }

/-- The largest arena has all pages and ends at the last address, and the longest payload is staged
exactly. -/
theorem Config.exact_widest :
    widest.validate = .ok () ∧
      (∃ arena, ExecutionArena.reserve 4294901759 = .ok arena ∧
        (ExecutionArena.pagesWord 4294901759).toNat = arena.memory.pages ∧
        arena.memory.pages = 65536 ∧ arena.bounds.2.toUInt32.toNat = 4294967295) ∧
      (CodeArena.ofCapacity 1048576).capacity = 1048576 ∧
      StagesExactly (List.replicate 65024 0) "label" := by
  have hvalid : widest.validate = .ok () := validate_eq_ok_iff.2 (by decide)
  obtain ⟨-, ⟨arena, hreserve, hexact⟩, hcapacity, -, hstages⟩ := exact_of_validate hvalid
  have hlimit : arena.limit = 4294967295 := hexact.limit_eq_add
  have hlow := hexact.limit_le
  have hhigh := hexact.pages_le
  simp only [Wasm.memoryPage] at hlow
  simp only [Wasm.maxMemoryPages] at hhigh
  refine ⟨hvalid, ⟨arena, hreserve, hexact.pages_eq, by omega, ?_⟩, hcapacity, hstages _ _ ?_⟩
  · rw [hexact.limit_word, hlimit]
  · refine checkInput_eq_ok_iff.2 ⟨?_, by decide +kernel⟩
    rw [List.length_replicate]
    decide

end HashLoader
