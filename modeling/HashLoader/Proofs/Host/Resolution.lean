import HashLoader.Proofs.Image.Search

/-!
# Resolving on a local host

A local host answers the same question always in the same way (`asked_host`), so a resolution on it
can be said in terms of its cells. `LocalHost.FirstAt` names the first cell with a hash in a field:
the search ends there and finds it (`locate_of_first`), or it ends behind the last cell and finds
nothing if no cell has the hash (`locate_of_missing`). What is loaded are the data of that cell, if
they fit the arena (`load_of_fits`), and they pass every test that does not depend on the data
themselves: `resolve_of_first` gives an image with just these bytes, and `bytes_of_resolve` says
that no other image can come out.

The search counts in 64-bit numbers, so it needs fewer cells than there are of these; no list in a
memory with such addresses is longer.
-/

namespace HashLoader.LocalHost

variable {C : Compiler} {h : LocalHost} {field : HashField} {hash : Hash} {r : CodeReference}
  {index capacity : Nat} {c : Cell}

/-! ## The first cell with a hash -/

/-- The first cell that has a hash in a field is the one at an index. -/
structure FirstAt (h : LocalHost) (field : HashField) (hash : Hash) (index : Nat) (c : Cell) :
    Prop where
  /-- The cell is at the index. -/
  cell : h.cells[index]? = some c
  /-- It has the hash. -/
  hash_eq : c.hash? field = some hash
  /-- No cell before it has. -/
  before : ∀ j c', j < index → h.cells[j]? = some c' → c'.hash? field ≠ some hash

/-- The first cell is among the cells. -/
theorem FirstAt.lt_length (hfirst : h.FirstAt field hash index c) : index < h.cells.length :=
  (List.getElem?_eq_some_iff.1 hfirst.cell).1

/-- The first cell is what going through the cells in order comes to. -/
theorem find?_eq_some_iff_firstAt :
    h.cells.find? (fun c => c.hash? field == some hash) = some c ↔
      ∃ index, h.FirstAt field hash index c := by
  rw [List.find?_eq_some_iff_getElem]
  constructor
  · rintro ⟨hc, index, hindex, rfl, hbefore⟩
    refine ⟨index, List.getElem?_eq_getElem hindex, eq_of_beq hc, fun j c' hj hc' => ?_⟩
    obtain ⟨_, rfl⟩ := List.getElem?_eq_some_iff.1 hc'
    simpa using hbefore j hj
  · rintro ⟨index, hcell, hc, hbefore⟩
    obtain ⟨hindex, heq⟩ := List.getElem?_eq_some_iff.1 hcell
    refine ⟨beq_of_eq hc, index, hindex, heq, fun j hj => ?_⟩
    simpa using hbefore j _ hj (List.getElem?_eq_getElem (Nat.lt_trans hj hindex))

/-- Going through the cells comes to nothing if none of them has the hash. -/
theorem find?_eq_none_iff_missing :
    h.cells.find? (fun c => c.hash? field == some hash) = none ↔
      ∀ c ∈ h.cells, c.hash? field ≠ some hash := by
  simp

/-- If a cell has a hash, some cell is the first that has it. -/
theorem exists_firstAt (hc : c ∈ h.cells) (hhash : c.hash? field = some hash) :
    ∃ index first, h.FirstAt field hash index first := by
  cases hfind : h.cells.find? (fun c => c.hash? field == some hash) with
  | none => exact absurd hhash (find?_eq_none_iff_missing.1 hfind c hc)
  | some first =>
    obtain ⟨index, hfirst⟩ := find?_eq_some_iff_firstAt.1 hfind
    exact ⟨index, first, hfirst⟩

/-! ## The search -/

/-- A local host stays as it is, however often it is asked. -/
theorem asked_host (h : LocalHost) (field : HashField) (n : Nat) :
    LocalHost.host.asked field h n = h := by
  induction n with
  | zero => rfl
  | succ n ih =>
    rw [Host.asked, ih]
    simp only [LocalHost.host]
    split <;> rfl

/-- For the index of a cell it answers with the hash of the cell. -/
theorem answer_of_cell (hc : h.cells[index]? = some c) :
    LocalHost.host.answer field h index = .ok (c.hash? field) := by
  rw [Host.answer, asked_host]
  simp only [LocalHost.host, hc]

/-- Behind the last cell it answers that there is none. -/
theorem answer_of_end (hend : h.cells[index]? = none) :
    LocalHost.host.answer field h index = .error .indexOutOfBound := by
  rw [Host.answer, asked_host]
  simp only [LocalHost.host, hend]

/-- A search passes over a cell that does not have the hash. -/
theorem skips_of_ne (hc : h.cells[index]? = some c) (hne : c.hash? field ≠ some hash) :
    Search.skips hash (LocalHost.host.answer field h index) = true := by
  rw [answer_of_cell hc]
  cases hhash : c.hash? field with
  | none => rfl
  | some other =>
    have hother : other ≠ hash := fun heq => hne (by rw [hhash, heq])
    exact decide_eq_true hother

/-- A search ends at the first cell with the hash. -/
theorem endsAt_of_first (hindex : index < indexCount)
    (hfirst : h.FirstAt r.hashType.field r.codeHash index c) : LocalHost.host.EndsAt r h index where
  counted := hindex
  passed i hi := by
    have hcell := List.getElem?_eq_getElem (Nat.lt_trans hi hfirst.lt_length)
    exact skips_of_ne hcell (hfirst.before i _ hi hcell)
  stops := by
    rw [answer_of_cell hfirst.cell, hfirst.hash_eq]
    exact decide_eq_false (not_not_intro rfl)

/-- A search for a hash that no cell has ends behind the last cell. -/
theorem endsAt_of_missing (hroom : h.cells.length < indexCount)
    (hmissing : ∀ c ∈ h.cells, c.hash? r.hashType.field ≠ some r.codeHash) :
    LocalHost.host.EndsAt r h h.cells.length where
  counted := hroom
  passed i hi := skips_of_ne (List.getElem?_eq_getElem hi) (hmissing _ (List.getElem_mem hi))
  stops := by
    rw [answer_of_end (List.getElem?_eq_none (Nat.le_refl _))]
    rfl

/-- A reference is found at the first cell with its code hash, if the search can count that far. -/
theorem locate_of_counted (hindex : index < indexCount)
    (hfirst : h.FirstAt r.hashType.field r.codeHash index c) :
    locate LocalHost.host r h = (.found index, h) := by
  rw [(endsAt_of_first hindex hfirst).locate_eq, asked_host, answer_of_cell hfirst.cell]
  rfl

/-- A reference is found at the first cell with its code hash. -/
theorem locate_of_first (hroom : h.cells.length < indexCount)
    (hfirst : h.FirstAt r.hashType.field r.codeHash index c) :
    locate LocalHost.host r h = (.found index, h) :=
  locate_of_counted (Nat.lt_trans hfirst.lt_length hroom) hfirst

/-- A reference is not found if no cell has its code hash. -/
theorem locate_of_missing (hroom : h.cells.length < indexCount)
    (hmissing : ∀ c ∈ h.cells, c.hash? r.hashType.field ≠ some r.codeHash) :
    locate LocalHost.host r h = (.absent, h) := by
  rw [(endsAt_of_missing hroom hmissing).locate_eq, asked_host,
    answer_of_end (List.getElem?_eq_none (Nat.le_refl _))]
  rfl

/-- A search that finds something has found the first cell. -/
theorem locate_eq_found_iff (hroom : h.cells.length < indexCount) :
    locate LocalHost.host r h = (.found index, h) ↔
      ∃ c, h.FirstAt r.hashType.field r.codeHash index c := by
  refine ⟨fun hlocate => ?_, fun ⟨c, hfirst⟩ => locate_of_first hroom hfirst⟩
  cases hfind : h.cells.find? (fun c => c.hash? r.hashType.field == some r.codeHash) with
  | none =>
    rw [locate_of_missing hroom (find?_eq_none_iff_missing.1 hfind)] at hlocate
    cases hlocate
  | some c =>
    obtain ⟨first, hfirst⟩ := find?_eq_some_iff_firstAt.1 hfind
    rw [locate_of_first hroom hfirst] at hlocate
    cases hlocate
    exact ⟨c, hfirst⟩

/-- A search that comes to the end has found no cell because there is none. -/
theorem locate_eq_absent_iff (hroom : h.cells.length < indexCount) :
    locate LocalHost.host r h = (.absent, h) ↔
      ∀ c ∈ h.cells, c.hash? r.hashType.field ≠ some r.codeHash := by
  refine ⟨fun hlocate c hc hhash => ?_, locate_of_missing hroom⟩
  obtain ⟨index, first, hfirst⟩ := exists_firstAt hc hhash
  rw [locate_of_first hroom hfirst] at hlocate
  cases hlocate

/-! ## Loading the data -/

/-- A local host copies from the data of the cell at an index. -/
theorem loadData_of_cell (hc : h.cells[index]? = some c) {n : Nat} (buffer : Vector UInt8 n) :
    LocalHost.host.loadData buffer 0 index h
      = (⟨.ok c.data.length, overlay buffer c.data⟩, h) := by
  simp only [LocalHost.host, hc, partialLoad, Nat.zero_le, if_true, Nat.sub_zero, List.drop_zero]

/-- A buffer that is as long as the data is filled with them. -/
theorem toList_overlay_replicate (data : Bytes) :
    (overlay (Vector.replicate data.length 0) data).toList = data := by
  have hfront := take_toList_overlay (Vector.replicate data.length 0) (Nat.le_refl data.length)
  rwa [List.take_of_length_le (Nat.le_of_eq Vector.length_toList)] at hfront

/-- Data that do not fit the arena are refused. -/
theorem load_of_large (hc : h.cells[index]? = some c) (hlarge : alignUp capacity < c.data.length) :
    CodeImage.load C LocalHost.host r capacity index h
      = (.error (.codeTooLarge c.data.length (alignUp capacity)), h) :=
  CodeImage.load_of_measured r (loadData_of_cell hc _) hlarge

/-- Data that fit the arena are what is put into it. -/
theorem load_of_fits (hc : h.cells[index]? = some c) (hfits : c.data.length ≤ alignUp capacity) :
    ∃ arena, (CodeArena.ofCapacity capacity).write 0 c.data = some arena ∧
      CodeImage.load C LocalHost.host r capacity index h
        = (CodeImage.ofArena C r arena c.data.length, h) := by
  have hwrite : ((CodeArena.ofCapacity capacity).write 0 c.data).isSome := by
    rw [CodeArena.write_isSome_iff, CodeArena.capacity_ofCapacity, Nat.zero_add]
    exact hfits
  obtain ⟨arena, harena⟩ := Option.isSome_iff_exists.1 hwrite
  refine ⟨arena, harena, ?_⟩
  rw [CodeImage.load, loadData_of_cell hc]
  dsimp only
  rw [CodeArena.capacity_ofCapacity, if_neg (Nat.not_lt.2 hfits), loadData_of_cell hc]
  dsimp only
  rw [if_neg (not_not_intro rfl), toList_overlay_replicate, harena]

/-- The image that is made of an arena has the bytes that were put there. -/
theorem bytes_of_ofArena {arena : CodeArena} {data : Bytes} {image : CodeImage C}
    (hwrite : (CodeArena.ofCapacity capacity).write 0 data = some arena)
    (himage : CodeImage.ofArena C r arena data.length = .ok image) : image.bytes = data := by
  obtain ⟨b, m, hview, -, -, -, rfl⟩ := CodeImage.ofArena_eq_ok_iff.1 himage
  rw [CodeImage.bytes, CodeArena.view_write hwrite, Option.getD_some]

/-! ## The resolution -/

/-- A reference is resolved by loading the first cell with its code hash. -/
theorem resolve_eq_load (hroom : h.cells.length < indexCount)
    (hfirst : h.FirstAt r.hashType.field r.codeHash index c) :
    resolve C LocalHost.host r capacity h = CodeImage.load C LocalHost.host r capacity index h := by
  rw [resolve, locate_of_first hroom hfirst]

/-- What a reference is resolved to has the bytes of the first cell with its code hash. -/
theorem bytes_of_resolve {h' : LocalHost} {image : CodeImage C}
    (hroom : h.cells.length < indexCount)
    (hfirst : h.FirstAt r.hashType.field r.codeHash index c)
    (himage : resolve C LocalHost.host r capacity h = (.ok image, h')) : image.bytes = c.data := by
  rw [resolve_eq_load hroom hfirst] at himage
  by_cases hfits : c.data.length ≤ alignUp capacity
  · obtain ⟨arena, hwrite, hload⟩ := load_of_fits (C := C) (r := r) hfirst.cell hfits
    rw [hload] at himage
    exact bytes_of_ofArena hwrite (Prod.mk.inj himage).1
  · rw [load_of_large hfirst.cell (Nat.not_le.1 hfits)] at himage
    cases himage

/-- If the first cell with a code hash holds whole pages that are a module and fit the arena, the
reference is resolved to them. The hash needs no test: the host computes it from the same data. -/
theorem resolve_of_first (hroom : h.cells.length < indexCount)
    (hfirst : h.FirstAt r.hashType.field r.codeHash index c)
    (hfits : c.data.length ≤ alignUp capacity) (haligned : isPageAligned c.data.length = true)
    (hmodule : ∃ m, C.compile c.data = .ok m) :
    ∃ image, resolve C LocalHost.host r capacity h = (.ok image, h) ∧ image.bytes = c.data := by
  obtain ⟨m, hm⟩ := hmodule
  obtain ⟨arena, hwrite, hload⟩ := load_of_fits (C := C) (r := r) hfirst.cell hfits
  have hauth : r.hashType.isData = true → r.codeHash.authenticates c.data = true := by
    intro hdata
    have hhash := hfirst.hash_eq
    rw [HashType.field, if_pos hdata] at hhash
    exact beq_of_eq (Option.some.inj hhash)
  have himage : CodeImage.ofArena C r arena c.data.length = .ok ⟨arena, c.data.length, m⟩ :=
    CodeImage.ofArena_eq_ok_iff.2
      ⟨c.data, m, CodeArena.view_write hwrite, hauth, haligned, hm, rfl⟩
  exact ⟨_, by rw [resolve_eq_load hroom hfirst, hload, himage], bytes_of_ofArena hwrite himage⟩

end HashLoader.LocalHost
