import HashLoader.Proofs.Arena.Words

/-!
# A code arena is a flat array of zeros that is written to

`FlatArray` has no pages: it is one byte for each index, and putting bytes at an offset changes
those indices and no others. An arena `Shows` a flat array if its pages, one after another, are the
bytes of the array up to the capacity. The fresh arena shows zeros (`shows_ofCapacity`), and what is
written to a range of it is put into the array (`Shows.write`). So after any writes it shows the
array after the same writes (`Shows.run`), and a view is a range of the array (`Shows.view_eq`),
wherever pages end.

Offsets, lengths and the capacity are machine words. A range whose end is no word is refused like
one that ends behind the capacity (`CodeArena.viewWord_eq`), and rounding the capacity up does not
wrap as long as the rounded capacity is a word (`CodeArena.toNat_capacityWord`).
-/

namespace HashLoader

/-! ## Flat arrays -/

/-- Bytes without pages, one for each index. -/
abbrev FlatArray : Type := Nat → UInt8

namespace FlatArray

/-- The array of zeros. -/
def zeros : FlatArray := fun _ => 0

/-- Puts bytes at an offset. -/
def put (f : FlatArray) (offset : Nat) (data : Bytes) : FlatArray := fun i =>
  if offset ≤ i then data[i - offset]?.getD (f i) else f i

/-- The bytes of a range. -/
def range (f : FlatArray) (offset len : Nat) : Bytes := (List.range' offset len).map f

@[simp]
theorem length_range (f : FlatArray) (offset len : Nat) : (f.range offset len).length = len := by
  rw [range, List.length_map, List.length_range']

/-- A byte of a range is the byte of the array at its index. -/
theorem getElem_range (f : FlatArray) {offset len i : Nat} (h : i < (f.range offset len).length) :
    (f.range offset len)[i] = f (offset + i) := by
  simp only [range, List.getElem_map, List.getElem_range', Nat.one_mul]

/-- A range of a range. -/
theorem take_drop_range (f : FlatArray) {offset len size : Nat} (h : offset + len ≤ size) :
    ((f.range 0 size).drop offset).take len = f.range offset len := by
  have hlen : (((f.range 0 size).drop offset).take len).length = len := by
    rw [List.length_take, List.length_drop, length_range]
    omega
  refine List.ext_getElem (by rw [hlen, length_range]) fun i _ _ => ?_
  rw [List.getElem_take, List.getElem_drop, getElem_range, getElem_range, Nat.zero_add]

/-- Putting bytes replaces a range by them. -/
theorem range_put (f : FlatArray) {offset size : Nat} {data : Bytes} (h : offset + data.length ≤ size) :
    (f.put offset data).range 0 size
      = (f.range 0 size).take offset ++ data ++ (f.range 0 size).drop (offset + data.length) := by
  have hfront : ((f.range 0 size).take offset).length = offset := by
    rw [List.length_take, length_range]
    omega
  refine List.ext_getElem ?_ fun i hi hi' => ?_
  · rw [List.length_append, List.length_append, hfront, List.length_drop, length_range, length_range]
    omega
  have hindex : i < size := by rwa [length_range] at hi
  rw [getElem_range, Nat.zero_add, put]
  -- The index is before the range, in it or behind it.
  by_cases hbefore : i < offset
  · rw [if_neg (by omega), List.getElem_append_left (by rw [List.length_append, hfront]; omega),
      List.getElem_append_left (by rw [hfront]; omega), List.getElem_take, getElem_range, Nat.zero_add]
  · have hge : offset ≤ i := Nat.le_of_not_lt hbefore
    rw [if_pos hge]
    by_cases hin : i < offset + data.length
    · rw [List.getElem_append_left (by rw [List.length_append, hfront]; exact hin),
        List.getElem_append_right (by rw [hfront]; exact hge), List.getElem?_eq_getElem (by omega),
        Option.getD_some]
      simp only [hfront]
    · have hpast : (List.take offset (f.range 0 size) ++ data).length ≤ i := by
        rw [List.length_append, hfront]
        exact Nat.le_of_not_lt hin
      have hback : i = 0 + (offset + data.length
          + (i - (List.take offset (f.range 0 size) ++ data).length)) := by
        rw [List.length_append, hfront] at hpast ⊢
        omega
      rw [List.getElem_append_right hpast, List.getElem_drop, getElem_range,
        List.getElem?_eq_none (by omega), Option.getD_none, ← hback]

/-- Outside its range putting bytes changes nothing. -/
theorem put_of_outside (f : FlatArray) {offset i : Nat} {data : Bytes}
    (h : ¬ (offset ≤ i ∧ i < offset + data.length)) : f.put offset data i = f i := by
  unfold put
  split
  · next hge =>
    rw [List.getElem?_eq_none (by omega)]
    rfl
  · rfl

/-- The range that bytes were put to shows them. -/
theorem range_put_self (f : FlatArray) (offset : Nat) (data : Bytes) :
    (f.put offset data).range offset data.length = data := by
  refine List.ext_getElem (length_range _ _ _) fun i _ hi => ?_
  rw [getElem_range, put, if_pos (Nat.le_add_right _ _), Nat.add_sub_cancel_left,
    List.getElem?_eq_getElem hi, Option.getD_some]

end FlatArray

/-! ## Writes -/

/-- Bytes that are written through the view of a range. -/
structure RangeWrite where
  offset : UInt64
  len : UInt64
  data : Vector UInt8 len.toNat

namespace RangeWrite

/-- The write is to a range inside so many bytes. -/
def Fits (w : RangeWrite) (capacity : Nat) : Prop := w.offset.toNat + w.len.toNat ≤ capacity

instance (w : RangeWrite) (capacity : Nat) : Decidable (w.Fits capacity) :=
  inferInstanceAs (Decidable (_ ≤ _))

/-- The range of the write covers an index. -/
def Covers (w : RangeWrite) (i : Nat) : Prop :=
  w.offset.toNat ≤ i ∧ i < w.offset.toNat + w.len.toNat

end RangeWrite

/-- A flat array of so many bytes after writes. Those that do not fit are refused. -/
def FlatArray.run (capacity : Nat) (f : FlatArray) (writes : List RangeWrite) : FlatArray :=
  writes.foldl (fun f w => if w.Fits capacity then f.put w.offset.toNat w.data.toList else f) f

/-- What no write covers is left as it is. -/
theorem FlatArray.run_of_outside (capacity : Nat) (f : FlatArray) {writes : List RangeWrite} {i : Nat}
    (h : ∀ w ∈ writes, ¬ w.Covers i) : f.run capacity writes i = f i := by
  induction writes generalizing f with
  | nil => rfl
  | cons w rest ih =>
    obtain ⟨hw, hrest⟩ := List.forall_mem_cons.1 h
    have hstep : (if w.Fits capacity then f.put w.offset.toNat w.data.toList else f) i = f i := by
      split
      · refine f.put_of_outside ?_
        rw [Vector.length_toList]
        exact hw
      · rfl
    exact (ih _ hrest).trans hstep

namespace CodeArena

/-- Writes to an arena, unless the write does not fit. -/
def apply (a : CodeArena) (w : RangeWrite) : CodeArena :=
  (a.write w.offset.toNat w.data.toList).getD a

/-- An arena after writes. -/
def run (a : CodeArena) (writes : List RangeWrite) : CodeArena := writes.foldl apply a

/-! ## The array that an arena shows -/

/-- The pages of an arena are the bytes of a flat array. -/
def Shows (a : CodeArena) (f : FlatArray) : Prop := a.flat = f.range 0 a.capacity

variable {a b : CodeArena} {f : FlatArray}

/-- A fresh arena shows zeros. -/
theorem shows_ofCapacity (capacity : Nat) : (ofCapacity capacity).Shows .zeros := by
  have hpages : ∀ n, Page.flatten (List.replicate n Page.zero) = List.replicate (n * pageSize) 0 := by
    intro n
    rw [Page.flatten, List.flatMap_replicate, Page.zero, List.flatten_replicate_replicate]
  have hzeros : FlatArray.zeros.range 0 (ofCapacity capacity).capacity
      = List.replicate (ofCapacity capacity).capacity 0 := by
    refine List.eq_replicate_iff.2 ⟨FlatArray.length_range _ _ _, fun b hb => ?_⟩
    obtain ⟨i, -, rfl⟩ := List.mem_map.1 hb
    rfl
  rw [Shows, hzeros, flat, CodeArena.capacity]
  exact (hpages _).trans (by rw [ofCapacity, List.length_replicate])

/-- A view is a range of the array that is shown. -/
theorem Shows.view_eq (h : a.Shows f) {offset len : Nat} (hfits : offset + len ≤ a.capacity) :
    a.view offset len = some (f.range offset len) := by
  rw [CodeArena.view_eq, if_pos hfits, show a.flat = f.range 0 a.capacity from h,
    f.take_drop_range hfits]

/-- A view is refused only if its range does not lie inside the arena. -/
theorem view_eq_none {offset len : Nat} (h : ¬ offset + len ≤ a.capacity) :
    a.view offset len = none := by
  rw [CodeArena.view_eq, if_neg h]

/-- A byte of the pages is the byte of the array at its index. -/
theorem Shows.getElem?_flat (h : a.Shows f) (i : Nat) :
    a.flat[i]? = if i < a.capacity then some (f i) else none := by
  have hshown : a.flat = f.range 0 a.capacity := h
  rw [hshown]
  split
  · next hi =>
    have hlen : i < (f.range 0 a.capacity).length := by rwa [FlatArray.length_range]
    rw [List.getElem?_eq_getElem hlen, f.getElem_range, Nat.zero_add]
  · next hi => exact List.getElem?_eq_none (by rw [FlatArray.length_range]; omega)

/-- What is written to the arena is put into the array. -/
theorem Shows.write {offset : Nat} {data : Bytes} (h : a.Shows f)
    (hwrite : a.write offset data = some b) : b.Shows (f.put offset data) := by
  obtain ⟨hcapacity, hflat⟩ := flat_write hwrite
  have hfits : offset + data.length ≤ a.capacity :=
    write_isSome_iff.1 (Option.isSome_of_eq_some hwrite)
  have hshown : a.flat = f.range 0 a.capacity := h
  show b.flat = (f.put offset data).range 0 b.capacity
  rw [hflat, hcapacity, hshown, f.range_put hfits]

/-- What is written to a range is what the range shows. -/
theorem Shows.view_write {offset : Nat} {data : Bytes} (h : a.Shows f)
    (hwrite : a.write offset data = some b) : b.view offset data.length = some data := by
  have hfits : offset + data.length ≤ a.capacity :=
    write_isSome_iff.1 (Option.isSome_of_eq_some hwrite)
  have hcapacity : b.capacity = a.capacity := (flat_write hwrite).1
  rw [(h.write hwrite).view_eq (by rwa [hcapacity]), f.range_put_self]

/-- A write that fits is made, and all others leave the arena as it is. -/
theorem apply_cases (a : CodeArena) (w : RangeWrite) :
    w.Fits a.capacity ∧ a.write w.offset.toNat w.data.toList = some (a.apply w) ∨
      ¬ w.Fits a.capacity ∧ a.apply w = a := by
  have hiff : (a.write w.offset.toNat w.data.toList).isSome ↔ w.Fits a.capacity := by
    rw [write_isSome_iff, Vector.length_toList]
    rfl
  unfold CodeArena.apply
  by_cases hfits : w.Fits a.capacity
  · obtain ⟨b, hwrite⟩ := Option.isSome_iff_exists.1 (hiff.2 hfits)
    exact .inl ⟨hfits, by rw [hwrite, Option.getD_some]⟩
  · have hnone : a.write w.offset.toNat w.data.toList = none :=
      Option.not_isSome_iff_eq_none.1 (mt hiff.1 hfits)
    exact .inr ⟨hfits, by rw [hnone, Option.getD_none]⟩

/-- A write keeps the capacity, and arena and array take it or refuse it together. -/
theorem Shows.apply (h : a.Shows f) (w : RangeWrite) :
    (a.apply w).capacity = a.capacity ∧
      (a.apply w).Shows (if w.Fits a.capacity then f.put w.offset.toNat w.data.toList else f) := by
  obtain ⟨hfits, hwrite⟩ | ⟨hlarge, hsame⟩ := a.apply_cases w
  · rw [if_pos hfits]
    exact ⟨(flat_write hwrite).1, h.write hwrite⟩
  · rw [if_neg hlarge, hsame]
    exact ⟨rfl, h⟩

/-- Writes keep the capacity, and the arena shows the array after the same writes. -/
theorem Shows.run (h : a.Shows f) (writes : List RangeWrite) :
    (a.run writes).capacity = a.capacity ∧ (a.run writes).Shows (f.run a.capacity writes) := by
  induction writes generalizing a f with
  | nil => exact ⟨rfl, h⟩
  | cons w rest ih =>
    obtain ⟨hcapacity, hshows⟩ := h.apply w
    obtain ⟨hrest, hrun⟩ := ih hshows
    rw [hcapacity] at hrest hrun
    exact ⟨hrest, hrun⟩

/-- Writes leave all bytes outside their ranges as they are. -/
theorem Shows.flat_of_outside (h : a.Shows f) {writes : List RangeWrite} {i : Nat}
    (houtside : ∀ w ∈ writes, ¬ w.Covers i) : (a.run writes).flat[i]? = a.flat[i]? := by
  obtain ⟨hcapacity, hshows⟩ := h.run writes
  rw [hshows.getElem?_flat, h.getElem?_flat, hcapacity, f.run_of_outside _ houtside]

end CodeArena

/-! ## Ranges and capacities in words -/

/-- Where a range ends, unless its end is no word. -/
def rangeEnd? (offset len : UInt64) : Option UInt64 :=
  if offset.toNat + len.toNat < UInt64.size then some (offset + len) else none

/-- An end that is given does not wrap. -/
theorem toNat_of_rangeEnd {offset len last : UInt64} (h : rangeEnd? offset len = some last) :
    last.toNat = offset.toNat + len.toNat := by
  obtain ⟨hword, hlast⟩ := Option.ite_none_right_eq_some.1 h
  rw [← Option.some.inj hlast, UInt64.toNat_add]
  exact Nat.mod_eq_of_lt hword

/-- The bytes between two indices, if these are in order and not behind the last byte. -/
def Bytes.slice? (b : Bytes) (first last : Nat) : Option Bytes :=
  if first ≤ last ∧ last ≤ b.length then some ((b.drop first).take (last - first)) else none

namespace CodeArena

/-- The view of a range of words: its end is computed with a check, and is then compared. -/
def viewWord (a : CodeArena) (offset len : UInt64) : Option Bytes :=
  (rangeEnd? offset len).bind fun last => Bytes.slice? a.flat offset.toNat last.toNat

/-- Where the capacity is a word the check of the end changes nothing: a range that fails it does
not end inside the arena. -/
theorem viewWord_eq {a : CodeArena} (hword : a.capacity < UInt64.size) (offset len : UInt64) :
    a.viewWord offset len = a.view offset.toNat len.toNat := by
  rw [view_eq, viewWord]
  by_cases hend : offset.toNat + len.toNat < UInt64.size
  · have hlast : rangeEnd? offset len = some (offset + len) := if_pos hend
    have hsub : (offset + len).toNat - offset.toNat = len.toNat := by
      rw [toNat_of_rangeEnd hlast]
      omega
    rw [hlast, Option.bind_some, Bytes.slice?, hsub, toNat_of_rangeEnd hlast, length_flat]
    simp only [Nat.le_add_right, true_and]
  · have hlast : rangeEnd? offset len = none := if_neg hend
    rw [hlast, Option.bind_none, if_neg (by omega)]

/-- Where the capacity is a word, an end inside the arena is one. -/
theorem word_and_le_iff {a : CodeArena} (hword : a.capacity < UInt64.size) {n : Nat} :
    n < UInt64.size ∧ n ≤ a.capacity ↔ n ≤ a.capacity :=
  and_iff_right_of_imp fun hle => Nat.lt_of_le_of_lt hle hword

/-- The view of every range of words, from the array that is shown. -/
theorem Shows.view_eq_ite {a : CodeArena} {f : FlatArray} (h : a.Shows f)
    (hword : a.capacity < UInt64.size) (offset len : Nat) :
    a.view offset len = if offset + len < UInt64.size ∧ offset + len ≤ a.capacity
      then some (f.range offset len) else none := by
  simp only [word_and_le_iff hword]
  split
  · next hfits => exact h.view_eq hfits
  · next hlarge => exact view_eq_none hlarge

/-- A size that is rounded up is the least whole number of pages that holds it. -/
theorem alignUp_least (capacity : Nat) :
    pageSize ∣ alignUp capacity ∧ capacity ≤ alignUp capacity ∧
      ∀ n, pageSize ∣ n → capacity ≤ n → alignUp capacity ≤ n :=
  ⟨Nat.dvd_mul_left _ _, le_alignUp _, fun _ hpages hle => alignUp_le hle hpages⟩

/-- Rounding a capacity up is exact if the result is a word. -/
theorem toNat_capacityWord {capacity : UInt64} (hword : alignUp capacity.toNat < UInt64.size) :
    (capacityWord capacity).toNat = alignUp capacity.toNat := by
  have hpage : (UInt64.ofNat pageSize).toNat = pageSize := by decide
  rw [capacityWord, UInt64.toNat_mul, toNat_unitsForWord _ (by decide), hpage]
  exact Nat.mod_eq_of_lt hword

/-! ## Refinement -/

/-- A code arena refines a flat array of zeros. For every capacity that can be rounded up in words
and after any writes, the capacity is the least whole number of pages that holds what was asked for,
a range can be viewed or written if and only if its end is a word and not behind the capacity, a
view is the range of the flat array after the same writes, what is written to a range is what the
range shows, and further writes change no byte outside their ranges. -/
theorem run_refines_flatArray (capacity : UInt64) (hword : alignUp capacity.toNat < UInt64.size)
    (writes : List RangeWrite) :
    let a := (ofCapacity capacity.toNat).run writes
    let f := FlatArray.zeros.run a.capacity writes
    (a.capacity = (capacityWord capacity).toNat ∧ pageSize ∣ a.capacity ∧
      capacity.toNat ≤ a.capacity ∧
      ∀ n, pageSize ∣ n → capacity.toNat ≤ n → a.capacity ≤ n) ∧
    (∀ offset len : UInt64,
      a.viewWord offset len = a.view offset.toNat len.toNat ∧
      a.view offset.toNat len.toNat
        = if offset.toNat + len.toNat < UInt64.size ∧ offset.toNat + len.toNat ≤ a.capacity
          then some (f.range offset.toNat len.toNat) else none) ∧
    (∀ w : RangeWrite,
      ((a.write w.offset.toNat w.data.toList).isSome ↔
        w.offset.toNat + w.len.toNat < UInt64.size ∧
          w.offset.toNat + w.len.toNat ≤ a.capacity) ∧
      ∀ b, a.write w.offset.toNat w.data.toList = some b →
        b.view w.offset.toNat w.len.toNat = some w.data.toList) ∧
    ∀ more : List RangeWrite, (a.run more).capacity = a.capacity ∧
      ∀ i, (∀ w ∈ more, ¬ w.Covers i) → (a.run more).flat[i]? = a.flat[i]? := by
  intro a f
  -- The fresh arena shows zeros, so after the writes it shows the array after them.
  obtain ⟨hkept, hfresh⟩ := (shows_ofCapacity capacity.toNat).run writes
  have hcapacity : a.capacity = alignUp capacity.toNat :=
    hkept.trans (capacity_ofCapacity capacity.toNat)
  have hsize : a.capacity < UInt64.size := by rwa [hcapacity]
  have hshows : a.Shows f := by
    show a.Shows (FlatArray.zeros.run a.capacity writes)
    rw [hkept]
    exact hfresh
  obtain ⟨hpages, hholds, hleast⟩ := alignUp_least capacity.toNat
  rw [← hcapacity] at hpages hholds hleast
  refine ⟨⟨?_, hpages, hholds, hleast⟩, fun offset len => ⟨viewWord_eq hsize offset len, ?_⟩,
    fun w => ⟨?_, fun b hwrite => ?_⟩, fun more => ⟨(hshows.run more).1, fun i hi => ?_⟩⟩
  · rw [hcapacity, toNat_capacityWord hword]
  · exact hshows.view_eq_ite hsize _ _
  · rw [word_and_le_iff hsize, write_isSome_iff, Vector.length_toList]
  · have hview := hshows.view_write hwrite
    rwa [Vector.length_toList] at hview
  · exact hshows.flat_of_outside hi

/-- Two bytes that are written over the end of a page, and one behind the last page that is not. -/
def straddling : List RangeWrite := [⟨4095, 2, #v[7, 8]⟩, ⟨8192, 1, #v[9]⟩]

/-- A capacity of 5000 bytes is rounded up to two pages, and both of their views show what was
written over the end of the first. -/
theorem run_refines_flatArray_straddling :
    alignUp (5000 : UInt64).toNat < UInt64.size ∧
      ((ofCapacity 5000).run straddling).capacity = 8192 ∧
      ((ofCapacity 5000).run straddling).view 4094 4 = some [0, 7, 8, 0] ∧
      ((ofCapacity 5000).run straddling).view 8192 0 = some [] ∧
      ((ofCapacity 5000).run straddling).viewWord (-1) 2 = none := by
  have hword : alignUp (5000 : UInt64).toNat < UInt64.size := by decide
  obtain ⟨⟨hcapacity, -⟩, hviews, -⟩ := run_refines_flatArray 5000 hword straddling
  have hsize : ((ofCapacity 5000).run straddling).capacity = 8192 := hcapacity.trans (by decide)
  have hview := fun offset len => (hviews offset len).2
  have hviewWord := fun offset len => (hviews offset len).1.trans (hview offset len)
  simp only [show (5000 : UInt64).toNat = 5000 from rfl, hsize] at hview hviewWord
  refine ⟨hword, hsize, ?_, ?_, ?_⟩
  · exact (hview 4094 4).trans (by decide +kernel)
  · exact (hview 8192 0).trans (by decide +kernel)
  · exact (hviewWord (-1) 2).trans (by decide +kernel)

end CodeArena

end HashLoader
