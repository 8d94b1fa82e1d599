import HashLoader.Arena.Code

/-!
# A code arena is a flat range of bytes

`CodeArena.flat` puts the pages of an arena one after another. Views are ranges of it (`view_eq`),
and a write replaces a range of it (`flat_write`), also where the range straddles pages: by
induction on the pages, where each page takes its share of the range and leaves the rest to those
after it.
-/

namespace HashLoader

/-- The bytes of pages, one page after another. -/
def Page.flatten (pages : List Page) : Bytes := pages.flatMap (·.1)

namespace Page

@[simp]
theorem flatten_cons (p : Page) (rest : List Page) :
    flatten (p :: rest) = p.1 ++ flatten rest := List.flatMap_cons

/-- Every page has its full length. -/
@[simp]
theorem length_flatten (pages : List Page) : (flatten pages).length = pages.length * pageSize := by
  induction pages with
  | nil => simp [flatten]
  | cons p rest ih =>
    rw [flatten_cons, List.length_append, ih, p.2, List.length_cons, Nat.succ_mul, Nat.add_comm]

end Page

namespace CodeArena

/-- The bytes of an arena, one page after another. -/
def flat (a : CodeArena) : Bytes := Page.flatten a.pages

/-- An arena has as many bytes as its capacity says. -/
theorem length_flat (a : CodeArena) : a.flat.length = a.capacity := Page.length_flatten a.pages

/-- The capacity that was asked for is rounded up to whole pages. -/
theorem capacity_ofCapacity (capacity : Nat) : (ofCapacity capacity).capacity = alignUp capacity := by
  rw [CodeArena.capacity, ofCapacity, List.length_replicate, alignUp]

/-- Gathering a range page by page gives the range. -/
theorem gather_eq (pages : List Page) (offset len : Nat) :
    gather pages offset len = ((Page.flatten pages).drop offset).take len := by
  induction pages generalizing offset len with
  | nil => simp [gather, Page.flatten]
  | cons p rest ih =>
    have hp : p.1.length = pageSize := p.2
    rw [gather, Page.flatten_cons]
    split
    · next hlen => rw [hlen, List.take_zero]
    · rw [ih, List.drop_append, List.take_append, List.length_drop, hp]

/-- A view is a range of the bytes of the arena. -/
theorem view_eq (a : CodeArena) (offset len : Nat) :
    a.view offset len
      = if offset + len ≤ a.capacity then some ((a.flat.drop offset).take len) else none := by
  rw [view, gather_eq, flat]

/-- Scattering bytes keeps the number of pages. -/
@[simp]
theorem length_scatter (pages : List Page) (offset : Nat) (data : Bytes) :
    (scatter pages offset data).length = pages.length := by
  induction pages generalizing offset data with
  | nil => rfl
  | cons p rest ih =>
    rw [scatter]
    split
    · rfl
    · rw [List.length_cons, List.length_cons, ih]

/-- Scattering bytes page by page replaces a range by them. -/
theorem flatten_scatter (pages : List Page) (offset : Nat) (data : Bytes)
    (h : offset + data.length ≤ pages.length * pageSize) :
    Page.flatten (scatter pages offset data)
      = (Page.flatten pages).take offset ++ data
        ++ (Page.flatten pages).drop (offset + data.length) := by
  induction pages generalizing offset data with
  | nil =>
    rw [List.length_nil, Nat.zero_mul] at h
    have hdata : data = [] := List.eq_nil_of_length_eq_zero (by omega)
    rw [hdata]
    simp [scatter, Page.flatten]
  | cons p rest ih =>
    have hp : p.1.length = pageSize := p.2
    rw [List.length_cons, Nat.succ_mul] at h
    rw [scatter]
    split
    · next hdata =>
      subst hdata
      simp
    · have hrest : offset - pageSize + (data.drop (pageSize - offset)).length
          ≤ rest.length * pageSize := by
        rw [List.length_drop]
        omega
      rw [Page.flatten_cons, ih _ _ hrest, Page.flatten_cons, List.take_append, List.drop_append, hp,
        List.length_drop]
      split
      -- The range starts in this page, which takes what fits of it.
      · next hin =>
        have hskip : offset - pageSize = 0 := by omega
        have hsum : data.length - (pageSize - offset) = offset + data.length - pageSize := by omega
        rw [Page.patch, hskip, hsum, List.take_zero, List.nil_append, List.append_nil, Nat.zero_add]
        simp only [List.append_assoc, List.append_cancel_left_eq]
        rcases Nat.le_total (pageSize - offset) data.length with hlong | hshort
        · have hnone : p.1.drop (offset + data.length) = [] :=
            List.drop_eq_nil_of_le (by omega)
          rw [hnone, List.nil_append, List.nil_append, ← List.append_assoc, List.take_append_drop]
        · rw [List.take_of_length_le hshort, List.drop_eq_nil_of_le hshort, List.nil_append]
      -- The range starts in a later page, so this one stays.
      · next hout =>
        have hkeep : pageSize - offset = 0 := by omega
        have hsub : offset + data.length - pageSize = offset - pageSize + data.length := by omega
        have htake : p.1.take offset = p.1 := List.take_of_length_le (by omega)
        have hdrop : p.1.drop (offset + data.length) = [] := List.drop_eq_nil_of_le (by omega)
        rw [hkeep, hsub, htake, hdrop, List.drop_zero, Nat.sub_zero, List.nil_append]
        simp only [List.append_assoc]

/-- A write that fits replaces a range of the bytes and keeps the capacity. -/
theorem flat_write {a b : CodeArena} {offset : Nat} {data : Bytes}
    (h : a.write offset data = some b) :
    b.capacity = a.capacity ∧
      b.flat = a.flat.take offset ++ data ++ a.flat.drop (offset + data.length) := by
  obtain ⟨hfits, hb⟩ := Option.ite_none_right_eq_some.1 h
  obtain rfl := Option.some.inj hb
  refine ⟨?_, flatten_scatter a.pages offset data hfits⟩
  rw [CodeArena.capacity, length_scatter, CodeArena.capacity]

/-- A write is refused only if it does not fit. -/
theorem write_isSome_iff {a : CodeArena} {offset : Nat} {data : Bytes} :
    (a.write offset data).isSome ↔ offset + data.length ≤ a.capacity := by
  unfold write
  split <;> simp [*]

/-- What was written to the front of an arena is what its front shows. -/
theorem view_write {a b : CodeArena} {data : Bytes} (h : a.write 0 data = some b) :
    b.view 0 data.length = some data := by
  obtain ⟨hcapacity, hflat⟩ := flat_write h
  have hfits : 0 + data.length ≤ b.capacity := by
    rw [hcapacity]
    exact write_isSome_iff.1 (Option.isSome_of_eq_some h)
  rw [view_eq, if_pos hfits, hflat, List.take_zero, List.nil_append, List.drop_zero, List.take_left]

end CodeArena

end HashLoader
