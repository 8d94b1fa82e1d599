import HashLoader.Image.Page

/-!
# Code arenas

A code arena is the buffer that code is loaded into: a fixed number of pages, all zero at first.
Views and writes name a range of bytes and may straddle pages; a range that does not lie inside the
arena is refused.
-/

namespace HashLoader

/-- The bytes of one page. -/
abbrev Page := { b : Bytes // b.length = pageSize }

namespace Page

/-- The page of zeros. -/
def zero : Page := ⟨List.replicate pageSize 0, List.length_replicate⟩

/-- Puts the front of `data` at `offset`, as far as it fits into the page. -/
def patch (p : Page) (offset : Nat) (data : Bytes) : Page :=
  ⟨p.1.take offset ++ data.take (pageSize - offset) ++ p.1.drop (offset + data.length), by
    have := p.2
    simp only [List.length_append, List.length_take, List.length_drop]
    omega⟩

end Page

/-- A fixed number of pages. -/
structure CodeArena where
  pages : List Page

namespace CodeArena

/-- An arena of zeros that holds `capacity` bytes, rounded up to whole pages. -/
def ofCapacity (capacity : Nat) : CodeArena :=
  ⟨List.replicate (unitsFor capacity pageSize) Page.zero⟩

/-- The number of bytes in the arena. -/
def capacity (a : CodeArena) : Nat := a.pages.length * pageSize

/-- The `len` bytes from `offset` on, page after page; what lies past the last page is missing. -/
def gather : List Page → (offset len : Nat) → Bytes
  | [], _, _ => []
  | p :: rest, offset, len =>
    if len = 0 then []
    else (p.1.drop offset).take len ++ gather rest (offset - pageSize) (len - (pageSize - offset))

/-- Puts `data` at `offset`, page after page; what lies past the last page is dropped. -/
def scatter : List Page → (offset : Nat) → (data : Bytes) → List Page
  | [], _, _ => []
  | p :: rest, offset, data =>
    if data = [] then p :: rest
    else
      (if offset < pageSize then p.patch offset data else p)
        :: scatter rest (offset - pageSize) (data.drop (pageSize - offset))

/-- The bytes of a range inside the arena. -/
def view (a : CodeArena) (offset len : Nat) : Option Bytes :=
  if offset + len ≤ a.capacity then some (gather a.pages offset len) else none

/-- Overwrites a range inside the arena. -/
def write (a : CodeArena) (offset : Nat) (data : Bytes) : Option CodeArena :=
  if offset + data.length ≤ a.capacity then some ⟨scatter a.pages offset data⟩ else none

/-- What an arena is called in messages. -/
def describe (a : CodeArena) : String :=
  "CodeArena \x7b capacity: " ++ toString a.capacity ++ " \x7d"

end CodeArena

end HashLoader
