/-!
# Tables

A table is a number of entries, all missing at first, into which functions are put by their indices.
A table may have billions of entries, so it is held as the runs of functions that were put into it;
the last of them that covers an entry says what the entry holds. The one view of a table is `get?`,
and `get?_put` says what putting functions does to it.
-/

namespace HashLoader.Wasm

/-- A table of functions. -/
structure Table where
  /-- How many entries it has. -/
  size : Nat
  /-- The functions put into it, each run with the entry it starts at, last one first. -/
  runs : List (Nat × Array Nat)
deriving DecidableEq, Repr

namespace Table

/-- A table of missing entries. -/
def ofSize (size : Nat) : Table := ⟨size, []⟩

/-- The function that a run puts into an entry. -/
def covering? (i : Nat) (run : Nat × Array Nat) : Option Nat :=
  if run.1 ≤ i then run.2[i - run.1]? else none

/-- The entry with an index, if the table has it: a function or nothing. -/
def get? (t : Table) (i : Nat) : Option (Option Nat) :=
  if i < t.size then some (t.runs.findSome? (covering? i)) else none

/-- Puts functions into the entries from one on, as long as the table has all of them. -/
def put (t : Table) (start : Nat) (functions : List Nat) : Option Table :=
  if start + functions.length ≤ t.size then
    some { t with runs := (start, functions.toArray) :: t.runs }
  else none

/-! ## What the operations do to the entries -/

theorem covering?_eq_none {i start : Nat} {functions : List Nat}
    (h : ¬(start ≤ i ∧ i < start + functions.length)) :
    covering? i (start, functions.toArray) = none := by
  simp only [covering?]
  split
  · rw [List.getElem?_toArray, List.getElem?_eq_none (by omega)]
  · rfl

/-- Putting functions changes the entries of their range and no others. -/
theorem get?_put {t u : Table} {start : Nat} {functions : List Nat}
    (h : t.put start functions = some u) (i : Nat) :
    u.get? i =
      if start ≤ i ∧ i < start + functions.length then some functions[i - start]?
      else t.get? i := by
  obtain ⟨hfits, hu⟩ := Option.ite_none_right_eq_some.1 h
  obtain rfl := Option.some.inj hu
  simp only [get?]
  by_cases hin : start ≤ i ∧ i < start + functions.length
  -- An entry of the range is inside the table, and the new run is the first that covers it.
  · have hsize : i < t.size := by omega
    have hlen : i - start < functions.length := by omega
    rw [if_pos hin, if_pos hsize, List.findSome?_cons, covering?, if_pos hin.1,
      List.getElem?_toArray, List.getElem?_eq_getElem hlen]
  · rw [if_neg hin, List.findSome?_cons, covering?_eq_none hin]

end Table

end HashLoader.Wasm
