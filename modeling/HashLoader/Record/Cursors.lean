import HashLoader.Record.View

/-!
# Stacks of views

Reading a nested record needs a view for each level. `Cursors` is a stack of views, never empty,
on whose top the reading steps act: entering a record pushes the view of its body, and a view can be
copied and dropped.
-/

namespace HashLoader.Record

/-- A stack of views, the top one apart. -/
structure Cursors where
  top : View
  below : List View
deriving DecidableEq, Repr

/-- What one step read. -/
inductive Item
  | tag (t : Tag)
  | scalar (v : UInt8)
  | blob (b : View)
  | nothing
deriving DecidableEq, Repr

namespace Cursors

/-- One step of reading. -/
inductive Step
  | peek
  | scalar
  | blob
  /-- Reads a record and pushes the view of its body. -/
  | record
  | finish
  /-- Pushes a copy of the top view. -/
  | copy
  /-- Drops the top view unless it is the only one. -/
  | drop
deriving DecidableEq, Repr

/-- A stack that holds the view of a whole buffer. -/
def ofBytes (b : Bytes) : Cursors := ⟨View.ofBytes b, []⟩

/-- All views, top first. -/
def views (c : Cursors) : List View := c.top :: c.below

/-- Applies a reading to the top view, which moves also when the reading fails. -/
def read {α : Type} (c : Cursors) (r : Reading α) : Except Error α × Cursors :=
  match r c.top with
  | .ok a v => (.ok a, { c with top := v })
  | .error e v => (.error e, { c with top := v })

/-- Puts a view on top. -/
def push (c : Cursors) (v : View) : Cursors := ⟨v, c.views⟩

/-- Takes one step. -/
def apply (c : Cursors) : Step → Except Error Item × Cursors
  | .peek => c.read (Item.tag <$> View.peekTag)
  | .scalar => c.read (Item.scalar <$> View.scalar)
  | .blob => c.read (Item.blob <$> View.blob)
  | .record =>
    match c.read View.record with
    | (.ok inner, c) => (.ok .nothing, c.push inner)
    | (.error e, c) => (.error e, c)
  | .finish => c.read ((fun _ => Item.nothing) <$> View.finish)
  | .copy => (.ok .nothing, c.push c.top)
  | .drop =>
    match c.below with
    | [] => (.ok .nothing, c)
    | v :: rest => (.ok .nothing, ⟨v, rest⟩)

end Cursors

end HashLoader.Record
