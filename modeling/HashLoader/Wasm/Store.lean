import HashLoader.Text.Utf8
import HashLoader.Wasm.Memory
import HashLoader.Wasm.Module
import HashLoader.Wasm.Table

/-!
# Stores

The store is all that running code changes besides its own operands and variables: memories, global
variables, tables, the messages it sent, and the cycles it used up. Whether messages are kept was
said when the store was made; a message that is not kept is sent all the same.

There are two memories: the one that the environment shares with the code, and one that a module may
define for itself. Messages are always taken from the shared one.
-/

namespace HashLoader.Wasm

/-- The longest part of a message that is kept, in bytes. -/
def maxMessage : Nat := 4096

/-- All that running code changes. -/
structure Store where
  /-- The memory of the environment. -/
  shared : Memory
  /-- The memory of the module itself. -/
  own : Memory
  globals : Array Value
  tables : Array Table
  /-- Whether messages are kept. -/
  captures : Bool
  /-- The messages kept so far, oldest first. -/
  messages : Array String
  /-- The cycles used up so far. -/
  consumed : Nat

namespace Store

/-- The store before anything runs, without a memory to share. -/
def new (captures : Bool) : Store where
  shared := .ofLimits ⟨0, some 0⟩
  own := .ofLimits ⟨0, some 0⟩
  globals := #[]
  tables := #[]
  captures
  messages := #[]
  consumed := 0

/-- The store with a memory to share. -/
def withShared (s : Store) (shared : Memory) : Store := { s with shared }

/-- Uses up cycles. -/
def charge (s : Store) (cycles : Nat) : Store := { s with consumed := s.consumed + cycles }

/-- The shared memory, or the module's own. -/
def memory (s : Store) (shared : Bool) : Memory := if shared then s.shared else s.own

/-- Changes the shared memory, or the module's own. -/
def mapMemory (s : Store) (shared : Bool) (f : Memory → Memory) : Store :=
  match s, shared with
  | ⟨m, own, globals, tables, captures, messages, consumed⟩, true =>
    ⟨f m, own, globals, tables, captures, messages, consumed⟩
  | ⟨m, own, globals, tables, captures, messages, consumed⟩, false =>
    ⟨m, f own, globals, tables, captures, messages, consumed⟩

/-- Sets a global variable. -/
def setGlobal (s : Store) (index : Nat) (v : Value) : Store :=
  match s with
  | ⟨shared, own, globals, tables, captures, messages, consumed⟩ =>
    ⟨shared, own, globals.setIfInBounds index v, tables, captures, messages, consumed⟩

/-- Keeps a message, if messages are kept. -/
def record (s : Store) (message : String) : Store :=
  match s with
  | ⟨shared, own, globals, tables, captures, messages, consumed⟩ =>
    ⟨shared, own, globals, tables, captures,
      if captures then messages.push message else messages, consumed⟩

/-- Sends the message of `len` bytes at an address of the shared memory. What is longer than the
longest message is cut, and only what is left has to lie inside the memory. -/
def debug (s : Store) (address len : BitVec 32) : Option Store :=
  (s.shared.read address.toNat (min len.toNat maxMessage)).map fun b => s.record (Utf8.lossy b)

end Store

end HashLoader.Wasm
