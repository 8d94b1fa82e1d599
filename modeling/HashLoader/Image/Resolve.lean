import HashLoader.Args
import HashLoader.Arena.Code
import HashLoader.Engine

/-!
# Code images

A code reference is resolved to a code image in a fixed order, which ends at the first failure:

1. find the dependency whose hash is the code hash;
2. measure its data, which has to fit the arena;
3. copy the data into the arena;
4. if the hash covers the data, compare it with the hash of what was copied;
5. check that the data is a whole number of pages;
6. compile it.

The host answers each call as it likes, so only the one copy in the arena is ever used.
-/

namespace HashLoader

/-- Loaded and checked code. -/
structure CodeImage (C : Compiler) where
  arena : CodeArena
  /-- How many bytes of the arena are code. -/
  len : Nat
  module : C.Module

namespace CodeImage

variable {C : Compiler}

/-- The bytes of the code. -/
def bytes (image : CodeImage C) : Bytes := (image.arena.view 0 image.len).getD []

/-- What an image is called in messages. -/
def describe (image : CodeImage C) : String :=
  "CodeImage \x7b len: " ++ toString image.len ++ ", arena: " ++ image.arena.describe ++ " \x7d"

end CodeImage

/-- The number of indices that a host can be asked for. -/
def indexCount : Nat := UInt64.size

/-- How a search for a dependency ends. -/
inductive Search
  | found (index : Nat)
  /-- The host has no more dependencies. -/
  | absent
  /-- The host refused to answer. -/
  | refused (cause : HostError)
  /-- The host answered for every index there is and never with the hash. -/
  | endless
deriving DecidableEq, Repr

/-- Searches from `index` on for the first dependency whose hash field is `hash`. Dependencies with
another hash or without the field are passed over. -/
def locateFrom {σ : Type} (host : Host σ) (hash : Hash) (field : HashField) (index : Nat) (s : σ) :
    Search × σ :=
  if index < indexCount then
    match host.loadHash index field s with
    | (.ok (some h), s) =>
      if h = hash then (.found index, s) else locateFrom host hash field (index + 1) s
    | (.ok none, s) => locateFrom host hash field (index + 1) s
    | (.error .itemMissing, s) => locateFrom host hash field (index + 1) s
    | (.error .indexOutOfBound, s) => (.absent, s)
    | (.error e, s) => (.refused e, s)
  else (.endless, s)
termination_by indexCount - index

/-- Searches for the first dependency that a reference names. -/
def locate {σ : Type} (host : Host σ) (r : CodeReference) (s : σ) : Search × σ :=
  locateFrom host r.codeHash r.hashType.field 0 s

/-- What is copied into an arena becomes an image, if it is what the reference names. -/
def CodeImage.ofArena (C : Compiler) (r : CodeReference) (arena : CodeArena) (len : Nat) :
    Except LoaderError (CodeImage C) :=
  match arena.view 0 len with
  | none => .error (.malformedImage len)
  | some b =>
    if r.hashType.isData && !r.codeHash.authenticates b then .error (.hashMismatch r.codeHash)
    else if !isPageAligned len then .error (.malformedImage len)
    else
      match C.compile b with
      | .error reason => .error (.cannotLoad reason)
      | .ok module => .ok { arena, len, module }

/-- Loads the data of a dependency into a fresh arena. -/
def CodeImage.load {σ : Type} (C : Compiler) (host : Host σ) (r : CodeReference)
    (capacity index : Nat) (s : σ) : Except LoaderError (CodeImage C) × σ :=
  match host.loadData #v[] 0 index s with
  | (⟨.error e, _⟩, s) => (.error (.syscall e), s)
  | (⟨.ok len, _⟩, s) =>
    let arena := CodeArena.ofCapacity capacity
    if arena.capacity < len then (.error (.codeTooLarge len arena.capacity), s)
    else
      match host.loadData (Vector.replicate len 0) 0 index s with
      | (⟨.error e, _⟩, s) => (.error (.syscall e), s)
      | (⟨.ok loaded, window⟩, s) =>
        if loaded ≠ len then (.error (.syscall (.lengthNotEnough loaded)), s)
        else
          match arena.write 0 window.toList with
          | none => (.error (.codeTooLarge len capacity), s)
          | some arena => (CodeImage.ofArena C r arena len, s)

/-- Loads the code that a reference names into a fresh arena of `capacity` bytes. -/
def resolve {σ : Type} (C : Compiler) (host : Host σ) (r : CodeReference) (capacity : Nat) (s : σ) :
    Except LoaderError (CodeImage C) × σ :=
  match locate host r s with
  | (.found index, s) => CodeImage.load C host r capacity index s
  | (.refused e, s) => (.error (.syscall e), s)
  | (.absent, s) | (.endless, s) => (.error (.codeNotFound r.codeHash), s)

end HashLoader
