import HashLoader.Proofs.Wasm.Provenance

/-!
# What data segments leave in the shared memory

Instantiation writes the data segments one at a time, so later ones cover earlier ones.
`Module.segmentByte?` is the byte that they leave at an address together: that of the last one that
covers it. `shared_initializedStore` says that the shared memory then holds these bytes, and where
no segment covers it what it held before. This is the memory that the start function is called on,
and without a start function it is the one that is left (`store_of_instantiate`).
-/

namespace HashLoader.Wasm

/-- The byte that a segment puts at an address, given the values of the global variables. -/
def DataSegment.byte? (globals : Array Value) (d : DataSegment) (address : Nat) : Option UInt8 :=
  if d.offset.address globals ≤ address then d.bytes[address - d.offset.address globals]? else none

/-- The byte that segments put at an address, one after the other. -/
def DataSegment.lastByte? (globals : Array Value) (l : List DataSegment) (address : Nat) :
    Option UInt8 :=
  l.reverse.findSome? fun d => d.byte? globals address

/-- The first values of the global variables. -/
def Module.firstGlobals (m : Module) : Array Value :=
  (m.globals.map fun g => g.init.eval #[]).toArray

/-- The byte that the segments of a module put at an address of the shared memory. -/
def Module.segmentByte? (m : Module) (address : Nat) : Option UInt8 :=
  if m.importsMemory then DataSegment.lastByte? m.firstGlobals m.data address else none

/-- A segment puts nothing past its end. -/
theorem DataSegment.byte?_eq_none {globals : Array Value} {d : DataSegment} {address : Nat}
    (h : d.offset.address globals + d.bytes.length ≤ address) : d.byte? globals address = none := by
  unfold byte?
  split
  · exact List.getElem?_eq_none (by omega)
  · rfl

/-- A segment is written before those that follow it. -/
theorem DataSegment.lastByte?_cons (globals : Array Value) (d : DataSegment)
    (rest : List DataSegment) (address : Nat) :
    lastByte? globals (d :: rest) address
      = (lastByte? globals rest address).or (d.byte? globals address) := by
  rw [lastByte?, lastByte?, List.reverse_cons, List.findSome?_append, List.findSome?_singleton]

/-- Putting the bytes of a segment puts each where the segment has it. -/
theorem Memory.byte_put_segment (m : Memory) (globals : Array Value) (d : DataSegment)
    (address : Nat) :
    (m.put (d.offset.address globals) d.bytes).byte address
      = (d.byte? globals address).getD (m.byte address) := by
  rw [byte_put_eq_getD, DataSegment.byte?]

namespace Store

/-- Functions are put into a table, which changes neither memories nor global variables. -/
theorem putElements_keeps {s s' : Store} {e : ElementSegment} (h : s.putElements e = .ok s') :
    s'.shared = s.shared ∧ s'.globals = s.globals := by
  unfold putElements at h
  split at h
  · cases h
    exact ⟨rfl, rfl⟩
  · cases h

/-- A segment changes no global variable. -/
theorem globals_putData {usesShared : Bool} {s s' : Store} {d : DataSegment}
    (h : putData usesShared s d = .ok s') : s'.globals = s.globals := by
  unfold putData at h
  dsimp only at h
  split at h
  · cases h
    cases usesShared <;> rfl
  · cases h

/-- A segment changes the shared memory only if the module uses it. -/
theorem shared_putData_of_own {s s' : Store} {d : DataSegment} (h : putData false s d = .ok s') :
    s'.shared = s.shared := by
  unfold putData at h
  dsimp only at h
  split at h
  · cases h
    rfl
  · cases h

/-- What a segment does to the shared memory. -/
theorem shared_putData {s s' : Store} {d : DataSegment} (h : putData true s d = .ok s') :
    s'.shared.pages = s.shared.pages ∧
      ∀ address, s'.shared.byte address
        = (d.byte? s.globals address).getD (s.shared.byte address) := by
  unfold putData at h
  dsimp only at h
  split at h
  · cases h
    exact ⟨Memory.pages_put _ _ _, fun address => Memory.byte_put_segment _ _ _ _⟩
  · cases h

/-- What segments do to the shared memory one after the other. -/
theorem shared_foldlM_putData {l : List DataSegment} {s s' : Store}
    (h : l.foldlM (putData true) s = .ok s') :
    s'.shared.pages = s.shared.pages ∧
      ∀ address, s'.shared.byte address
        = (DataSegment.lastByte? s.globals l address).getD (s.shared.byte address) := by
  induction l generalizing s with
  | nil =>
    cases h
    exact ⟨rfl, fun address => rfl⟩
  | cons d rest ih =>
    rw [List.foldlM_cons] at h
    obtain ⟨t, ht, hrest⟩ := bind_eq_ok_iff.1 h
    obtain ⟨hpages, hbyte⟩ := shared_putData ht
    obtain ⟨hpages', hbyte'⟩ := ih hrest
    refine ⟨hpages'.trans hpages, fun address => ?_⟩
    rw [hbyte', hbyte, globals_putData ht, DataSegment.lastByte?_cons]
    cases DataSegment.lastByte? s.globals rest address <;> rfl

end Store

namespace Module

variable {m : Module} {s store : Store} {budget : Nat}

/-- Writing all segments leaves their bytes in the shared memory, and all others as they were. -/
theorem shared_initializedStore (h : m.initializedStore s = .ok store) :
    store.shared.pages = s.shared.pages ∧
      ∀ address, store.shared.byte address
        = (m.segmentByte? address).getD (s.shared.byte address) := by
  unfold initializedStore at h
  obtain ⟨filled, helements, hall⟩ := bind_eq_ok_iff.1 h
  -- Tables come first, and filling them changes neither the memory nor the global variables.
  have hshared : filled.shared = s.shared := foldlM_invariant (fun s => s.shared)
    (fun _ _ _ hput => (Store.putElements_keeps hput).1) helements
  have hglobals : filled.globals = m.firstGlobals := foldlM_invariant (fun s => s.globals)
    (fun _ _ _ hput => (Store.putElements_keeps hput).2) helements
  unfold segmentByte?
  cases hmemory : m.importsMemory with
  | true =>
    rw [hmemory] at hall
    obtain ⟨hpages, hbyte⟩ := Store.shared_foldlM_putData hall
    rw [hshared] at hpages hbyte
    rw [hglobals] at hbyte
    exact ⟨hpages, hbyte⟩
  | false =>
    rw [hmemory] at hall
    -- A module with a memory of its own writes nothing into the shared one.
    have hkept : store.shared = filled.shared := foldlM_invariant (fun s => s.shared)
      (fun _ _ _ => Store.shared_putData_of_own) hall
    rw [hkept, hshared]
    exact ⟨rfl, fun address => rfl⟩

/-- The store that instantiation leaves is the one after the segments, or what the start function
leaves of it. -/
theorem store_of_instantiate {inst : Instance} (h : m.instantiate budget s = (.ok inst, store)) :
    ∃ filled, m.initializedStore s = .ok filled ∧
      (m.startCall? s = none ∧ store = filled ∨
        ∃ a, m.startCall? s = some a ∧ a.store = filled ∧ store = (a.result budget).2) := by
  unfold instantiate at h
  unfold startCall?
  split at h
  · cases h
  · next filled hfilled =>
    refine ⟨filled, hfilled, ?_⟩
    rw [hfilled]
    split at h
    · next hstart =>
      cases h
      rw [hstart]
      exact .inl ⟨rfl, rfl⟩
    · next index hstart =>
      rw [hstart]
      refine .inr ⟨_, rfl, rfl, ?_⟩
      unfold Activation.result
      split at h
      · next results left hresult =>
        cases h
        exact (congrArg Prod.snd hresult).symm
      · cases h

end Module

end HashLoader.Wasm
