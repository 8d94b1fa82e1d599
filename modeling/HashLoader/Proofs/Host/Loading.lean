import HashLoader.Host.Local

/-!
# Loading piece by piece

A caller that does not know how long an item is loads it into one buffer after another, and moves
its offset by what was copied: the smaller one of what was available and what there was room for.

On a local host that gives back the item, however the buffers are cut. A load copies the next bytes
of the item and leaves the rest of the buffer (`partialLoad_of_le`), so loads one after another copy
its front (`loadAll_loads`). The offset stays inside the item, the length included, and so no load
is refused.
-/

namespace HashLoader

/-! ## Loads -/

/-- What a host copies from. -/
inductive Item
  /-- The script in execution. -/
  | script
  /-- The data of the dependency with an index. -/
  | data (index : Nat)
deriving DecidableEq

/-- Copies from an item, from an offset on. -/
def Host.load {σ : Type} (host : Host σ) (item : Item) {n : Nat} (buffer : Vector UInt8 n)
    (offset : Nat) (s : σ) : Loaded n × σ :=
  match item with
  | .script => host.loadScript buffer offset s
  | .data index => host.loadData buffer offset index s

/-- How much was copied: what was available, as far as there was room for it. -/
def Loaded.copied {n : Nat} (answer : Loaded n) : Nat :=
  match answer.result with
  | .ok available => min available n
  | .error _ => 0

/-- What was copied. -/
def Loaded.chunk {n : Nat} (answer : Loaded n) : Bytes := answer.buffer.toList.take answer.copied

/-- A buffer of any size. -/
structure Buffer where
  size : Nat
  bytes : Vector UInt8 size

/-- A load into a buffer, from an offset on. -/
structure Load where
  buffer : Buffer
  offset : Nat
  answer : Loaded buffer.size

/-- What loads into one buffer after another give. -/
structure Loads (σ : Type) where
  /-- The loads, in order. -/
  made : List Load
  /-- The offset of the next load. -/
  offset : Nat
  /-- The state of the host. -/
  state : σ

/-- All that was copied. -/
def Loads.bytes {σ : Type} (loads : Loads σ) : Bytes :=
  (loads.made.map fun load => load.answer.chunk).flatten

/-- Loads into one buffer after another. The offset moves by what was copied. -/
def Host.loadAll {σ : Type} (host : Host σ) (item : Item) : List Buffer → Nat → σ → Loads σ
  | [], offset, s => ⟨[], offset, s⟩
  | buffer :: rest, offset, s =>
    let (answer, s') := host.load item buffer.bytes offset s
    let later := host.loadAll item rest (offset + answer.copied) s'
    { later with made := ⟨buffer, offset, answer⟩ :: later.made }

/-- The room in buffers. -/
def Buffer.room : List Buffer → Nat
  | [] => 0
  | buffer :: rest => buffer.size + room rest

/-! ## Partial loading -/

/-- What is put over the front of a buffer is cut to its size, and the rest of the buffer stays. -/
theorem toList_overlay {n : Nat} (buffer : Vector UInt8 n) (data : Bytes) :
    (overlay buffer data).toList = data.take n ++ buffer.toList.drop (min n data.length) := by
  have hlen : (buffer.toList.drop (min n data.length)).length = n - min n data.length := by
    rw [List.length_drop, Vector.length_toList]
  have hrest : (buffer.toArray.extract (min n data.length) n).toList
      = buffer.toList.drop (min n data.length) := by
    rw [Array.toList_extract, List.extract_eq_take_drop]
    exact List.take_of_length_le (Nat.le_of_eq hlen)
  show ((data.take n).toArray ++ buffer.toArray.extract (min n data.length) n).toList = _
  rw [Array.toList_append, hrest]

/-- Dropping more than everything drops everything. -/
theorem drop_min_length (data : Bytes) (n : Nat) : data.drop (min n data.length) = data.drop n := by
  rcases Nat.le_total n data.length with hle | hge
  · rw [Nat.min_eq_left hle]
  · rw [Nat.min_eq_right hge, List.drop_length, List.drop_eq_nil_of_le hge]

variable {data : Bytes} {offset n : Nat}

/-- A load from an offset inside the data, or at its end, says how much there is from there on, and
copies as much of it as there is room for. The buffer behind that stays. -/
theorem partialLoad_of_le (h : offset ≤ data.length) (buffer : Vector UInt8 n) :
    let answer := partialLoad data buffer offset
    answer.result = .ok (data.length - offset) ∧
      answer.copied = min (data.length - offset) n ∧
      answer.chunk = (data.drop offset).take n ∧
      answer.buffer.toList.drop answer.copied = buffer.toList.drop answer.copied := by
  intro answer
  have hanswer : answer = ⟨.ok (data.length - offset), overlay buffer (data.drop offset)⟩ := if_pos h
  have hcopied : answer.copied = min (data.length - offset) n := by rw [hanswer, Loaded.copied]
  have hlen : ((data.drop offset).take n).length = answer.copied := by
    rw [List.length_take, List.length_drop, hcopied, Nat.min_comm]
  have hbuffer : answer.buffer.toList
      = (data.drop offset).take n ++ buffer.toList.drop answer.copied := by
    rw [hcopied, Nat.min_comm, ← List.length_drop, hanswer, toList_overlay]
  refine ⟨by rw [hanswer], hcopied, ?_, ?_⟩
  · rw [Loaded.chunk, hbuffer, List.take_left' hlen]
  · rw [hbuffer, List.drop_left' hlen]

/-- A load at the end of the data copies nothing. -/
theorem partialLoad_length (data : Bytes) (buffer : Vector UInt8 n) :
    partialLoad data buffer data.length = ⟨.ok 0, buffer⟩ := by
  have hnothing : overlay buffer [] = buffer := by
    rw [← Vector.toList_inj, toList_overlay, List.take_nil, List.nil_append, List.length_nil,
      Nat.min_zero, List.drop_zero]
  rw [partialLoad, if_pos (Nat.le_refl _), Nat.sub_self, List.drop_length, hnothing]

/-! ## Local hosts -/

namespace LocalHost

/-- The bytes of an item, if the host has it. -/
def item? (h : LocalHost) : Item → Option Bytes
  | .script => some h.script
  | .data index => h.cells[index]?.map (·.data)

variable {h : LocalHost} {item : Item}

/-- A load from a local host is a partial load of the item, and changes nothing. -/
theorem load_eq (hitem : h.item? item = some data) (buffer : Vector UInt8 n) (offset : Nat) :
    host.load item buffer offset h = (partialLoad data buffer offset, h) := by
  cases item with
  | script =>
    obtain rfl := Option.some.inj hitem
    rfl
  | data index =>
    obtain ⟨c, hcell, rfl⟩ := Option.map_eq_some_iff.1 hitem
    simp only [Host.load, host, hcell]

/-- A load that was made as it should be of an item: from an offset inside it, or at its end, it
returned how much there is from there on, and behind what it copied it left the buffer as it was. -/
structure Sound (data : Bytes) (load : Load) : Prop where
  offset_le : load.offset ≤ data.length
  result_eq : load.answer.result = .ok (data.length - load.offset)
  drop_eq : load.answer.buffer.toList.drop load.answer.copied
    = load.buffer.bytes.toList.drop load.answer.copied

/-- Loads from an offset on copy the item from there on, as far as there is room. They are made into
all buffers, and end at the offset behind what they copied. -/
theorem loadAll_loads (hitem : h.item? item = some data) (buffers : List Buffer)
    (hoffset : offset ≤ data.length) :
    let loads := host.loadAll item buffers offset h
    loads.made.map Load.buffer = buffers ∧ (∀ load ∈ loads.made, Sound data load) ∧
      loads.bytes = (data.drop offset).take (Buffer.room buffers) ∧
      loads.offset = min (offset + Buffer.room buffers) data.length ∧ loads.state = h := by
  induction buffers generalizing offset with
  | nil =>
    refine ⟨rfl, nofun, ?_, ?_, rfl⟩
    · rw [Buffer.room, List.take_zero]
      rfl
    · exact (Nat.min_eq_left hoffset).symm
  | cons buffer rest ih =>
    obtain ⟨hresult, hcopied, hchunk, hbehind⟩ := partialLoad_of_le hoffset buffer.bytes
    have hnext : offset + (partialLoad data buffer.bytes offset).copied
        = min (offset + buffer.size) data.length := by
      rw [hcopied]
      omega
    obtain ⟨hbuffers, hsound, hbytes, hlast, hstate⟩ :=
      @ih (offset + (partialLoad data buffer.bytes offset).copied) (by omega)
    have hroom : Buffer.room (buffer :: rest) = buffer.size + Buffer.room rest := rfl
    simp only [Host.loadAll, load_eq hitem]
    refine ⟨by rw [List.map_cons, hbuffers], ?_, ?_, ?_, hstate⟩
    · rintro load (_ | ⟨_, hmem⟩)
      · exact ⟨hoffset, hresult, hbehind⟩
      · exact hsound load hmem
    · show (partialLoad data buffer.bytes offset).chunk ++ (host.loadAll item rest _ h).bytes = _
      -- Behind what was copied is what is behind all that there was room for.
      rw [hbytes, hchunk, hnext, drop_min_length, hroom, List.take_add, List.drop_drop]
    · rw [hlast, hnext, hroom]
      omega

/-- Loading piece by piece reconstructs the item. Whatever the buffers are, a load is made into each
of them, each returns how much there is from its offset on and leaves what is behind the copied
bytes, and what was copied is the front of the item that there is room for. With room for all of it,
it is the item, and further loads copy nothing. An empty buffer measures as much as any other, and
an offset behind the end is refused with the length of the item. -/
theorem loadAll_reconstructs (hitem : h.item? item = some data) (buffers : List Buffer) :
    let loads := host.loadAll item buffers 0 h
    (loads.made.map Load.buffer = buffers ∧ loads.state = h ∧
      (∀ load ∈ loads.made, Sound data load) ∧
      loads.bytes = data.take (Buffer.room buffers) ∧ loads.bytes <+: data ∧
      loads.offset = loads.bytes.length) ∧
    (data.length ≤ Buffer.room buffers → loads.bytes = data ∧
      ∀ buffer : Buffer,
        host.load item buffer.bytes loads.offset h = (⟨.ok 0, buffer.bytes⟩, h)) ∧
    (∀ (buffer : Buffer) (offset : Nat), offset ≤ data.length →
      (host.load item #v[] offset h).1.result = (host.load item buffer.bytes offset h).1.result) ∧
    ∀ (buffer : Buffer) (offset : Nat), data.length < offset →
      host.load item buffer.bytes offset h
        = (⟨.error (.lengthNotEnough data.length), buffer.bytes⟩, h) := by
  intro loads
  -- The loads begin at offset zero.
  obtain ⟨hmade, hsound, hbytes, hlast, hstate⟩ := loadAll_loads hitem buffers (Nat.zero_le _)
  rw [List.drop_zero] at hbytes
  rw [Nat.zero_add] at hlast
  refine ⟨⟨hmade, hstate, hsound, hbytes, ?_, ?_⟩, fun hroom => ⟨?_, fun buffer => ?_⟩,
    fun buffer offset hoffset => ?_, fun buffer offset hoffset => ?_⟩
  · rw [hbytes]
    exact List.take_prefix _ _
  · rw [hlast, hbytes, List.length_take]
  · rw [hbytes, List.take_of_length_le hroom]
  · rw [hlast, Nat.min_eq_right hroom, load_eq hitem, partialLoad_length]
  · rw [load_eq hitem, load_eq hitem]
    exact (partialLoad_of_le hoffset #v[]).1.trans (partialLoad_of_le hoffset buffer.bytes).1.symm
  · rw [load_eq hitem, partialLoad, if_neg (Nat.not_le.2 hoffset)]

/-- A host with ten bytes of data in its one cell. -/
def tenBytes : LocalHost := ⟨[], [⟨⟨Hash.zero, 0⟩, [0, 1, 2, 3, 4, 5, 6, 7, 8, 9], none⟩], []⟩

/-- The ten bytes come back from buffers of four, one and seven bytes. -/
theorem loadAll_reconstructs_tenBytes :
    tenBytes.item? (.data 0) = some [0, 1, 2, 3, 4, 5, 6, 7, 8, 9] ∧
      (host.loadAll (.data 0) [⟨4, #v[0, 0, 0, 0]⟩, ⟨1, #v[0]⟩, ⟨7, #v[0, 0, 0, 0, 0, 9, 9]⟩] 0
        tenBytes).bytes = [0, 1, 2, 3, 4, 5, 6, 7, 8, 9] :=
  ⟨rfl, ((loadAll_reconstructs rfl _).2.1 (by decide)).1⟩

end LocalHost

end HashLoader
