import Mathlib.Data.List.Find
import HashLoader.Image.Padding
import HashLoader.Proofs.Host.Deployment
import HashLoader.Proofs.Invocation.FlatReading

/-!
# Which code a script for a cell runs

Who deploys code names it by out point, and the loader searches for it by hash. A script for a cell
carries the hash that the cell has (`scriptFor_eq_some_iff`), so it is resolved to the first cell
with that hash. `data_eq_iff` says when this first cell holds the same data. If the hash covers the
data it always does. If it covers the type script, it need not: nothing keeps other code from being
deployed under the same type script, and the first cell with it is what every such script runs.

All this is as good as the hash. `CollisionFree` says of byte strings that their hashes tell them
apart.
-/

namespace HashLoader

/-- Different byte strings of a list have different hashes. -/
def CollisionFree (l : List Bytes) : Prop := ∀ x ∈ l, ∀ y ∈ l, digest x = digest y → x = y

instance : DecidablePred CollisionFree := fun l =>
  inferInstanceAs (Decidable (∀ x ∈ l, ∀ y ∈ l, digest x = digest y → x = y))

namespace LocalHost

variable {h : LocalHost} {o : OutPoint} {c first : Cell} {t : HashType} {hash : Hash} {index : Nat}
  {input script : Bytes}

/-! ## The script -/

/-- A script is one of the loader, with arguments that consist of a reference and a payload. -/
def Carries (script : Bytes) (r : CodeReference) (input : Bytes) : Prop :=
  ∃ record, Record.Script.verify script = .ok record ∧
    CodeReference.decode record.args.bytes = .ok r ∧ CodeReference.payload record.args.bytes = input

/-- A script carries one reference. -/
theorem Carries.unique {r r' : CodeReference} {input' : Bytes} (hcarries : Carries script r input)
    (hother : Carries script r' input') : r = r' := by
  obtain ⟨record, hverify, hdecode, -⟩ := hcarries
  obtain ⟨record', hverify', hdecode', -⟩ := hother
  obtain rfl : record = record' := Except.ok.inj (hverify.symm.trans hverify')
  exact Except.ok.inj (hdecode.symm.trans hdecode')

/-- The record of any code hash and hash type carries what its arguments say. -/
theorem carries_layout (codeHash : Hash) (hashType : UInt8) (r : CodeReference)
    (hlength : input.length + 79 ≤ Record.maxLength) :
    Carries (Record.ScriptFields.layout ⟨codeHash, hashType, r.encode input⟩) r input := by
  have hargs : (r.encode input).length + 44 ≤ Record.maxLength := by
    rw [CodeReference.length_encode]
    exact hlength
  exact ⟨⟨codeHash, hashType, ⟨49, r.encode input⟩⟩,
    Record.Script.verify_eq_ok_iff.2 ⟨hargs, rfl, rfl⟩, CodeReference.decode_encode r input,
    CodeReference.payload_encode r input⟩

/-- A script that is made for a hash carries the hash. -/
theorem carries_of_scriptWithCodeHash (hscript : scriptWithCodeHash hash t input = .ok script) :
    Carries script ⟨(0, 0), hash, t⟩ input := by
  obtain ⟨hlength, rfl⟩ := scriptWithCodeHash_eq_ok_iff.1 hscript
  exact carries_layout loaderCodeHash HashType.data1.toByte ⟨(0, 0), hash, t⟩ hlength

/-- A script that is made for a cell is made for the hash that the cell has in the field of the
type. -/
theorem scriptFor_eq_some_iff : h.scriptFor o t input = .ok (some script) ↔
    ∃ c hash, h.cell? o = some c ∧ c.hash? t.field = some hash ∧
      scriptWithCodeHash hash t input = .ok script := by
  unfold scriptFor codeHash?
  cases h.cell? o with
  | none => simp
  | some c =>
    rw [Option.bind_some]
    cases hhash : c.hash? t.field with
    | none => simp [hhash]
    | some hash => simp [map_eq_ok_iff, hhash]

/-- It is made if there is the cell, the cell has a hash in the field, and the payload is not too
long for any record. -/
theorem exists_scriptFor (hcell : h.cell? o = some c) (hhash : c.hash? t.field = some hash)
    (hfits : input.length + 79 ≤ Record.maxLength) :
    ∃ script, h.scriptFor o t input = .ok (some script) :=
  ⟨_, scriptFor_eq_some_iff.2
    ⟨c, hash, hcell, hhash, scriptWithCodeHash_eq_ok_iff.2 ⟨hfits, rfl⟩⟩⟩

/-! ## The first cell with its hash -/

/-- The data of the first cell with a type script, if there is one. -/
def firstTyped? (h : LocalHost) (typeScript : Option Bytes) : Option Bytes :=
  (h.cells.find? fun c => c.typeScript == typeScript).map (·.data)

/-- If the hashes of the type scripts tell them apart, the first cell with the hash of a type script
is the first cell with the type script. -/
theorem firstTyped?_eq (htypes : CollisionFree (h.cells.filterMap (·.typeScript))) (hc : c ∈ h.cells)
    (hhash : c.hash? .typeScript = some hash) (hfirst : h.FirstAt .typeScript hash index first) :
    h.firstTyped? c.typeScript = some first.data := by
  obtain ⟨typeScript, htype, rfl⟩ := Option.map_eq_some_iff.1 hhash
  have hmem : ∀ {c : Cell} {b : Bytes}, c ∈ h.cells → c.typeScript = some b →
      b ∈ h.cells.filterMap (·.typeScript) :=
    fun hc hb => List.mem_filterMap.2 ⟨_, hc, hb⟩
  have hsame : ∀ c' ∈ h.cells,
      (c'.typeScript == c.typeScript) = (c'.hash? .typeScript == some (digest typeScript)) := by
    intro c' hc'
    rw [htype]
    cases htype' : c'.typeScript with
    | none => simp [Cell.hash?, htype']
    | some typeScript' =>
      have hiff : typeScript' = typeScript ↔ digest typeScript' = digest typeScript :=
        ⟨congrArg digest, htypes _ (hmem hc' htype') _ (hmem hc htype)⟩
      simp [Cell.hash?, htype', hiff]
  rw [firstTyped?, List.find?_congr hsame, find?_eq_some_iff_firstAt.2 ⟨index, hfirst⟩,
    Option.map_some]

/-- The first cell with the hash of a cell holds the same data, if the hash covers the data, and
otherwise if the first cell with the same type script does. -/
theorem data_eq_iff (hdata : CollisionFree (h.cells.map (·.data)))
    (htypes : CollisionFree (h.cells.filterMap (·.typeScript))) (hc : c ∈ h.cells)
    (hhash : c.hash? t.field = some hash) (hfirst : h.FirstAt t.field hash index first) :
    first.data = c.data ↔ t.isData = true ∨ h.firstTyped? c.typeScript = some c.data := by
  cases hcovers : t.isData with
  | true =>
    have hfield : t.field = .data := if_pos hcovers
    rw [hfield] at hhash hfirst
    have hmem : first ∈ h.cells := List.mem_of_getElem? hfirst.cell
    have heq : digest first.data = digest c.data :=
      Option.some.inj (hfirst.hash_eq.trans hhash.symm)
    exact ⟨fun _ => .inl rfl,
      fun _ => hdata _ (List.mem_map_of_mem hmem) _ (List.mem_map_of_mem hc) heq⟩
  | false =>
    have hfield : t.field = .typeScript := if_neg (by rw [hcovers]; exact Bool.false_ne_true)
    rw [hfield] at hhash hfirst
    rw [firstTyped?_eq htypes hc hhash hfirst]
    simp

/-! ## What a script for a cell runs -/

/-- A script for a cell is one of the loader and carries a reference and the payload. If the cell
holds whole pages that compile and fit the arena, the reference is resolved to just the data of
the cell, provided that it names the data, or else that the first cell with the type script of the
cell holds the same data. Otherwise it is not. -/
theorem resolve_scriptFor (C : Compiler) (hdata : CollisionFree (h.cells.map (·.data)))
    (htypes : CollisionFree (h.cells.filterMap (·.typeScript)))
    (hroom : h.cells.length < indexCount) (hscript : h.scriptFor o t input = .ok (some script)) :
    ∃ c r, h.cell? o = some c ∧ Carries script r input ∧
      ∀ capacity, c.data.length ≤ capacity → isPageAligned c.data.length = true →
        (∃ m, C.compile c.data = .ok m) →
        ((∃ image, resolve C LocalHost.host r capacity h = (.ok image, h) ∧
            h.data? o = some image.bytes) ↔
          t.isData = true ∨ h.firstTyped? c.typeScript = some c.data) := by
  obtain ⟨c, hash, hcell, hhash, hmade⟩ := scriptFor_eq_some_iff.1 hscript
  have hc : c ∈ h.cells := List.mem_of_find?_eq_some hcell
  obtain ⟨index, first, hfirst⟩ := exists_firstAt hc hhash
  have hdata? : h.data? o = some c.data := by rw [data?, hcell, Option.map_some]
  refine ⟨c, _, hcell, carries_of_scriptWithCodeHash hmade, fun capacity hfits haligned hmodule => ?_⟩
  -- The first cell with the hash is resolved, so all depends on whether it holds the same data.
  rw [hdata?, ← data_eq_iff hdata htypes hc hhash hfirst]
  constructor
  · rintro ⟨image, himage, heq⟩
    rw [← bytes_of_resolve hroom hfirst himage]
    exact (Option.some.inj heq).symm
  · intro heq
    rw [← heq] at hfits haligned hmodule ⊢
    have hlarge : first.data.length ≤ alignUp capacity := hfits.trans (le_alignUp capacity)
    obtain ⟨image, himage, hbytes⟩ :=
      resolve_of_first (r := ⟨(0, 0), hash, t⟩) hroom hfirst hlarge haligned hmodule
    exact ⟨image, himage, congrArg some hbytes.symm⟩

/-- A page that is a module. -/
def page : Bytes := Padding.pad [0x00, 0x61, 0x73, 0x6d, 0x01, 0x00, 0x00, 0x00]

theorem length_page : page.length = 4096 := by decide +kernel

/-- It compiles. -/
theorem exists_compile_page : ∃ m, Wasm.interpreter.compile page = .ok m := by
  have hmodule : (Wasm.interpreter.compile page).toOption.isSome = true := by decide +kernel
  obtain ⟨m, hm⟩ := Option.isSome_iff_exists.1 hmodule
  exact ⟨m, toOption_eq_some_iff.1 hm⟩

/-- The page, deployed twice under different type scripts. -/
def twoTypes : LocalHost :=
  empty.run [.deployTyped (.replicate 1) page [0], .deployTyped (.replicate 2) page [1]]

/-- A script for the second cell by its type script is resolved to its page. -/
theorem resolve_scriptFor_twoTypes :
    CollisionFree (twoTypes.cells.map (·.data)) ∧
      CollisionFree (twoTypes.cells.filterMap (·.typeScript)) ∧
      twoTypes.cells.length < indexCount ∧
      ∃ script r image, twoTypes.scriptFor ⟨.replicate 2, 0⟩ .typeScript [] = .ok (some script) ∧
        Carries script r [] ∧
        resolve Wasm.interpreter.toCompiler LocalHost.host r 4096 twoTypes = (.ok image, twoTypes) ∧
        image.bytes = page := by
  have hdata : CollisionFree (twoTypes.cells.map (·.data)) := by
    show CollisionFree [page, page]
    simp [CollisionFree]
  have htypes : CollisionFree (twoTypes.cells.filterMap (·.typeScript)) := by
    show CollisionFree [[0], [1]]
    decide +kernel
  have hroom : twoTypes.cells.length < indexCount := by decide +kernel
  have hcell : twoTypes.cell? ⟨.replicate 2, 0⟩ = some ⟨⟨.replicate 2, 0⟩, page, some [1]⟩ := rfl
  have hmade : ∃ script, twoTypes.scriptFor ⟨.replicate 2, 0⟩ .typeScript [] = .ok (some script) :=
    exists_scriptFor hcell rfl (by decide)
  obtain ⟨script, hscript⟩ := hmade
  obtain ⟨c, r, hc, hcarries, hruns⟩ :=
    resolve_scriptFor Wasm.interpreter.toCompiler hdata htypes hroom hscript
  obtain rfl := Option.some.inj (hcell.symm.trans hc)
  obtain ⟨image, himage, hbytes⟩ := (hruns 4096 (Nat.le_of_eq length_page)
    (by rw [length_page]; rfl) exists_compile_page).2 (.inr rfl)
  exact ⟨hdata, htypes, hroom, script, r, image, hscript, hcarries, himage,
    (Option.some.inj hbytes).symm⟩

/-- The byte strings that a command deploys. -/
def Command.strings : Command → List Bytes
  | .deploy _ data => [data]
  | .deployTyped _ data typeScript => [data, typeScript]
  | .setScript _ => []

/-- A byte whose hash is not the one of the page. -/
theorem exists_byte_digest_ne : ∃ b : UInt8, digest [b] ≠ digest page := by
  have hne : digest [0] ≠ digest [1] := by decide +kernel
  by_cases heq : digest [0] = digest page
  · exact ⟨1, fun heq' => hne (heq.trans heq'.symm)⟩
  · exact ⟨0, heq⟩

/-- Without a condition on the type script, a script for a cell need not be resolved to the data of
the cell, not even if no hashes collide: here, a cell with one byte comes first under the type
script of the page. -/
theorem not_resolve_of_shared_type : ¬ ∀ (commands : List Command) (o : OutPoint) (t : HashType)
    (input script data : Bytes) (capacity : Nat),
    (empty.run commands).Distinct → CollisionFree (commands.flatMap Command.strings) →
    (∃ front command back, commands = front ++ command :: back ∧
      (empty.run front).answer? command = some o) →
    (empty.run commands).scriptFor o t input = .ok (some script) →
    (empty.run commands).data? o = some data → isPageAligned capacity = true →
    data.length ≤ capacity → isPageAligned data.length = true →
    (∃ m, Wasm.interpreter.compile data = .ok m) →
    ∃ r image, Carries script r input ∧
      resolve Wasm.interpreter.toCompiler LocalHost.host r capacity (empty.run commands)
        = (.ok image, empty.run commands) ∧
      image.bytes = data := by
  intro hall
  obtain ⟨b, hb⟩ := exists_byte_digest_ne
  let commands : List Command :=
    [.deployTyped (.replicate 1) [b] [b], .deployTyped (.replicate 2) page [b]]
  have hdistinct : (empty.run commands).Distinct := by
    show [Hash.replicate 1, Hash.replicate 2].Nodup
    decide
  have hfree : CollisionFree (commands.flatMap Command.strings) := by
    show CollisionFree [[b], [b], page, [b]]
    simp [CollisionFree, hb, hb.symm]
  have hcell : (empty.run commands).cell? ⟨.replicate 2, 0⟩
      = some ⟨⟨.replicate 2, 0⟩, page, some [b]⟩ := rfl
  have hmade : ∃ script, (empty.run commands).scriptFor ⟨.replicate 2, 0⟩ .typeScript []
      = .ok (some script) := exists_scriptFor hcell rfl (by decide)
  obtain ⟨script, hscript⟩ := hmade
  obtain ⟨r, image, hcarries, himage, hbytes⟩ := hall commands ⟨.replicate 2, 0⟩ .typeScript [] script
    page 4096 hdistinct hfree ⟨[.deployTyped (.replicate 1) [b] [b]], _, [], rfl, rfl⟩ hscript
    (by rw [data?, hcell, Option.map_some]) rfl (Nat.le_of_eq length_page)
    (by rw [length_page]; rfl) exists_compile_page
  -- The reference carries the hash of the type script, which the first cell has as well.
  obtain ⟨c, hash, hc, hhash, hmade⟩ := scriptFor_eq_some_iff.1 hscript
  obtain rfl := Option.some.inj (hcell.symm.trans hc)
  obtain rfl : digest [b] = hash := Option.some.inj hhash
  obtain rfl := hcarries.unique (carries_of_scriptWithCodeHash hmade)
  have hfirst : (empty.run commands).FirstAt .typeScript (digest [b]) 0
      ⟨⟨.replicate 1, 0⟩, [b], some [b]⟩ := ⟨rfl, rfl, fun _ _ hlt => absurd hlt (Nat.not_lt_zero _)⟩
  have hroom : (empty.run commands).cells.length < indexCount := by
    show 2 < indexCount
    decide
  have hbyte : image.bytes = [b] :=
    bytes_of_resolve (r := ⟨(0, 0), digest [b], .typeScript⟩) hroom hfirst himage
  have hlength := congrArg List.length (hbytes.symm.trans hbyte)
  rw [length_page] at hlength
  cases hlength

end LocalHost

end HashLoader
