import HashLoader.Proofs.Image.Resolve

/-!
# Resolved images are authentic

A host may answer the same question differently each time. `CodeImage.Authentic` ties an image to
the answers it came of: one hash that the host reported, one measure and one copy, all for the same
dependency, and the bytes of the copy are those that were hashed and those that were compiled.
-/

namespace HashLoader

variable {σ : Type} {C : Compiler} {r : CodeReference} {capacity : Nat} {t : List Exchange}
  {image : CodeImage C}

/-- An image is what a reference names, by the dialogue of its resolution. -/
structure CodeImage.Authentic (r : CodeReference) (capacity : Nat) (t : List Exchange)
    (image : CodeImage C) : Prop where
  /-- After hashes that were passed over, the host reported the code hash, in the field of the hash
  type, for the dependency whose data it then measured and copied. The window that it left is what
  the image consists of. -/
  dialogue : ∃ front index, t = front ++ [.hash index r.hashType.field (.ok (some r.codeHash)),
      .data 0 0 index (.ok image.len) [],
      .data image.len 0 index (.ok image.len) image.bytes] ∧
    front.length = index ∧
    ∀ x ∈ front, ∃ i a, x = .hash i r.hashType.field a ∧ Search.skips r.codeHash a = true
  /-- The copy was put into an arena of zeros, and nothing else was. -/
  written : (CodeArena.ofCapacity capacity).write 0 image.bytes = some image.arena
  /-- The bytes of the image can be viewed. -/
  view : image.arena.view 0 image.len = some image.bytes
  /-- There are as many as the image says. -/
  length_bytes : image.bytes.length = image.len
  /-- They are whole pages. -/
  aligned : pageSize ∣ image.len
  /-- They fit the arena. -/
  fits : image.len ≤ image.arena.capacity
  /-- The module was compiled from them. -/
  compiled : C.compile image.bytes = .ok image.module
  /-- If the hash covers the data, it is theirs. -/
  digest_bytes : r.hashType.isData = true → digest image.bytes = r.codeHash

/-- What stands in an arena becomes an image if it passes all tests. -/
theorem CodeImage.ofArena_eq_ok_iff {arena : CodeArena} {len : Nat} :
    CodeImage.ofArena C r arena len = .ok image ↔
      ∃ b m, arena.view 0 len = some b ∧
        (r.hashType.isData = true → r.codeHash.authenticates b = true) ∧
        isPageAligned len = true ∧ C.compile b = .ok m ∧ image = ⟨arena, len, m⟩ := by
  unfold ofArena
  constructor
  · intro h
    -- Each test either ends in a failure or gives what it has shown.
    split at h
    · cases h
    · next b hview =>
      split at h
      · cases h
      · next hauth =>
        split at h
        · cases h
        · next haligned =>
          split at h
          · cases h
          · next m hmodule =>
            refine ⟨b, m, hview, fun hdata => ?_, by simpa using haligned, hmodule,
              (Except.ok.inj h).symm⟩
            rw [hdata] at hauth
            simpa using hauth
  · rintro ⟨b, m, hview, hauth, haligned, hmodule, rfl⟩
    have hpass : ¬ (r.hashType.isData && !r.codeHash.authenticates b) = true := by
      cases hdata : r.hashType.isData with
      | false => simp
      | true => simp [hauth hdata]
    simp only [hview, if_neg hpass, haligned, hmodule, Bool.not_true, if_neg Bool.false_ne_true]

/-- A resolution that succeeds gives an authentic image. -/
theorem ResolveDialogue.authentic {result : Except LoaderError (CodeImage C)}
    (h : ResolveDialogue r capacity t result) (hresult : result = .ok image) :
    image.Authentic r capacity t := by
  cases h with
  | refused | missing => cases hresult
  | @found t u index result hsearch hload =>
    cases hload with
    | unmeasured | tooLarge | uncopied | resized => cases hresult
    | @copied len window arena result hfits hlength hwrite hofArena =>
      rw [hresult] at hofArena
      obtain ⟨b, m, hview, hauth, haligned, hmodule, rfl⟩ := CodeImage.ofArena_eq_ok_iff.1 hofArena
      -- What is viewed in the arena is what was written to it, which is what the host copied.
      have hwindow : arena.view 0 len = some window := by
        rw [← hlength]
        exact CodeArena.view_write hwrite
      obtain rfl : b = window := Option.some.inj (hview.symm.trans hwindow)
      have hbytes : CodeImage.bytes (C := C) ⟨arena, len, m⟩ = b := by
        rw [CodeImage.bytes, hview, Option.getD_some]
      obtain ⟨front, rfl, hindex, hfront⟩ := hsearch.of_found
      rw [Nat.zero_add] at hindex
      exact
        { dialogue := ⟨front, index, by rw [hbytes, List.append_assoc]; rfl, hindex, hfront⟩
          written := by rw [hbytes]; exact hwrite
          view := by rw [hbytes]; exact hview
          length_bytes := by rw [hbytes]; exact hlength
          aligned := Nat.dvd_of_mod_eq_zero (of_decide_eq_true haligned)
          fits := by
            show len ≤ arena.capacity
            rw [(CodeArena.flat_write hwrite).1, CodeArena.capacity_ofCapacity]
            exact hfits
          compiled := by rw [hbytes]; exact hmodule
          digest_bytes := fun hdata => by rw [hbytes]; exact eq_of_beq (hauth hdata) }

/-- All that is said between a resolution and its host. -/
def resolutionDialogue (C : Compiler) (host : Host σ) (r : CodeReference) (capacity : Nat) (s : σ) :
    List Exchange :=
  (resolve C host.recorded r capacity (s, [])).2.2

/-- A resolution goes one of the ways and gives what the way gives. -/
theorem resolutionDialogue_spec (C : Compiler) (host : Host σ) (r : CodeReference) (capacity : Nat)
    (s : σ) :
    ResolveDialogue r capacity (resolutionDialogue C host r capacity s)
      (resolve C host r capacity s).1 := by
  obtain ⟨hsame, -⟩ :=
    host.recorded_simulates.agreesOnCells.resolve r capacity (s := (s, [])) (t := s) rfl
  obtain ⟨u, hu, hdialogue⟩ := resolve_dialogue host r capacity s []
  rw [hsame] at hdialogue
  rw [resolutionDialogue, hu, List.nil_append]
  exact hdialogue

end HashLoader
