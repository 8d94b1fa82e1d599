import HashLoader.Proofs.Host.Persistence
import HashLoader.Proofs.Image.Search

/-!
# How much code a resolution takes

A resolution is given a capacity and puts the code into an arena of whole pages, so its limit is the
capacity rounded up to these (`resolve_keepsLimit`). Data that measure more are refused before the
host is asked to copy them, whatever it says of them afterwards. Between the capacity and the limit
there is one length that an image can have, which is the limit itself; for a capacity of whole pages
there is none.
-/

namespace HashLoader

variable {σ : Type} {C : Compiler} {host : Host σ} {r : CodeReference} {s : σ} {capacity : Nat}

/-- A resolution takes no more code than a limit. -/
structure Host.KeepsLimit (C : Compiler) (host : Host σ) (r : CodeReference)
    (capacity limit : Nat) (s : σ) : Prop where
  /-- Data that measure more are refused. The measure is the last that the host is asked for. -/
  refuses : ∀ {index len : Nat} {b : Vector UInt8 0} {s₁ s₂ : σ},
    locate host r s = (.found index, s₁) →
    host.loadData #v[] 0 index s₁ = (⟨.ok len, b⟩, s₂) → limit < len →
    resolve C host r capacity s = (.error (.codeTooLarge len limit), s₂) ∧
      resolutionDialogue C host r capacity s
        = host.queries r.hashType.field s (index + 1) ++ [.data 0 0 index (.ok len) []]
  /-- No image is longer. -/
  fits : ∀ image, (resolve C host r capacity s).1 = .ok image → image.len ≤ limit

/-- Authentic images fit the arena that is reserved for the capacity. -/
theorem CodeImage.Authentic.len_le {t : List Exchange} {image : CodeImage C}
    (h : image.Authentic r capacity t) : image.len ≤ alignUp capacity := by
  rw [← CodeArena.capacity_ofCapacity, ← (CodeArena.flat_write h.written).1]
  exact h.fits

/-- Data that measure more than the arena holds are not copied. -/
theorem resolve_of_measured {index len : Nat} {b : Vector UInt8 0} {s₁ s₂ : σ}
    (hlocate : locate host r s = (.found index, s₁))
    (hmeasure : host.loadData #v[] 0 index s₁ = (⟨.ok len, b⟩, s₂))
    (hlarge : alignUp capacity < len) :
    resolve C host r capacity s = (.error (.codeTooLarge len (alignUp capacity)), s₂) ∧
      resolutionDialogue C host r capacity s
        = host.queries r.hashType.field s (index + 1) ++ [.data 0 0 index (.ok len) []] := by
  constructor
  · rw [resolve, hlocate]
    exact CodeImage.load_of_measured r hmeasure hlarge
  · obtain ⟨hends, rfl⟩ := Host.endsAt_of_found hlocate
    have hfound : Search.ofAnswer index (host.answer r.hashType.field s index) = .found index := by
      rw [hends.locate_eq] at hlocate
      exact (Prod.mk.inj hlocate).1
    have hb : b.toList = [] := List.eq_nil_of_length_eq_zero (by simp)
    -- The same search and the same measure, with the questions on the record.
    rw [resolutionDialogue, resolve, hends.locate_recorded, hfound]
    show (CodeImage.load C host.recorded r capacity index _).2.2 = _
    rw [CodeImage.load_of_measured r (host.recorded_loadData #v[] 0 index _ _ hmeasure) hlarge, hb]

/-- For every host and every capacity, the limit of a resolution is the capacity rounded up to whole
pages. An image that is longer than the capacity fills the arena, and for a capacity of whole pages
no image is longer. -/
theorem resolve_keepsLimit (C : Compiler) (host : Host σ) (r : CodeReference) (capacity : Nat) (s : σ) :
    Host.KeepsLimit C host r capacity (alignUp capacity) s ∧
      (∀ image, (resolve C host r capacity s).1 = .ok image →
        image.len ≤ capacity ∨ image.len = alignUp capacity) ∧
      (pageSize ∣ capacity → Host.KeepsLimit C host r capacity capacity s) := by
  have hauthentic : ∀ image, (resolve C host r capacity s).1 = .ok image →
      image.Authentic r capacity (resolutionDialogue C host r capacity s) :=
    fun image => (resolutionDialogue_spec C host r capacity s).authentic
  have hlimit : Host.KeepsLimit C host r capacity (alignUp capacity) s :=
    ⟨resolve_of_measured, fun image himage => (hauthentic image himage).len_le⟩
  refine ⟨hlimit, fun image himage => ?_, fun haligned => ?_⟩
  · obtain hlt | hle := Nat.lt_or_ge capacity image.len
    · -- Whole pages above the capacity are not below the limit.
      exact .inr (Nat.le_antisymm (hlimit.fits image himage)
        (alignUp_le (Nat.le_of_lt hlt) (hauthentic image himage).aligned))
    · exact .inl hle
  · rwa [alignUp_of_dvd haligned] at hlimit

namespace LocalHost

/-- The page is found under its type script. -/
theorem locate_named : locate LocalHost.host (byType [0]) named = (.found 0, named) :=
  locate_of_first (by decide) firstAt_named

/-- It measures a page. -/
theorem measure_named :
    LocalHost.host.loadData #v[] 0 0 named = (⟨.ok 4096, #v[]⟩, named) := by
  have hempty : overlay #v[] page = #v[] := Vector.eq_empty
  rw [loadData_of_cell firstAt_named.cell, length_page, hempty]

/-- It is loaded into any arena that holds a page. -/
theorem resolve_named (capacity : Nat) (hfits : 4096 ≤ alignUp capacity) :
    ∃ image, resolve Wasm.interpreter.toCompiler LocalHost.host (byType [0]) capacity named
        = (.ok image, named) ∧
      image.len = 4096 := by
  obtain ⟨image, himage, hbytes⟩ := resolve_of_first (by decide) firstAt_named
    (by rwa [length_page]) (by rw [length_page]; rfl) exists_compile_page
  have hauthentic := (resolutionDialogue_spec Wasm.interpreter.toCompiler LocalHost.host
    (byType [0]) capacity named).authentic (congrArg Prod.fst himage)
  refine ⟨image, himage, ?_⟩
  rw [← hauthentic.length_bytes, hbytes, length_page]

end LocalHost

/-- A page is refused without a capacity, and is not copied then. It fills the arena for a capacity
of one byte. -/
theorem resolve_keepsLimit_named :
    resolve Wasm.interpreter.toCompiler LocalHost.host (LocalHost.byType [0]) 0 LocalHost.named
        = (.error (.codeTooLarge 4096 0), LocalHost.named) ∧
      resolutionDialogue Wasm.interpreter.toCompiler LocalHost.host (LocalHost.byType [0]) 0
          LocalHost.named
        = [.hash 0 .typeScript (.ok (some (digest [0]))), .data 0 0 0 (.ok 4096) []] ∧
      ∃ image, (resolve Wasm.interpreter.toCompiler LocalHost.host (LocalHost.byType [0]) 1
          LocalHost.named).1 = .ok image ∧
        image.len = alignUp 1 := by
  obtain ⟨image, himage, hlen⟩ := LocalHost.resolve_named 1 (by decide)
  obtain ⟨hlimit, -, -⟩ := resolve_keepsLimit Wasm.interpreter.toCompiler LocalHost.host
    (LocalHost.byType [0]) 0 LocalHost.named
  obtain ⟨hresult, hdialogue⟩ :=
    hlimit.refuses LocalHost.locate_named LocalHost.measure_named (by decide)
  obtain ⟨-, hfills, -⟩ := resolve_keepsLimit Wasm.interpreter.toCompiler LocalHost.host
    (LocalHost.byType [0]) 1 LocalHost.named
  have hlarge : ¬ image.len ≤ 1 := by omega
  exact ⟨hresult, hdialogue, image, congrArg Prod.fst himage,
    (hfills image (congrArg Prod.fst himage)).resolve_left hlarge⟩

/-- The capacity is not the limit: a page that was found and measured becomes an image for a
capacity of one byte. -/
theorem exists_image_above_capacity :
    locate LocalHost.host (LocalHost.byType [0]) LocalHost.named = (.found 0, LocalHost.named) ∧
      LocalHost.host.loadData #v[] 0 0 LocalHost.named = (⟨.ok 4096, #v[]⟩, LocalHost.named) ∧
      (∃ image, resolve Wasm.interpreter.toCompiler LocalHost.host (LocalHost.byType [0]) 1
          LocalHost.named = (.ok image, LocalHost.named) ∧ 1 < image.len) ∧
      ¬ Host.KeepsLimit Wasm.interpreter.toCompiler LocalHost.host (LocalHost.byType [0]) 1 1
          LocalHost.named := by
  obtain ⟨image, himage, hlen⟩ := LocalHost.resolve_named 1 (by decide)
  have hlarge : 1 < image.len := by omega
  refine ⟨LocalHost.locate_named, LocalHost.measure_named, ⟨image, himage, hlarge⟩, fun hlimit => ?_⟩
  exact Nat.not_lt.2 (hlimit.fits image (congrArg Prod.fst himage)) hlarge

end HashLoader
