import HashLoader.Proofs.Host.Addressing

/-!
# Deployments do not change what a reference means

A reference is resolved to the first cell with its code hash, and what comes of that depends on
nothing but the data of the cell and the capacity of the arena: `Cell.Gives` says what it is, and
`resolve_cases` that every resolution on a local host either gives this or finds no cell.

Deployments only put cells behind the others, so the cell that was the first with a hash stays the
first (`FirstAt.extended`), and a cell that becomes the first was deployed later. `resolve_run` says
what both mean for a reference: what it gave once it gives for good, and nobody can put other code
in the place of code that it already names.

There may be more cells than a search can count. What lies behind is never found, before or after.
-/

namespace HashLoader

/-- What comes of loading the data of a cell into an arena of a capacity, whichever reference led
there. -/
inductive Cell.Gives {C : Compiler} (c : Cell) (capacity : Nat) :
    Except LoaderError (CodeImage C) → Prop
  | tooLarge : alignUp capacity < c.data.length →
      Gives c capacity (.error (.codeTooLarge c.data.length (alignUp capacity)))
  | unaligned : c.data.length ≤ alignUp capacity → isPageAligned c.data.length = false →
      Gives c capacity (.error (.malformedImage c.data.length))
  | invalid {reason : String} : c.data.length ≤ alignUp capacity →
      isPageAligned c.data.length = true → C.compile c.data = .error reason →
      Gives c capacity (.error (.cannotLoad reason))
  | image {arena : CodeArena} {m : C.Module} :
      (CodeArena.ofCapacity capacity).write 0 c.data = some arena →
      isPageAligned c.data.length = true → C.compile c.data = .ok m →
      Gives c capacity (.ok ⟨arena, c.data.length, m⟩)

/-- Data that were put into an arena fit it. -/
theorem CodeArena.length_le_of_write {capacity : Nat} {data : Bytes} {arena : CodeArena}
    (hwrite : (ofCapacity capacity).write 0 data = some arena) :
    data.length ≤ alignUp capacity := by
  have hfits := write_isSome_iff.1 (Option.isSome_of_eq_some hwrite)
  rwa [capacity_ofCapacity, Nat.zero_add] at hfits

namespace Cell.Gives

variable {C : Compiler} {c : Cell} {capacity : Nat} {result other : Except LoaderError (CodeImage C)}

/-- A cell gives one thing. -/
theorem unique (hresult : c.Gives capacity result) (hother : c.Gives capacity other) :
    result = other := by
  -- Two different ways contradict each other in the first test in which they differ.
  cases hresult with
  | tooLarge hlarge =>
    cases hother with
    | tooLarge => rfl
    | unaligned hfits | invalid hfits => omega
    | image hwrite =>
      have hfits := CodeArena.length_le_of_write hwrite
      omega
  | unaligned hfits hunaligned =>
    cases hother with
    | tooLarge hlarge => omega
    | unaligned => rfl
    | invalid _ haligned | image _ haligned => cases hunaligned.symm.trans haligned
  | invalid hfits haligned hmodule =>
    cases hother with
    | tooLarge hlarge => omega
    | unaligned _ hunaligned => cases hunaligned.symm.trans haligned
    | invalid _ _ hother =>
      cases hmodule.symm.trans hother
      rfl
    | image _ _ hother => cases hmodule.symm.trans hother
  | @image arena m hwrite haligned hmodule =>
    have hfits := CodeArena.length_le_of_write hwrite
    cases hother with
    | tooLarge hlarge => omega
    | unaligned _ hunaligned => cases hunaligned.symm.trans haligned
    | invalid _ _ hother => cases hmodule.symm.trans hother
    | image hwrite' _ hmodule' =>
      cases hwrite.symm.trans hwrite'
      cases hmodule.symm.trans hmodule'
      rfl

/-- A cell that was found is not missing. -/
theorem ne_codeNotFound (hresult : c.Gives capacity result) (hash : Hash) :
    result ≠ .error (.codeNotFound hash) := by
  cases hresult <;> nofun

/-- The bytes of an image are the data of the cell. -/
theorem bytes_eq {image : CodeImage C} (hresult : c.Gives capacity (.ok image)) :
    image.bytes = c.data := by
  cases hresult with
  | image hwrite => rw [CodeImage.bytes, CodeArena.view_write hwrite, Option.getD_some]

end Cell.Gives

namespace LocalHost

variable {C : Compiler} {h h' : LocalHost} {field : HashField} {hash : Hash} {r : CodeReference}
  {index capacity : Nat} {c : Cell}

/-! ## Every resolution -/

/-- A cell that has the code hash of a reference passes the test of the hash. -/
theorem authenticates_of_hash? (hhash : c.hash? r.hashType.field = some r.codeHash) :
    (r.hashType.isData && !r.codeHash.authenticates c.data) = false := by
  cases hdata : r.hashType.isData with
  | false => rfl
  | true =>
    rw [HashType.field, if_pos hdata] at hhash
    have hauth : r.codeHash.authenticates c.data = true := beq_of_eq (Option.some.inj hhash)
    rw [hauth]
    rfl

/-- Loading the cell that a reference names gives what the cell gives. -/
theorem load_gives (C : Compiler) (r : CodeReference) (capacity : Nat)
    (hcell : h.cells[index]? = some c) (hhash : c.hash? r.hashType.field = some r.codeHash) :
    ∃ result, CodeImage.load C LocalHost.host r capacity index h = (result, h) ∧
      c.Gives capacity result := by
  rcases Nat.lt_or_ge (alignUp capacity) c.data.length with hlarge | hfits
  · exact ⟨_, load_of_large hcell hlarge, .tooLarge hlarge⟩
  · obtain ⟨arena, hwrite, hload⟩ := load_of_fits (C := C) (r := r) hcell hfits
    refine ⟨_, hload, ?_⟩
    unfold CodeImage.ofArena
    simp only [CodeArena.view_write hwrite, authenticates_of_hash? hhash, Bool.false_eq_true,
      if_false]
    cases haligned : isPageAligned c.data.length with
    | false => exact .unaligned hfits haligned
    | true =>
      cases hmodule : C.compile c.data with
      | error reason => exact .invalid hfits haligned hmodule
      | ok m => exact .image hwrite haligned hmodule

/-- A search that passes over all cells that it can count finds none. -/
theorem locate_of_uncounted (hmissing : ∀ j c, j < indexCount → h.cells[j]? = some c →
      c.hash? r.hashType.field ≠ some r.codeHash) :
    locate LocalHost.host r h = (.absent, h) ∨ locate LocalHost.host r h = (.endless, h) := by
  rcases Nat.lt_or_ge h.cells.length indexCount with hroom | hfull
  · refine .inl (locate_of_missing hroom fun c hc => ?_)
    obtain ⟨j, hj, rfl⟩ := List.getElem_of_mem hc
    exact hmissing j _ (Nat.lt_trans hj hroom) (List.getElem?_eq_getElem hj)
  · have hpassed : ∀ j < indexCount,
        Search.skips r.codeHash (LocalHost.host.answer r.hashType.field h j) = true := by
      intro j hj
      have hcell := List.getElem?_eq_getElem (Nat.lt_of_lt_of_le hj hfull)
      exact skips_of_ne hcell (hmissing j _ hj hcell)
    right
    rw [locate_of_passed (Nat.le_refl _) hpassed, locateFrom, if_neg (Nat.lt_irrefl _), asked_host]

/-- A reference is resolved to what the first cell with its code hash gives, if the search can count
that far, and to nothing else: without such a cell the code is not found. -/
theorem resolve_cases (C : Compiler) (h : LocalHost) (r : CodeReference) (capacity : Nat) :
    ∃ result, resolve C LocalHost.host r capacity h = (result, h) ∧
      ((∃ index c, index < indexCount ∧ h.FirstAt r.hashType.field r.codeHash index c ∧
          c.Gives capacity result) ∨
        (result = .error (.codeNotFound r.codeHash) ∧
          ∀ index c, index < indexCount → h.cells[index]? = some c →
            c.hash? r.hashType.field ≠ some r.codeHash)) := by
  by_cases hcounted : ∃ index c, index < indexCount ∧
      h.FirstAt r.hashType.field r.codeHash index c
  · obtain ⟨index, c, hindex, hfirst⟩ := hcounted
    obtain ⟨result, hload, hgives⟩ := load_gives C r capacity hfirst.cell hfirst.hash_eq
    refine ⟨result, ?_, .inl ⟨index, c, hindex, hfirst, hgives⟩⟩
    rw [resolve, locate_of_counted hindex hfirst]
    exact hload
  · have hmissing : ∀ j c, j < indexCount → h.cells[j]? = some c →
        c.hash? r.hashType.field ≠ some r.codeHash := by
      intro j c hj hcell hhash
      -- Some cell up to this one is the first, and the search can count as far.
      obtain ⟨index, first, hfirst⟩ := exists_firstAt (List.mem_of_getElem? hcell) hhash
      refine hcounted ⟨index, first, ?_, hfirst⟩
      by_contra hlate
      exact hfirst.before j c (by omega) hcell hhash
    refine ⟨_, ?_, .inr ⟨rfl, hmissing⟩⟩
    rw [resolve]
    obtain hend | hend := locate_of_uncounted hmissing
    · rw [hend]
    · rw [hend]

/-! ## More cells -/

/-- Cells keep their indices when others are put behind them. -/
theorem getElem?_of_extended (hextended : h.cells <+: h'.cells) (hcell : h.cells[index]? = some c) :
    h'.cells[index]? = some c := by
  obtain ⟨hindex, -⟩ := List.getElem?_eq_some_iff.1 hcell
  obtain ⟨later, hcells⟩ := hextended
  rw [← hcells, List.getElem?_append_left hindex]
  exact hcell

/-- The first cell with a hash stays the first when others are put behind. -/
theorem FirstAt.extended (hextended : h.cells <+: h'.cells) (hfirst : h.FirstAt field hash index c) :
    h'.FirstAt field hash index c where
  cell := getElem?_of_extended hextended hfirst.cell
  hash_eq := hfirst.hash_eq
  before j c' hj hcell' := by
    have hold : j < h.cells.length := Nat.lt_trans hj hfirst.lt_length
    have hcell := getElem?_of_extended hextended (List.getElem?_eq_getElem hold)
    obtain rfl : h.cells[j] = c' := Option.some.inj (hcell.symm.trans hcell')
    exact hfirst.before j _ hj (List.getElem?_eq_getElem hold)

/-- Only one cell is the first with a hash. -/
theorem FirstAt.unique {index' : Nat} {c' : Cell} (hfirst : h.FirstAt field hash index c)
    (hother : h.FirstAt field hash index' c') : index = index' ∧ c = c' := by
  have hindex : index = index' := by
    rcases Nat.lt_trichotomy index index' with hlt | heq | hgt
    · exact absurd hfirst.hash_eq (hother.before index c hlt hfirst.cell)
    · exact heq
    · exact absurd hother.hash_eq (hfirst.before index' c' hgt hother.cell)
  subst hindex
  exact ⟨rfl, Option.some.inj (hfirst.cell.symm.trans hother.cell)⟩

/-- What a reference gives before and after deployments. If it names code before, it names the same
cell afterwards and gives the same image or the same error. If it names code only afterwards, this
is a cell that was deployed in between. -/
theorem resolve_run (C : Compiler) (h : LocalHost) (commands : List Command) (r : CodeReference)
    (capacity : Nat) :
    ∃ before after, resolve C LocalHost.host r capacity h = (before, h) ∧
      resolve C LocalHost.host r capacity (h.run commands) = (after, h.run commands) ∧
      (before ≠ .error (.codeNotFound r.codeHash) → after = before ∧
        ∃ index c, h.FirstAt r.hashType.field r.codeHash index c ∧
          (h.run commands).FirstAt r.hashType.field r.codeHash index c ∧ c.Gives capacity after) ∧
      (before = .error (.codeNotFound r.codeHash) → after ≠ .error (.codeNotFound r.codeHash) →
        ∃ index c, h.cells.length ≤ index ∧
          (h.run commands).FirstAt r.hashType.field r.codeHash index c ∧ c.Gives capacity after) := by
  have hextended := cells_prefix_run h commands
  obtain ⟨before, hbefore, hcases⟩ := resolve_cases C h r capacity
  obtain ⟨after, hafter, hcases'⟩ := resolve_cases C (h.run commands) r capacity
  refine ⟨before, after, hbefore, hafter, fun hfound => ?_, fun hmissed hfound => ?_⟩
  · obtain ⟨index, c, hindex, hfirst, hgives⟩ | ⟨hnone, -⟩ := hcases
    · have hstays := hfirst.extended hextended
      obtain ⟨index', c', -, hfirst', hgives'⟩ | ⟨-, hmissing⟩ := hcases'
      · obtain ⟨rfl, rfl⟩ := hstays.unique hfirst'
        exact ⟨hgives'.unique hgives, index, c, hfirst, hstays, hgives'⟩
      · exact absurd hfirst.hash_eq (hmissing index c hindex hstays.cell)
    · exact absurd hnone hfound
  · obtain ⟨index, c, -, -, hgives⟩ | ⟨-, hmissing⟩ := hcases
    · exact absurd hmissed (hgives.ne_codeNotFound _)
    · obtain ⟨index, c, hindex, hfirst, hgives⟩ | ⟨hnone, -⟩ := hcases'
      · refine ⟨index, c, ?_, hfirst, hgives⟩
        -- Were the cell an old one, the search would have found it before.
        by_contra hold
        have hcell := List.getElem?_eq_getElem (Nat.lt_of_not_le hold)
        obtain rfl := Option.some.inj
          ((getElem?_of_extended hextended hcell).symm.trans hfirst.cell)
        exact hmissing index _ hindex hcell hfirst.hash_eq
      · exact absurd hnone hfound

/-- A page under a type script. -/
def named : LocalHost := empty.run [.deployTyped (.replicate 1) page [0]]

/-- Other code under the same type script, and code under another one. -/
def claimants : List Command :=
  [.deployTyped (.replicate 2) [1] [0], .setScript [7], .deployTyped (.replicate 3) [1, 2] [1]]

/-- The reference to what is deployed under a type script. -/
def byType (typeScript : Bytes) : CodeReference := ⟨(0, 0), digest typeScript, .typeScript⟩

/-- The page is the first cell under its type script. -/
theorem firstAt_named : named.FirstAt (byType [0]).hashType.field (byType [0]).codeHash 0
    ⟨⟨.replicate 1, 0⟩, page, some [0]⟩ :=
  ⟨rfl, rfl, fun _ _ hlt => absurd hlt (Nat.not_lt_zero _)⟩

/-- The name of the page is not taken over, and what has a new name is found by it. -/
theorem resolve_run_named :
    ∃ image,
      (resolve Wasm.interpreter.toCompiler LocalHost.host (byType [0]) 4096 named).1 = .ok image ∧
      image.bytes = page ∧
      (resolve Wasm.interpreter.toCompiler LocalHost.host (byType [0]) 4096 (named.run claimants)).1
        = .ok image ∧
      (resolve Wasm.interpreter.toCompiler LocalHost.host (byType [1]) 4096 named).1
        = .error (.codeNotFound (digest [1])) ∧
      ∃ index c, 1 ≤ index ∧ (named.run claimants).FirstAt .typeScript (digest [1]) index c := by
  have hfirst : named.FirstAt (byType [0]).hashType.field (byType [0]).codeHash 0
      ⟨⟨.replicate 1, 0⟩, page, some [0]⟩ := ⟨rfl, rfl, by omega⟩
  have hroom : named.cells.length < indexCount := by decide
  have hfits : page.length ≤ alignUp 4096 := Nat.le_of_eq length_page
  have haligned : isPageAligned page.length = true := by
    rw [length_page]
    rfl
  obtain ⟨image, himage, hbytes⟩ :=
    resolve_of_first hroom hfirst hfits haligned exists_compile_page
  -- The old name.
  obtain ⟨before, after, hbefore, hafter, hstays, -⟩ :=
    resolve_run Wasm.interpreter.toCompiler named claimants (byType [0]) 4096
  have hok : before = .ok image := congrArg Prod.fst (hbefore.symm.trans himage)
  obtain ⟨hsame, -⟩ := hstays (by rw [hok]; nofun)
  -- The new one.
  obtain ⟨before', after', hbefore', hafter', -, hnew⟩ :=
    resolve_run Wasm.interpreter.toCompiler named claimants (byType [1]) 4096
  have hmissing : ∀ c ∈ named.cells,
      c.hash? (byType [1]).hashType.field ≠ some (byType [1]).codeHash := by
    show ∀ c ∈ [(⟨⟨.replicate 1, 0⟩, page, some [0]⟩ : Cell)], c.hash? .typeScript ≠ some (digest [1])
    decide +kernel
  have hnone : before' = .error (.codeNotFound (digest [1])) := by
    rw [resolve, locate_of_missing hroom hmissing] at hbefore'
    exact (congrArg Prod.fst hbefore').symm
  have hfound : after' ≠ .error (.codeNotFound (digest [1])) := by
    obtain ⟨result, hresult, ⟨_, _, _, _, hgives⟩ | ⟨-, hmissing⟩⟩ :=
      resolve_cases Wasm.interpreter.toCompiler (named.run claimants) (byType [1]) 4096
    · obtain rfl : result = after' := congrArg Prod.fst (hresult.symm.trans hafter')
      exact hgives.ne_codeNotFound _
    · exact absurd rfl (hmissing 2 ⟨⟨.replicate 3, 0⟩, [1, 2], some [1]⟩ (by decide) rfl)
  obtain ⟨index, c, hlate, hfirst', -⟩ := hnew hnone hfound
  exact ⟨image, by rw [himage], hbytes, by rw [hafter, hsame, hok], by rw [hbefore', hnone],
    index, c, hlate, hfirst'⟩

end LocalHost

end HashLoader
