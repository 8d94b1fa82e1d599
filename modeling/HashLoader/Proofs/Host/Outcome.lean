import HashLoader.Proofs.Host.Persistence

/-!
# What a resolution on a local host gives

`LocalHost.outcome` says what a reference gives as a function of the cells: go through them in order
to the first with the code hash, and test its data. It knows of no index, no arena and no call. For
a capacity of whole pages, `resolve_eq_outcome` shows that a resolution computes this function.

The tests that a resolution makes on top of these cannot fail, since a local host answers a question
always in the same way: it copies as many bytes as it said that there are, and they have the hash
that it reported.
-/

namespace HashLoader

/-- What the data of a cell are good for, in the order in which they are tested. -/
def Cell.outcome (C : Compiler) (c : Cell) (capacity : Nat) : Except LoaderError Bytes :=
  if capacity < c.data.length then .error (.codeTooLarge c.data.length capacity)
  else if ¬ pageSize ∣ c.data.length then .error (.malformedImage c.data.length)
  else
    match C.compile c.data with
    | .error reason => .error (.cannotLoad reason)
    | .ok _ => .ok c.data

/-- What a reference gives: the data of the first cell with its code hash, if they are good. -/
def LocalHost.outcome (C : Compiler) (h : LocalHost) (r : CodeReference) (capacity : Nat) :
    Except LoaderError Bytes :=
  match h.cells.find? fun c => c.hash? r.hashType.field == some r.codeHash with
  | none => .error (.codeNotFound r.codeHash)
  | some c => c.outcome C capacity

variable {C : Compiler}

/-- A result is that of a host which answers truly: it has the length and the bytes of the data, or
the error, and the error is not one that only a host can cause. -/
structure Resolved (outcome : Except LoaderError Bytes) (result : Except LoaderError (CodeImage C)) :
    Prop where
  /-- It is the outcome. -/
  same : result.map (fun image => (image.len, image.bytes))
    = outcome.map fun data => (data.length, data)
  /-- The data have the hash that was reported. -/
  hashed : ∀ hash, result ≠ .error (.hashMismatch hash)
  /-- No call failed. -/
  answered : ∀ e, result ≠ .error (.syscall e)

/-- An outcome that is an error is also the result, unless it is one that only a host can cause. -/
theorem Resolved.of_error {e : LoaderError} (hhash : ∀ hash, e ≠ .hashMismatch hash)
    (hcall : ∀ cause, e ≠ .syscall cause) : Resolved (C := C) (.error e) (.error e) where
  same := rfl
  hashed hash h := hhash hash (Except.error.inj h)
  answered cause h := hcall cause (Except.error.inj h)

/-- An outcome that is data is also the result, as an image of just these data. -/
theorem Resolved.of_image {image : CodeImage C} {data : Bytes} (hlen : image.len = data.length)
    (hbytes : image.bytes = data) : Resolved (.ok data) (.ok image) where
  same := by rw [Except.map, Except.map, hlen, hbytes]
  hashed := by simp
  answered := by simp

/-- What loading a cell gives is its outcome, if no capacity is gained by rounding. -/
theorem Cell.Gives.resolved {c : Cell} {capacity : Nat} {result : Except LoaderError (CodeImage C)}
    (hgives : c.Gives capacity result) (hcapacity : pageSize ∣ capacity) :
    Resolved (c.outcome C capacity) result := by
  have hround : alignUp capacity = capacity := alignUp_of_dvd hcapacity
  have haligned_iff : isPageAligned c.data.length = true ↔ pageSize ∣ c.data.length := by
    rw [isPageAligned, beq_iff_eq, Nat.dvd_iff_mod_eq_zero]
  -- Each way to load the cell is one branch of the outcome, with the tests before it passed.
  cases hgives with
  | tooLarge hlarge =>
    rw [hround] at hlarge ⊢
    rw [Cell.outcome, if_pos hlarge]
    exact .of_error (by simp) (by simp)
  | unaligned hfits hunaligned =>
    rw [hround] at hfits
    have hdvd : ¬ pageSize ∣ c.data.length := by simp [← haligned_iff, hunaligned]
    rw [Cell.outcome, if_neg (Nat.not_lt.2 hfits), if_pos hdvd]
    exact .of_error (by simp) (by simp)
  | invalid hfits haligned hmodule =>
    rw [hround] at hfits
    have hdvd := not_not_intro (haligned_iff.1 haligned)
    rw [Cell.outcome, if_neg (Nat.not_lt.2 hfits), if_neg hdvd, hmodule]
    exact .of_error (by simp) (by simp)
  | image hwrite haligned hmodule =>
    have hfits := CodeArena.length_le_of_write hwrite
    rw [hround] at hfits
    have hdvd := not_not_intro (haligned_iff.1 haligned)
    rw [Cell.outcome, if_neg (Nat.not_lt.2 hfits), if_neg hdvd, hmodule]
    exact .of_image rfl (Cell.Gives.bytes_eq (.image hwrite haligned hmodule))

namespace LocalHost

/-- For every local host, every reference and every capacity of whole pages, the search comes to an
end and the resolution gives the outcome.

There are fewer cells than indices, as in every list that a memory with such addresses holds. -/
theorem resolve_eq_outcome (C : Compiler) (h : LocalHost) (r : CodeReference) (capacity : Nat)
    (hroom : h.cells.length < indexCount) (hcapacity : pageSize ∣ capacity) :
    (locate LocalHost.host r h).1 ≠ .endless ∧
      ∃ result, resolve C LocalHost.host r capacity h = (result, h) ∧
        Resolved (h.outcome C r capacity) result := by
  cases hfind : h.cells.find? (fun c => c.hash? r.hashType.field == some r.codeHash) with
  | none =>
    have hlocate := locate_of_missing hroom (find?_eq_none_iff_missing.1 hfind)
    have houtcome : h.outcome C r capacity = .error (.codeNotFound r.codeHash) := by
      rw [outcome, hfind]
    rw [houtcome, resolve, hlocate]
    exact ⟨by simp, _, rfl, .of_error (by simp) (by simp)⟩
  | some c =>
    obtain ⟨index, hfirst⟩ := find?_eq_some_iff_firstAt.1 hfind
    have houtcome : h.outcome C r capacity = c.outcome C capacity := by rw [outcome, hfind]
    obtain ⟨result, hload, hgives⟩ := load_gives C r capacity hfirst.cell hfirst.hash_eq
    rw [houtcome, locate_of_first hroom hfirst, resolve_eq_load hroom hfirst]
    exact ⟨by simp, result, hload, hgives.resolved hcapacity⟩

/-- The page is what its type script gives. -/
theorem outcome_named :
    named.outcome Wasm.interpreter.toCompiler (byType [0]) 4096 = .ok page := by
  obtain ⟨m, hm⟩ := exists_compile_page
  rw [outcome, find?_eq_some_iff_firstAt.2 ⟨0, firstAt_named⟩]
  dsimp only
  rw [Cell.outcome, length_page, if_neg (by decide), if_neg (by decide), hm]

theorem resolve_eq_outcome_named :
    named.cells.length < indexCount ∧ pageSize ∣ 4096 ∧
      ∃ image, resolve Wasm.interpreter.toCompiler LocalHost.host (byType [0]) 4096 named
          = (.ok image, named) ∧ image.len = 4096 ∧ image.bytes = page := by
  have hroom : named.cells.length < indexCount := by decide
  have hcapacity : pageSize ∣ 4096 := by decide
  obtain ⟨-, result, hresolve, hresolved⟩ :=
    resolve_eq_outcome Wasm.interpreter.toCompiler named (byType [0]) 4096 hroom hcapacity
  have hsame := hresolved.same
  rw [outcome_named] at hsame
  obtain ⟨image, rfl, himage⟩ := map_eq_ok_iff.1 hsame
  obtain ⟨hlen, hbytes⟩ := Prod.mk.inj himage
  exact ⟨hroom, hcapacity, image, hresolve, hlen.trans length_page, hbytes⟩

end LocalHost

end HashLoader
