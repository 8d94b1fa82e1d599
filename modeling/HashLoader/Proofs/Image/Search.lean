import Mathlib.Data.Nat.Find
import HashLoader.Host.Local
import HashLoader.Proofs.Image.Authentic
import HashLoader.Wasm.Interpreter

/-!
# When the search for a dependency ends

A search has no measure of its own: it asks a host for the hash of one dependency after another, and
only the host says when it ends. So it is described by what the host answers. `Host.answer` is the
answer to the question for an index after the questions for all indices before, each of which may
have changed the host. The search ends at the first answer that it does not pass over
(`Host.EndsAt`), by what that answer says and after no other question (`Host.ResolvesAt`). It has no
end only if it passes over the answers for all indices.
-/

namespace HashLoader

variable {σ : Type}

/-! ## The answers of a host -/

namespace Host

/-- The state of a host after the questions for the hashes of the first dependencies, in order. -/
def asked (host : Host σ) (field : HashField) (s : σ) : Nat → σ
  | 0 => s
  | n + 1 => (host.loadHash n field (asked host field s n)).2

/-- What a host answers to the question for the hash of a dependency, after those for the ones
before it. -/
def answer (host : Host σ) (field : HashField) (s : σ) (n : Nat) : Except HostError (Option Hash) :=
  (host.loadHash n field (host.asked field s n)).1

/-- The questions for the hashes of the first dependencies, with the answers. -/
def queries (host : Host σ) (field : HashField) (s : σ) (n : Nat) : List Exchange :=
  (List.range n).map fun i => .hash i field (host.answer field s i)

variable (host : Host σ) (field : HashField) (s : σ)

theorem loadHash_asked (n : Nat) :
    host.loadHash n field (host.asked field s n)
      = (host.answer field s n, host.asked field s (n + 1)) := rfl

theorem queries_succ (n : Nat) :
    host.queries field s (n + 1)
      = host.queries field s n ++ [.hash n field (host.answer field s n)] := by
  rw [queries, queries, List.range_succ, List.map_append]
  rfl

/-- A recorded host that was asked has the questions on its record. -/
theorem asked_recorded (t : List Exchange) (n : Nat) :
    host.recorded.asked field (s, t) n = (host.asked field s n, t ++ host.queries field s n) := by
  induction n with
  | zero => simp [asked, queries]
  | succ n ih =>
    rw [asked, ih, host.recorded_loadHash n field _ _ (host.loadHash_asked field s n),
      queries_succ, List.append_assoc]

/-- A recorded host answers like the host. -/
theorem answer_recorded (t : List Exchange) (n : Nat) :
    host.recorded.answer field (s, t) n = host.answer field s n := by
  rw [answer, asked_recorded, host.recorded_loadHash n field _ _ (host.loadHash_asked field s n)]

end Host

/-! ## The search -/

/-- A search does not pass over the hash, nor over an error other than a missing field. -/
theorem Search.skips_eq_false_iff {hash : Hash} {a : Except HostError (Option Hash)} :
    Search.skips hash a = false ↔
      a = .ok (some hash) ∨ ∃ e, a = .error e ∧ e ≠ .itemMissing := by
  match a with
  | .ok (some h) => simp [Search.skips]
  | .ok none => simp [Search.skips]
  | .error e => simp [Search.skips]

theorem Search.ofAnswer_ne_endless (index : Nat) (a : Except HostError (Option Hash)) :
    Search.ofAnswer index a ≠ .endless := by
  unfold ofAnswer
  split <;> simp

/-- The index that a search ends with is the one it asked for. -/
theorem Search.eq_of_ofAnswer_found {index j : Nat} {a : Except HostError (Option Hash)}
    (h : Search.ofAnswer index a = .found j) : index = j := by
  unfold ofAnswer at h
  split at h
  · exact Search.found.inj h
  · cases h
  · cases h

theorem Search.ofAnswer_refused {index : Nat} {e : HostError} (he : e ≠ .indexOutOfBound) :
    Search.ofAnswer index (.error e) = .refused e := by
  cases e with
  | indexOutOfBound => exact absurd rfl he
  | itemMissing | lengthNotEnough | unknown => rfl

/-- The first answer that a search for a reference does not pass over is the one for an index. -/
structure Host.EndsAt (host : Host σ) (r : CodeReference) (s : σ) (n : Nat) : Prop where
  /-- A host can be asked for the index. -/
  counted : n < indexCount
  /-- The search passes over the answers before. -/
  passed : ∀ i < n, Search.skips r.codeHash (host.answer r.hashType.field s i) = true
  /-- It does not pass over this one. -/
  stops : Search.skips r.codeHash (host.answer r.hashType.field s n) = false

variable {C : Compiler} {host : Host σ} {r : CodeReference} {s : σ} {n : Nat}

/-- Recording does not change where a search ends. -/
theorem Host.EndsAt.recorded (h : host.EndsAt r s n) (t : List Exchange) :
    host.recorded.EndsAt r (s, t) n where
  counted := h.counted
  passed i hi := by
    rw [host.answer_recorded]
    exact h.passed i hi
  stops := by
    rw [host.answer_recorded]
    exact h.stops

/-- A search comes to an index if it passes over the answers for all indices before it. -/
theorem locate_of_passed (hn : n ≤ indexCount)
    (hpassed : ∀ i < n, Search.skips r.codeHash (host.answer r.hashType.field s i) = true) :
    locate host r s
      = locateFrom host r.codeHash r.hashType.field n (host.asked r.hashType.field s n) := by
  -- By induction on the end of the search that is done, since the state there is that of the host.
  induction n with
  | zero => rfl
  | succ n ih =>
    rw [ih (by omega) fun i hi => hpassed i (by omega),
      locateFrom_step host _ _ (by omega) (host.loadHash_asked r.hashType.field s n),
      if_pos (hpassed n (by omega))]

/-- A search ends at the first answer that it does not pass over, and asks nothing after it. -/
theorem Host.EndsAt.locate_eq (h : host.EndsAt r s n) :
    locate host r s = (Search.ofAnswer n (host.answer r.hashType.field s n),
      host.asked r.hashType.field s (n + 1)) := by
  rw [locate_of_passed (Nat.le_of_lt h.counted) h.passed,
    locateFrom_step host _ _ h.counted (host.loadHash_asked r.hashType.field s n), h.stops]
  rfl

/-- What a search asks is on the record: one question for each index up to the one where it ends. -/
theorem Host.EndsAt.locate_recorded (h : host.EndsAt r s n) :
    locate host.recorded r (s, []) = (Search.ofAnswer n (host.answer r.hashType.field s n),
      host.asked r.hashType.field s (n + 1), host.queries r.hashType.field s (n + 1)) := by
  rw [(h.recorded []).locate_eq, host.answer_recorded, host.asked_recorded, List.nil_append]

/-- Unless a search passes over the answers for all indices, there is a first one where it ends. -/
theorem Host.exists_endsAt
    (h : ¬ ∀ i < indexCount, Search.skips r.codeHash (host.answer r.hashType.field s i) = true) :
    ∃ n, host.EndsAt r s n := by
  have hstops : ∃ i, i < indexCount ∧
      Search.skips r.codeHash (host.answer r.hashType.field s i) = false := by simpa using h
  obtain ⟨hcounted, hfirst⟩ := Nat.find_spec hstops
  refine ⟨Nat.find hstops, hcounted, fun i hi => ?_, hfirst⟩
  by_contra hskips
  exact Nat.find_min hstops hi ⟨Nat.lt_trans hi hcounted, by simpa using hskips⟩

/-- A search has no end exactly if it passes over the answers for all indices. -/
theorem locate_eq_endless_iff :
    (locate host r s).1 = .endless ↔
      ∀ i < indexCount, Search.skips r.codeHash (host.answer r.hashType.field s i) = true := by
  constructor
  · intro hendless
    by_contra hpassed
    obtain ⟨n, h⟩ := Host.exists_endsAt hpassed
    rw [h.locate_eq] at hendless
    exact Search.ofAnswer_ne_endless n _ hendless
  · intro hpassed
    rw [locate_of_passed (Nat.le_refl _) hpassed, locateFrom, if_neg (Nat.lt_irrefl _)]

/-- A search that finds an index has ended there. -/
theorem Host.endsAt_of_found {index : Nat} {s' : σ} (hlocate : locate host r s = (.found index, s')) :
    host.EndsAt r s index ∧ s' = host.asked r.hashType.field s (index + 1) := by
  obtain ⟨n, h⟩ : ∃ n, host.EndsAt r s n := by
    apply Host.exists_endsAt
    rw [← locate_eq_endless_iff, hlocate]
    simp
  rw [h.locate_eq] at hlocate
  obtain ⟨hfound, rfl⟩ := Prod.mk.inj hlocate
  obtain rfl : n = index := Search.eq_of_ofAnswer_found hfound
  exact ⟨h, rfl⟩

/-! ## The resolution -/

/-- Loading is about the data of one dependency. -/
theorem CodeImage.Dialogue.eq_data {capacity index : Nat} {t : List Exchange}
    {result : Except LoaderError (CodeImage C)} (h : CodeImage.Dialogue r capacity index t result) :
    ∀ x ∈ t, ∃ bufferLen answer buffer, x = .data bufferLen 0 index answer buffer := by
  cases h with
  | unmeasured | tooLarge | uncopied | resized | copied => simp

/-- A resolution that finds a dependency says of it what loading does. -/
theorem resolutionDialogue_of_found (capacity : Nat) {index : Nat} {s' : σ} {t : List Exchange}
    (hlocate : locate host.recorded r (s, []) = (.found index, s', t)) :
    ∃ u, resolutionDialogue C host r capacity s = t ++ u ∧
      CodeImage.Dialogue r capacity index u (resolve C host.recorded r capacity (s, [])).1 := by
  obtain ⟨u, hu, hload⟩ := CodeImage.load_dialogue host r capacity index s' t
  have hresolve : resolve C host.recorded r capacity (s, [])
      = CodeImage.load C host.recorded r capacity index (s', t) := by rw [resolve, hlocate]
  rw [resolutionDialogue, hresolve]
  exact ⟨u, hu, hload⟩

/-- A resolution is decided by the answer of the host for one index. -/
structure Host.ResolvesAt (C : Compiler) (host : Host σ) (r : CodeReference) (s : σ) (n : Nat) :
    Prop where
  /-- The search asks for the indices up to this one, once each and in order, and nothing else. -/
  asked : (locate host.recorded r (s, [])).2
    = (host.asked r.hashType.field s (n + 1), host.queries r.hashType.field s (n + 1))
  /-- The answer is the hash, or an error other than a missing field. -/
  decisive : host.answer r.hashType.field s n = .ok (some r.codeHash) ∨
    ∃ e, host.answer r.hashType.field s n = .error e ∧ e ≠ .itemMissing
  /-- At the hash the search is successful, and the data that is loaded is that of this index. -/
  found : host.answer r.hashType.field s n = .ok (some r.codeHash) →
    locate host r s = (.found n, host.asked r.hashType.field s (n + 1)) ∧
      ∀ capacity, resolve C host r capacity s
          = CodeImage.load C host r capacity n (host.asked r.hashType.field s (n + 1)) ∧
        ∃ loads, resolutionDialogue C host r capacity s
            = host.queries r.hashType.field s (n + 1) ++ loads ∧
          ∀ x ∈ loads, ∃ bufferLen answer buffer, x = .data bufferLen 0 n answer buffer
  /-- At the end of the dependencies there is no code. -/
  absent : host.answer r.hashType.field s n = .error .indexOutOfBound →
    locate host r s = (.absent, host.asked r.hashType.field s (n + 1)) ∧
      ∀ capacity, resolve C host r capacity s
          = (.error (.codeNotFound r.codeHash), host.asked r.hashType.field s (n + 1)) ∧
        resolutionDialogue C host r capacity s = host.queries r.hashType.field s (n + 1)
  /-- Any other error is handed on. -/
  refused : ∀ e, host.answer r.hashType.field s n = .error e → e ≠ .indexOutOfBound →
    locate host r s = (.refused e, host.asked r.hashType.field s (n + 1)) ∧
      ∀ capacity, resolve C host r capacity s
          = (.error (.syscall e), host.asked r.hashType.field s (n + 1)) ∧
        resolutionDialogue C host r capacity s = host.queries r.hashType.field s (n + 1)

/-- For every host, the search for a reference ends at the first answer that it does not pass over,
by what that answer says. It has no end exactly if it passes over all answers. -/
theorem locate_ends (C : Compiler) (host : Host σ) (r : CodeReference) (s : σ) :
    (∀ n, host.EndsAt r s n → Host.ResolvesAt C host r s n) ∧
      ((locate host r s).1 = .endless ↔
        ∀ i < indexCount, Search.skips r.codeHash (host.answer r.hashType.field s i) = true) := by
  refine ⟨fun n h => ?_, locate_eq_endless_iff⟩
  -- What the host answers for the index decides both the search and what is on its record.
  have hlocate := h.locate_eq
  have hrecorded := h.locate_recorded
  constructor
  · rw [hrecorded]
  · exact Search.skips_eq_false_iff.1 h.stops
  · intro hanswer
    rw [hanswer] at hlocate hrecorded
    refine ⟨hlocate, fun capacity => ⟨by rw [resolve, hlocate]; rfl, ?_⟩⟩
    obtain ⟨loads, hloads, hdialogue⟩ := resolutionDialogue_of_found capacity hrecorded
    exact ⟨loads, hloads, hdialogue.eq_data⟩
  · intro hanswer
    rw [hanswer] at hlocate hrecorded
    refine ⟨hlocate, fun capacity => ⟨by rw [resolve, hlocate]; rfl, ?_⟩⟩
    rw [resolutionDialogue, resolve, hrecorded]
    rfl
  · intro e hanswer he
    rw [hanswer, Search.ofAnswer_refused he] at hlocate hrecorded
    refine ⟨hlocate, fun capacity => ⟨by rw [resolve, hlocate], ?_⟩⟩
    rw [resolutionDialogue, resolve, hrecorded]

/-- A host that has the hash of zeros for the fourth dependency only. For those before, it says in
different ways that they do not have it. -/
def gapHost : Host LocalHost :=
  { LocalHost.host with
    loadHash := fun index _ h =>
      match index with
      | 0 => (.ok none, h)
      | 1 => (.error .itemMissing, h)
      | 2 => (.ok (some (Hash.replicate 1)), h)
      | _ => (.ok (some Hash.zero), h) }

/-- The search passes over the first three dependencies and finds the fourth. -/
theorem locate_ends_gapHost :
    gapHost.EndsAt ⟨(0, 0), Hash.zero, .data⟩ LocalHost.empty 3 ∧
      Host.ResolvesAt Wasm.interpreter.toCompiler gapHost ⟨(0, 0), Hash.zero, .data⟩ LocalHost.empty 3 ∧
      (locate gapHost ⟨(0, 0), Hash.zero, .data⟩ LocalHost.empty).1 = .found 3 := by
  have hends : gapHost.EndsAt ⟨(0, 0), Hash.zero, .data⟩ LocalHost.empty 3 :=
    ⟨by decide, by decide, by decide⟩
  have hresolves := (locate_ends Wasm.interpreter.toCompiler gapHost ⟨(0, 0), Hash.zero, .data⟩
    LocalHost.empty).1 3 hends
  have hfound : gapHost.answer .data LocalHost.empty 3 = .ok (some Hash.zero) := by rfl
  obtain ⟨hlocate, -⟩ := hresolves.found hfound
  exact ⟨hends, hresolves, congrArg Prod.fst hlocate⟩

end HashLoader
