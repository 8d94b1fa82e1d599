import HashLoader.Image.Resolve
import HashLoader.Proofs.Arena.Code
import HashLoader.Proofs.Host.Dialogue

/-!
# How a resolution goes

All that a resolution can do is said once, as the ways its dialogue with the host can go:
`Search.Dialogue` for the search of a dependency, `CodeImage.Dialogue` for loading its data, and
`ResolveDialogue` for the two together. `resolve_dialogue` shows that a resolution on any host goes
one of these ways, and what is true of every resolution follows by cases on them.
-/

namespace HashLoader

variable {σ τ : Type} {C : Compiler}

/-! ## The search -/

/-- Tells whether a search for a hash passes over a dependency, by the answer of the host. -/
def Search.skips (hash : Hash) : Except HostError (Option Hash) → Bool
  | .ok (some h) => h ≠ hash
  | .ok none => true
  | .error e => e = .itemMissing

/-- How a search ends with an answer that it does not pass over. -/
def Search.ofAnswer (index : Nat) : Except HostError (Option Hash) → Search
  | .ok _ => .found index
  | .error .indexOutOfBound => .absent
  | .error e => .refused e

/-- One step of a search: by the answer of the host it goes on to the next index, or it ends. -/
theorem locateFrom_step (host : Host σ) (hash : Hash) (field : HashField) {i : Nat}
    (hi : i < indexCount) {s s' : σ} {a : Except HostError (Option Hash)}
    (hanswer : host.loadHash i field s = (a, s')) :
    locateFrom host hash field i s
      = if Search.skips hash a then locateFrom host hash field (i + 1) s'
        else (Search.ofAnswer i a, s') := by
  rw [locateFrom, if_pos hi, hanswer]
  match a with
  | .ok (some h) => by_cases heq : h = hash <;> simp [Search.skips, Search.ofAnswer, heq]
  | .ok none => rfl
  | .error .itemMissing => rfl
  | .error .indexOutOfBound => rfl
  | .error (.lengthNotEnough len) => rfl
  | .error (.unknown code) => rfl

/-- The ways a search from an index on can go. It asks for one index after another, as long as it
passes over what the host answers. -/
inductive Search.Dialogue (hash : Hash) (field : HashField) :
    Nat → List Exchange → Search → Prop
  /-- The host reports the hash. -/
  | found {i : Nat} : i < indexCount →
      Dialogue hash field i [.hash i field (.ok (some hash))] (.found i)
  /-- The host has no more dependencies. -/
  | absent {i : Nat} : i < indexCount →
      Dialogue hash field i [.hash i field (.error .indexOutOfBound)] .absent
  /-- The host refuses to answer. -/
  | refused {i : Nat} {e : HostError} : i < indexCount → e ≠ .itemMissing → e ≠ .indexOutOfBound →
      Dialogue hash field i [.hash i field (.error e)] (.refused e)
  /-- No index is left. -/
  | endless {i : Nat} : indexCount ≤ i → Dialogue hash field i [] .endless
  /-- The dependency is passed over. -/
  | skip {i : Nat} {a : Except HostError (Option Hash)} {t : List Exchange} {r : Search} :
      i < indexCount → Search.skips hash a = true → Dialogue hash field (i + 1) t r →
      Dialogue hash field i (.hash i field a :: t) r

/-- A search that does not pass over an answer ends with it. -/
theorem Search.Dialogue.of_answer {hash : Hash} {field : HashField} {i : Nat}
    {a : Except HostError (Option Hash)} (hi : i < indexCount) (hskip : Search.skips hash a = false) :
    Search.Dialogue hash field i [.hash i field a] (Search.ofAnswer i a) := by
  match a with
  | .ok (some h) =>
    obtain rfl : h = hash := by simpa [Search.skips] using hskip
    exact .found hi
  | .ok none => cases hskip
  | .error .itemMissing => cases hskip
  | .error .indexOutOfBound => exact .absent hi
  | .error (.lengthNotEnough len) => exact .refused hi (by simp) (by simp)
  | .error (.unknown code) => exact .refused hi (by simp) (by simp)

/-- A search on any host goes one of the ways. -/
theorem locateFrom_dialogue (host : Host σ) (hash : Hash) (field : HashField) (i : Nat) (s : σ)
    (t : List Exchange) :
    ∃ u, (locateFrom host.recorded hash field i (s, t)).2.2 = t ++ u ∧
      Search.Dialogue hash field i u (locateFrom host.recorded hash field i (s, t)).1 := by
  induction hn : indexCount - i generalizing i s t with
  | zero =>
    rw [locateFrom, if_neg (by omega)]
    exact ⟨[], (List.append_nil t).symm, .endless (by omega)⟩
  | succ n ih =>
    have hi : i < indexCount := by omega
    rcases hanswer : host.loadHash i field s with ⟨a, s'⟩
    rw [locateFrom_step host.recorded hash field hi (host.recorded_loadHash i field s t hanswer)]
    cases hskip : Search.skips hash a with
    | true =>
      obtain ⟨u, hu, hdialogue⟩ := ih (i + 1) s' (t ++ [.hash i field a]) (by omega)
      refine ⟨.hash i field a :: u, ?_, .skip hi hskip hdialogue⟩
      rw [if_pos rfl, hu, List.append_assoc, List.singleton_append]
    | false => exact ⟨[.hash i field a], rfl, .of_answer hi hskip⟩

/-- A search asks for one index after another, each for the same field. -/
theorem Search.Dialogue.map_call {hash : Hash} {field : HashField} {i : Nat} {t : List Exchange}
    {r : Search} (h : Search.Dialogue hash field i t r) :
    t.map Exchange.call = (List.range' i t.length).map fun j => .hash j field := by
  induction h with
  | found | absent | refused | endless => rfl
  | skip hi hskip hrest ih =>
    rw [List.map_cons, ih, List.length_cons, List.range'_succ, List.map_cons, Exchange.call]

/-- A search that finds the hash passes over all that came before the exchange that reports it. -/
theorem Search.Dialogue.of_found {hash : Hash} {field : HashField} {i j : Nat} {t : List Exchange}
    (h : Search.Dialogue hash field i t (.found j)) :
    ∃ front, t = front ++ [.hash j field (.ok (some hash))] ∧ i + front.length = j ∧
      ∀ x ∈ front, ∃ k a, x = .hash k field a ∧ Search.skips hash a = true := by
  generalize hr : Search.found j = r at h
  induction h with
  | found hi =>
    cases hr
    exact ⟨[], rfl, rfl, nofun⟩
  | absent | refused | endless => cases hr
  | @skip k a t r hk hskip hrest ih =>
    obtain ⟨front, ht, hlength, hfront⟩ := ih hr
    refine ⟨.hash k field a :: front, by rw [ht, List.cons_append], ?_, fun x hx => ?_⟩
    · rw [List.length_cons]
      omega
    · rcases List.mem_cons.1 hx with rfl | hx
      · exact ⟨k, a, rfl, hskip⟩
      · exact hfront x hx

/-! ## Loading the data -/

/-- The ways the loading of the data of a dependency can go. The data is measured and then, if it
fits the arena, copied; only the copy is judged. -/
inductive CodeImage.Dialogue (r : CodeReference) (capacity index : Nat) :
    List Exchange → Except LoaderError (CodeImage C) → Prop
  /-- The host refuses to measure. -/
  | unmeasured {e : HostError} :
      Dialogue r capacity index [.data 0 0 index (.error e) []] (.error (.syscall e))
  /-- The data does not fit. -/
  | tooLarge {len : Nat} : alignUp capacity < len →
      Dialogue r capacity index [.data 0 0 index (.ok len) []]
        (.error (.codeTooLarge len (alignUp capacity)))
  /-- The host refuses to copy. -/
  | uncopied {len : Nat} {e : HostError} {window : Bytes} : len ≤ alignUp capacity →
      Dialogue r capacity index
        [.data 0 0 index (.ok len) [], .data len 0 index (.error e) window] (.error (.syscall e))
  /-- The host says another length than before. -/
  | resized {len loaded : Nat} {window : Bytes} : len ≤ alignUp capacity → loaded ≠ len →
      Dialogue r capacity index
        [.data 0 0 index (.ok len) [], .data len 0 index (.ok loaded) window]
        (.error (.syscall (.lengthNotEnough loaded)))
  /-- What the host copied stands in the arena. -/
  | copied {len : Nat} {window : Bytes} {arena : CodeArena}
      {result : Except LoaderError (CodeImage C)} : len ≤ alignUp capacity → window.length = len →
      (CodeArena.ofCapacity capacity).write 0 window = some arena →
      CodeImage.ofArena C r arena len = result →
      Dialogue r capacity index
        [.data 0 0 index (.ok len) [], .data len 0 index (.ok len) window] result

/-- Data that measure more than the arena holds are refused. -/
theorem CodeImage.load_of_measured {host : Host σ} {capacity index len : Nat} {s s' : σ}
    {b : Vector UInt8 0} (r : CodeReference)
    (hmeasure : host.loadData #v[] 0 index s = (⟨.ok len, b⟩, s'))
    (hlarge : alignUp capacity < len) :
    CodeImage.load C host r capacity index s = (.error (.codeTooLarge len (alignUp capacity)), s') := by
  rw [CodeImage.load, hmeasure]
  dsimp only
  rw [CodeArena.capacity_ofCapacity, if_pos hlarge]

/-- Loading on any host goes one of the ways. -/
theorem CodeImage.load_dialogue (host : Host σ) (r : CodeReference) (capacity index : Nat) (s : σ)
    (t : List Exchange) :
    ∃ u, (CodeImage.load C host.recorded r capacity index (s, t)).2.2 = t ++ u ∧
      CodeImage.Dialogue r capacity index u
        (CodeImage.load C host.recorded r capacity index (s, t)).1 := by
  rcases hmeasure : host.loadData #v[] 0 index s with ⟨⟨measured, b⟩, s₁⟩
  have hb : b.toList = [] := List.eq_nil_of_length_eq_zero (by simp)
  rw [CodeImage.load, host.recorded_loadData #v[] 0 index s t hmeasure, hb]
  cases measured with
  | error e => exact ⟨_, rfl, .unmeasured⟩
  | ok len =>
    dsimp only
    rw [CodeArena.capacity_ofCapacity]
    by_cases hlarge : alignUp capacity < len
    · rw [if_pos hlarge]
      exact ⟨_, rfl, .tooLarge hlarge⟩
    have hfits : len ≤ alignUp capacity := by omega
    rw [if_neg hlarge]
    rcases hcopy : host.loadData (Vector.replicate len 0) 0 index s₁ with ⟨⟨copied, window⟩, s₂⟩
    have hwindow : window.toList.length = len := by simp
    rw [host.recorded_loadData (Vector.replicate len 0) 0 index s₁ _ hcopy, List.append_assoc,
      List.singleton_append]
    cases copied with
    | error e => exact ⟨_, rfl, .uncopied hfits⟩
    | ok loaded =>
      dsimp only
      by_cases hsame : loaded ≠ len
      · rw [if_pos hsame]
        exact ⟨_, rfl, .resized hfits hsame⟩
      rw [if_neg hsame]
      obtain rfl : loaded = len := Decidable.not_not.1 hsame
      -- The copy fits, since the capacity was compared before.
      have hwrite : ((CodeArena.ofCapacity capacity).write 0 window.toList).isSome := by
        rw [CodeArena.write_isSome_iff, CodeArena.capacity_ofCapacity, hwindow, Nat.zero_add]
        exact hfits
      obtain ⟨arena, harena⟩ := Option.isSome_iff_exists.1 hwrite
      rw [harena]
      exact ⟨_, rfl, .copied hfits hwindow harena rfl⟩

/-! ## The resolution -/

/-- The ways a resolution can go. -/
inductive ResolveDialogue (r : CodeReference) (capacity : Nat) :
    List Exchange → Except LoaderError (CodeImage C) → Prop
  /-- The host refuses a hash. -/
  | refused {t : List Exchange} {e : HostError} :
      Search.Dialogue r.codeHash r.hashType.field 0 t (.refused e) →
      ResolveDialogue r capacity t (.error (.syscall e))
  /-- No dependency has the hash. -/
  | missing {t : List Exchange} {ending : Search} : ending = .absent ∨ ending = .endless →
      Search.Dialogue r.codeHash r.hashType.field 0 t ending →
      ResolveDialogue r capacity t (.error (.codeNotFound r.codeHash))
  /-- A dependency has the hash, and its data is loaded. -/
  | found {t u : List Exchange} {index : Nat} {result : Except LoaderError (CodeImage C)} :
      Search.Dialogue r.codeHash r.hashType.field 0 t (.found index) →
      CodeImage.Dialogue r capacity index u result →
      ResolveDialogue r capacity (t ++ u) result

/-- A resolution on any host goes one of the ways. -/
theorem resolve_dialogue (host : Host σ) (r : CodeReference) (capacity : Nat) (s : σ)
    (t : List Exchange) :
    ∃ u, (resolve C host.recorded r capacity (s, t)).2.2 = t ++ u ∧
      ResolveDialogue r capacity u (resolve C host.recorded r capacity (s, t)).1 := by
  obtain ⟨u, hu, hsearch⟩ := locateFrom_dialogue host r.codeHash r.hashType.field 0 s t
  rw [resolve, locate]
  rcases hlocate : locateFrom host.recorded r.codeHash r.hashType.field 0 (s, t) with ⟨ending, s', t'⟩
  rw [hlocate] at hu hsearch
  obtain rfl : t' = t ++ u := hu
  cases ending with
  | found index =>
    obtain ⟨v, hv, hload⟩ := CodeImage.load_dialogue host r capacity index s' (t ++ u)
    refine ⟨u ++ v, ?_, .found hsearch hload⟩
    rw [← List.append_assoc]
    exact hv
  | absent => exact ⟨u, rfl, .missing (.inl rfl) hsearch⟩
  | refused e => exact ⟨u, rfl, .refused hsearch⟩
  | endless => exact ⟨u, rfl, .missing (.inr rfl) hsearch⟩

/-! ## Hosts that agree on cells -/

section AgreesOnCells

variable {host : Host σ} {other : Host τ} {related : σ → τ → Prop} {s : σ} {t : τ}

/-- Hosts that agree on cells give the same search. -/
theorem Host.AgreesOnCells.locateFrom (h : host.AgreesOnCells other related) (hash : Hash)
    (field : HashField) (i : Nat) (hs : related s t) :
    (locateFrom host hash field i s).1 = (locateFrom other hash field i t).1 ∧
      related (locateFrom host hash field i s).2 (locateFrom other hash field i t).2 := by
  induction hn : indexCount - i generalizing i s t with
  | zero =>
    rw [HashLoader.locateFrom, HashLoader.locateFrom, if_neg (by omega), if_neg (by omega)]
    exact ⟨rfl, hs⟩
  | succ n ih =>
    have hi : i < indexCount := by omega
    obtain ⟨hanswer, hs'⟩ := h.loadHash i field hs
    rcases hleft : host.loadHash i field s with ⟨a, s'⟩
    rcases hright : other.loadHash i field t with ⟨a', t'⟩
    rw [hleft, hright] at hanswer hs'
    obtain rfl : a = a' := hanswer
    rw [locateFrom_step host hash field hi hleft, locateFrom_step other hash field hi hright]
    split
    · exact ih (i + 1) hs' (by omega)
    · exact ⟨rfl, hs'⟩

/-- Hosts that agree on cells load the same. -/
theorem Host.AgreesOnCells.loadImage (h : host.AgreesOnCells other related) (r : CodeReference)
    (capacity index : Nat) (hs : related s t) :
    (CodeImage.load C host r capacity index s).1 = (CodeImage.load C other r capacity index t).1 ∧
      related (CodeImage.load C host r capacity index s).2
        (CodeImage.load C other r capacity index t).2 := by
  rw [CodeImage.load, CodeImage.load]
  -- Both hosts are asked for the length, and then, if it fits, for the data.
  obtain ⟨hmeasure, hs₁⟩ := h.loadData #v[] 0 index hs
  rcases hleft : host.loadData #v[] 0 index s with ⟨⟨measured, b⟩, s₁⟩
  rcases hright : other.loadData #v[] 0 index t with ⟨⟨measured', b'⟩, t₁⟩
  rw [hleft, hright] at hmeasure hs₁
  obtain ⟨rfl, rfl⟩ := Loaded.mk.inj hmeasure
  cases measured with
  | error e => exact ⟨rfl, hs₁⟩
  | ok len =>
    dsimp only
    split
    · exact ⟨rfl, hs₁⟩
    obtain ⟨hcopy, hs₂⟩ := h.loadData (Vector.replicate len 0) 0 index hs₁
    rcases hleft' : host.loadData (Vector.replicate len 0) 0 index s₁ with ⟨⟨copied, window⟩, s₂⟩
    rcases hright' : other.loadData (Vector.replicate len 0) 0 index t₁ with
      ⟨⟨copied', window'⟩, t₂⟩
    rw [hleft', hright'] at hcopy hs₂
    obtain ⟨rfl, rfl⟩ := Loaded.mk.inj hcopy
    cases copied with
    | error e => exact ⟨rfl, hs₂⟩
    | ok loaded =>
      dsimp only
      split
      · exact ⟨rfl, hs₂⟩
      · split
        · exact ⟨rfl, hs₂⟩
        · exact ⟨rfl, hs₂⟩

/-- Hosts that agree on cells resolve a reference to the same. -/
theorem Host.AgreesOnCells.resolve (h : host.AgreesOnCells other related) (r : CodeReference)
    (capacity : Nat) (hs : related s t) :
    (resolve C host r capacity s).1 = (resolve C other r capacity t).1 ∧
      related (resolve C host r capacity s).2 (resolve C other r capacity t).2 := by
  rw [HashLoader.resolve, HashLoader.resolve, locate, locate]
  obtain ⟨hsearch, hs'⟩ := h.locateFrom r.codeHash r.hashType.field 0 hs
  rcases hleft : HashLoader.locateFrom host r.codeHash r.hashType.field 0 s with ⟨ending, s'⟩
  rcases hright : HashLoader.locateFrom other r.codeHash r.hashType.field 0 t with ⟨ending', t'⟩
  rw [hleft, hright] at hsearch hs'
  obtain rfl : ending = ending' := hsearch
  cases ending with
  | found index => exact h.loadImage r capacity index hs'
  | absent | refused | endless => exact ⟨rfl, hs'⟩

end AgreesOnCells

end HashLoader
