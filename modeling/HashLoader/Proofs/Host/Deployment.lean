import HashLoader.Proofs.Host.Resolution

/-!
# What deployments keep in step

A local host holds the same knowledge twice: in the list of its cells, and in the index that names
the first cell with a data hash. A command either leaves both alone or puts one cell behind the
others (`apply_cases`), and the index learns of the cell only if it is the first with its data
(`findByDataHash_push`). `Indexed` is what this keeps: the index says what going through the cells
would. It holds before anything is deployed and every command keeps it, so it holds after every run
(`Indexed.run`).

Cells are only ever added behind (`cells_prefix_run`). As long as the names of transactions differ,
a cell is therefore found by its out point from then on (`cell?_of_mem`), whatever else is deployed.
`run_consistent` puts this together with the search of the loader.
-/

namespace HashLoader.LocalHost

variable {h : LocalHost} {command : Command} {commands : List Command} {c : Cell} {o : OutPoint}
  {hash txHash : Hash} {data : Bytes}

/-! ## What a command does -/

/-- Puts a cell behind the others. The index learns of it unless an earlier cell has the same data
hash. -/
def push (h : LocalHost) (c : Cell) : LocalHost :=
  { h with
    cells := h.cells ++ [c]
    byDataHash :=
      if (h.findByDataHash (digest c.data)).isSome then h.byDataHash
      else h.byDataHash ++ [(digest c.data, c.outPoint)] }

/-- The out point that a command gives. -/
def answer? (h : LocalHost) : Command → Option OutPoint
  | .deploy txHash data => some (h.deploy txHash data).1
  | .deployTyped txHash data typeScript => some (h.deployTyped txHash data typeScript).1
  | .setScript _ => none

/-- Data whose hash is known are not deployed. -/
theorem deploy_of_known (hfind : h.findByDataHash (digest data) = some o) :
    h.deploy txHash data = (o, h) := by
  simp only [deploy, hfind]

/-- Data whose hash is not known make an untyped cell. -/
theorem deploy_of_unknown (hfind : h.findByDataHash (digest data) = none) :
    h.deploy txHash data = (⟨txHash, 0⟩, h.push ⟨⟨txHash, 0⟩, data, none⟩) := by
  simp only [deploy, hfind, push, Option.isSome_none, Bool.false_eq_true, if_false]

/-- A command leaves the cells and the index alone, or it puts one cell behind the others. An
untyped cell is only put there if its data hash is not known. -/
theorem apply_cases (h : LocalHost) (command : Command) :
    ((h.apply command).cells = h.cells ∧ (h.apply command).byDataHash = h.byDataHash) ∨
      ∃ c, h.apply command = h.push c ∧
        (c.typeScript = none → h.findByDataHash (digest c.data) = none) := by
  cases command with
  | deploy txHash data =>
    rw [apply]
    cases hfind : h.findByDataHash (digest data) with
    | some o =>
      rw [deploy_of_known hfind]
      exact .inl ⟨rfl, rfl⟩
    | none =>
      rw [deploy_of_unknown hfind]
      exact .inr ⟨_, rfl, fun _ => hfind⟩
  | deployTyped txHash data typeScript =>
    exact .inr ⟨⟨⟨txHash, 0⟩, data, some typeScript⟩, rfl, nofun⟩
  | setScript script => exact .inl ⟨rfl, rfl⟩

/-! ## The index and the cells -/

/-- The index is in step with the cells. -/
structure Indexed (h : LocalHost) : Prop where
  /-- It says of a data hash what going through the cells says. -/
  find : ∀ hash, h.findByDataHash hash
    = (h.cells.find? fun c => c.hash? .data == some hash).map (·.outPoint)
  /-- An untyped cell has no cell with the same data hash before it. -/
  untyped : h.cells.Pairwise fun c c' => c'.typeScript = none → digest c.data ≠ digest c'.data

/-- A cell is what its data hash is looked up to, unless the hash was known before. -/
theorem findByDataHash_push (h : LocalHost) (c : Cell) (hash : Hash) :
    (h.push c).findByDataHash hash = (h.findByDataHash hash).or
      (if digest c.data = hash then some c.outPoint else none) := by
  unfold push findByDataHash
  dsimp only
  split
  -- The hash of the cell is known, so the index stays.
  · next hknown =>
    obtain ⟨o, ho⟩ := Option.isSome_iff_exists.1 hknown
    split
    · next heq => rw [← heq, ho, Option.some_or]
    · rw [Option.or_none]
  · rw [List.lookup_append, List.lookup_cons, List.lookup_nil]
    congr 1
    by_cases heq : digest c.data = hash
    · rw [if_pos heq, beq_iff_eq.2 heq.symm]
    · rw [if_neg heq, beq_eq_false_iff_ne.2 (Ne.symm heq)]

/-- Before anything is deployed, the index is in step. -/
theorem indexed_empty : empty.Indexed where
  find _ := rfl
  untyped := List.Pairwise.nil

/-- One more cell is kept in step, if it may be untyped. -/
theorem Indexed.push (hindexed : h.Indexed)
    (hnew : c.typeScript = none → h.findByDataHash (digest c.data) = none) :
    (h.push c).Indexed where
  find hash := by
    rw [findByDataHash_push, hindexed.find]
    show _ = Option.map _ (List.find? _ (h.cells ++ [c]))
    rw [List.find?_append, Option.map_or, List.find?_singleton]
    by_cases heq : digest c.data = hash
    · rw [if_pos heq, if_pos (by rw [Cell.hash?, heq]; exact beq_of_eq rfl), Option.map_some]
    · rw [if_neg heq, if_neg (by simpa [Cell.hash?] using heq), Option.map_none]
  untyped := by
    refine List.pairwise_append.2 ⟨hindexed.untyped, List.pairwise_singleton _ _, ?_⟩
    intro earlier hearlier c' hc' huntyped heq
    obtain rfl := List.mem_singleton.1 hc'
    have hnone := hnew huntyped
    rw [hindexed.find, Option.map_eq_none_iff, find?_eq_none_iff_missing] at hnone
    exact hnone earlier hearlier (by rw [Cell.hash?, heq])

/-- Every command keeps the index in step. -/
theorem Indexed.apply (hindexed : h.Indexed) (command : Command) : (h.apply command).Indexed := by
  obtain ⟨hcells, hindex⟩ | ⟨c, hpush, hnew⟩ := apply_cases h command
  · exact
      { find := fun hash => by
          rw [findByDataHash, hindex, hcells]
          exact hindexed.find hash
        untyped := hcells ▸ hindexed.untyped }
  · exact hpush ▸ hindexed.push hnew

/-- Every run keeps the index in step. -/
theorem Indexed.run (hindexed : h.Indexed) (commands : List Command) : (h.run commands).Indexed := by
  induction commands generalizing h with
  | nil => exact hindexed
  | cons command rest ih => exact ih (hindexed.apply command)

/-! ## Out points -/

/-- A run is a run of its front and then of its back. -/
theorem run_append (h : LocalHost) (front back : List Command) :
    h.run (front ++ back) = (h.run front).run back :=
  List.foldl_append

/-- A command only adds cells behind the others. -/
theorem cells_prefix_apply (h : LocalHost) (command : Command) :
    h.cells <+: (h.apply command).cells := by
  obtain ⟨hcells, -⟩ | ⟨c, hpush, -⟩ := apply_cases h command
  · exact hcells ▸ List.prefix_rfl
  · exact hpush ▸ List.prefix_append _ _

/-- A run only adds cells behind the others. -/
theorem cells_prefix_run (h : LocalHost) (commands : List Command) :
    h.cells <+: (h.run commands).cells := by
  induction commands generalizing h with
  | nil => exact List.prefix_rfl
  | cons command rest ih => exact (cells_prefix_apply h command).trans (ih (h.apply command))

/-- All transactions that made a cell have different names. -/
def Distinct (h : LocalHost) : Prop := (h.cells.map (·.outPoint.txHash)).Nodup

instance : DecidablePred Distinct := fun h =>
  inferInstanceAs (Decidable (h.cells.map (·.outPoint.txHash)).Nodup)

/-- If they do in the end, they did before. -/
theorem Distinct.of_run (hdistinct : (h.run commands).Distinct) : h.Distinct :=
  hdistinct.sublist ((cells_prefix_run h commands).sublist.map _)

/-- A cell is found by its out point. -/
theorem cell?_of_mem (hdistinct : h.Distinct) (hc : c ∈ h.cells) : h.cell? c.outPoint = some c := by
  obtain ⟨front, back, hcells⟩ := List.append_of_mem hc
  rw [Distinct, hcells, List.map_append, List.map_cons, List.nodup_append] at hdistinct
  obtain ⟨-, -, hfront⟩ := hdistinct
  have hfound : (c :: back).find? (fun c' => c'.outPoint == c.outPoint) = some c :=
    List.find?_cons_of_pos (beq_of_eq rfl)
  -- No cell in front has the name of the transaction, so none has the out point.
  have hnone : front.find? (fun c' => c'.outPoint == c.outPoint) = none := by
    rw [List.find?_eq_none]
    intro c' hc' heq
    exact hfront _ (List.mem_map_of_mem hc') _ List.mem_cons_self
      (congrArg OutPoint.txHash (eq_of_beq heq))
  rw [cell?, hcells, List.find?_append, hnone, Option.none_or, hfound]

/-- What a command that gives a cell asks for. Data that are not deployed again have a cell with the
same hash. -/
def Command.Deploys : Command → Cell → Prop
  | .deploy _ data, c => digest c.data = digest data
  | .deployTyped txHash data typeScript, c => c = ⟨⟨txHash, 0⟩, data, some typeScript⟩
  | .setScript _, _ => False

/-- The out point that a command gives is the one of a cell. -/
theorem Indexed.answer (hindexed : h.Indexed) (hanswer : h.answer? command = some o) :
    ∃ c ∈ (h.apply command).cells, c.outPoint = o ∧ command.Deploys c := by
  cases command with
  | deploy txHash data =>
    have ho : (h.deploy txHash data).1 = o := Option.some.inj hanswer
    rw [LocalHost.apply]
    cases hfind : h.findByDataHash (digest data) with
    | some known =>
      rw [deploy_of_known hfind] at ho ⊢
      rw [hindexed.find, Option.map_eq_some_iff] at hfind
      obtain ⟨c, hc, hname⟩ := hfind
      obtain ⟨index, hfirst⟩ := find?_eq_some_iff_firstAt.1 hc
      exact ⟨c, List.mem_of_getElem? hfirst.cell, hname.trans ho, Option.some.inj hfirst.hash_eq⟩
    | none =>
      rw [deploy_of_unknown hfind] at ho ⊢
      exact ⟨_, List.mem_append_right _ List.mem_cons_self, ho, rfl⟩
  | deployTyped txHash data typeScript =>
    exact ⟨_, List.mem_append_right _ List.mem_cons_self, Option.some.inj hanswer, rfl⟩
  | setScript script => cases hanswer

/-! ## Every run -/

/-- What holds of the cells and the index of a local host. -/
structure Consistent (h : LocalHost) : Prop where
  /-- A data hash is looked up to the out point of the first cell that has it. -/
  found : ∀ hash o, h.findByDataHash hash = some o ↔
    ∃ index c, h.FirstAt .data hash index c ∧ c.outPoint = o ∧ h.cell? o = some c
  /-- It is looked up to nothing if no cell has it. -/
  missing : ∀ hash, h.findByDataHash hash = none ↔ ∀ c ∈ h.cells, digest c.data ≠ hash
  /-- The search for a reference to data finds the same cell. -/
  located : ∀ r : CodeReference, r.hashType.isData = true → ∀ index,
    locate LocalHost.host r h = (.found index, h) ↔ ∃ c, h.FirstAt .data r.codeHash index c
  /-- It finds nothing if its hash is looked up to nothing. -/
  absent : ∀ r : CodeReference, r.hashType.isData = true →
    (locate LocalHost.host r h = (.absent, h) ↔ h.findByDataHash r.codeHash = none)
  /-- An untyped cell has no cell with the same data hash before it. -/
  untyped : ∀ (i j : Nat) (c c' : Cell), i < j → h.cells[i]? = some c → h.cells[j]? = some c' →
    c'.typeScript = none → digest c.data ≠ digest c'.data
  /-- Deploying data with a hash that is already there gives the first cell with it, and nothing
  changes. -/
  redeployed : ∀ c ∈ h.cells, ∀ txHash data, digest c.data = digest data →
    ∃ index first, h.FirstAt .data (digest data) index first ∧
      h.deploy txHash data = (first.outPoint, h)

/-- In an index that is in step, lookup gives the first cell with the hash. -/
theorem Indexed.found_iff (hindexed : h.Indexed) (hdistinct : h.Distinct) :
    h.findByDataHash hash = some o ↔
      ∃ index c, h.FirstAt .data hash index c ∧ c.outPoint = o ∧ h.cell? o = some c := by
  rw [hindexed.find, Option.map_eq_some_iff]
  constructor
  · rintro ⟨c, hc, rfl⟩
    obtain ⟨index, hfirst⟩ := find?_eq_some_iff_firstAt.1 hc
    exact ⟨index, c, hfirst, rfl, cell?_of_mem hdistinct (List.mem_of_getElem? hfirst.cell)⟩
  · rintro ⟨index, c, hfirst, rfl, -⟩
    exact ⟨c, find?_eq_some_iff_firstAt.2 ⟨index, hfirst⟩, rfl⟩

/-- In an index that is in step, lookup gives nothing if no cell has the hash. -/
theorem Indexed.missing_iff (hindexed : h.Indexed) :
    h.findByDataHash hash = none ↔ ∀ c ∈ h.cells, c.hash? .data ≠ some hash := by
  rw [hindexed.find, Option.map_eq_none_iff, find?_eq_none_iff_missing]

/-- If an index is in step, data with the hash of a cell are not deployed again. -/
theorem Indexed.deploy_of_mem (hindexed : h.Indexed) (hdistinct : h.Distinct) (hc : c ∈ h.cells)
    (heq : digest c.data = digest data) :
    ∃ index first, h.FirstAt .data (digest data) index first ∧
      h.deploy txHash data = (first.outPoint, h) := by
  have hhash : c.hash? .data = some (digest data) := congrArg some heq
  obtain ⟨index, first, hfirst⟩ := exists_firstAt hc hhash
  have hcell := cell?_of_mem hdistinct (List.mem_of_getElem? hfirst.cell)
  have hknown := (hindexed.found_iff hdistinct).2 ⟨index, first, hfirst, rfl, hcell⟩
  exact ⟨index, first, hfirst, deploy_of_known hknown⟩

/-- If the index is in step with cells of different names, the host is consistent. -/
theorem Indexed.consistent (hindexed : h.Indexed) (hdistinct : h.Distinct)
    (hroom : h.cells.length < indexCount) : h.Consistent where
  found _ _ := hindexed.found_iff hdistinct
  missing hash := by
    rw [hindexed.missing_iff]
    simp [Cell.hash?]
  located r hdata index := by
    rw [locate_eq_found_iff hroom, HashType.field, if_pos hdata]
  absent r hdata := by
    rw [locate_eq_absent_iff hroom, HashType.field, if_pos hdata, hindexed.missing_iff]
  untyped i j c c' hij hc hc' huntyped := by
    obtain ⟨hi, rfl⟩ := List.getElem?_eq_some_iff.1 hc
    obtain ⟨hj, rfl⟩ := List.getElem?_eq_some_iff.1 hc'
    exact List.pairwise_iff_getElem.1 hindexed.untyped i j hi hj hij huntyped
  redeployed _ hc _ _ heq := hindexed.deploy_of_mem hdistinct hc heq

/-- After every run of deployments and changes of script, lookup by data hash, the search of the
loader and the cells agree. An out point that was given names one cell from then on, so its data and
its code hash of every type stay. Only the names of transactions have to differ, and the cells to be
fewer than the indices that can be asked for, as in any memory they are. -/
theorem run_consistent (commands : List Command) (hdistinct : (empty.run commands).Distinct)
    (hroom : (empty.run commands).cells.length < indexCount) :
    (empty.run commands).Consistent ∧
      ∀ front command back o, commands = front ++ command :: back →
        (empty.run front).answer? command = some o →
        ∃ c, command.Deploys c ∧ ∀ later, later <+: back →
          (empty.run (front ++ command :: later)).data? o = some c.data ∧
            ∀ t : HashType,
              (empty.run (front ++ command :: later)).codeHash? o t = c.hash? t.field := by
  refine ⟨(indexed_empty.run commands).consistent hdistinct hroom, ?_⟩
  rintro front command back o rfl hanswer
  obtain ⟨c, hc, rfl, hdeploys⟩ := (indexed_empty.run front).answer hanswer
  refine ⟨c, hdeploys, fun later hlater => ?_⟩
  -- What is run later only adds cells, and what follows it cannot have made names equal.
  obtain ⟨rest, rfl⟩ := hlater
  have hsplit : front ++ command :: (later ++ rest) = (front ++ command :: later) ++ rest := by simp
  rw [hsplit, run_append] at hdistinct
  have hmem : c ∈ (empty.run (front ++ command :: later)).cells := by
    rw [run_append]
    exact (cells_prefix_run _ later).mem hc
  have hcell := cell?_of_mem hdistinct.of_run hmem
  exact ⟨by rw [data?, hcell, Option.map_some], fun t => by rw [codeHash?, hcell, Option.bind_some]⟩

/-- The same data with a type script and without, and then other data. -/
def repeated : List Command :=
  [.deployTyped (.replicate 1) [1] [2], .deploy (.replicate 2) [1], .deploy (.replicate 3) [4]]

/-- The second deployment gives the out point of the first one, which then stays. -/
theorem run_consistent_repeated :
    (empty.run repeated).Distinct ∧ (empty.run repeated).cells.length < indexCount ∧
      (empty.run repeated).Consistent ∧
      ∃ c : Cell, digest c.data = digest [1] ∧
        (empty.run repeated).data? ⟨.replicate 1, 0⟩ = some c.data := by
  have hdistinct : (empty.run repeated).Distinct := by decide +kernel
  have hroom : (empty.run repeated).cells.length < indexCount := by decide +kernel
  obtain ⟨hconsistent, hstays⟩ := run_consistent repeated hdistinct hroom
  obtain ⟨c, hdeploys, hlater⟩ := hstays [.deployTyped (.replicate 1) [1] [2]]
    (.deploy (.replicate 2) [1]) [.deploy (.replicate 3) [4]] ⟨.replicate 1, 0⟩ rfl
    (by decide +kernel)
  exact ⟨hdistinct, hroom, hconsistent, c, hdeploys, (hlater _ List.prefix_rfl).1⟩

end HashLoader.LocalHost
