import HashLoader.Proofs.Invocation.Failures

/-!
# The calls of an invocation

Whatever a host answers, an invocation calls it in one order: the script, hashes with rising index,
the measure of the data and its copy. `callSequence` is that order, and `FollowsProtocol` says that
a dialogue keeps to it, that nothing is called after a failure, and how far a dialogue gets for
some of the failures. `invoke_followsProtocol` shows it of every invocation.
-/

namespace HashLoader

/-- The calls of a resolution in which nothing fails. -/
def resolveSequence (field : HashField) (index len : Nat) : List HostCall :=
  (List.range (index + 1)).map (fun i => .hash i field) ++ [.data 0 0 index, .data len 0 index]

/-- The calls of an invocation in which nothing fails. -/
def callSequence (maxScriptSize : Nat) (field : HashField) (index len : Nat) : List HostCall :=
  .script maxScriptSize 0 :: resolveSequence field index len

/-- An exchange after which an invocation cannot go on: the host refuses, what it hands out is too
large, or the script is turned down. -/
def Exchange.Fails (config : Config) (payload : Payload) (label : String) : Exchange → Prop
  | script _ _ (.error _) _ => True
  | script _ _ (.ok len) b => config.maxScriptSize < len ∨
      ∃ e, request config payload label (b.take len) = .error e
  | hash _ _ (.error e) => e ≠ .itemMissing
  | hash _ _ (.ok _) => False
  | data _ _ _ (.error _) _ => True
  | data _ _ _ (.ok len) _ => config.maxCodeSize < len

variable {C : Compiler} {E : Engine} {config : Config} {payload : Payload} {label : String}
  {r : CodeReference} {t : List Exchange}

/-! ## The order of the calls -/

/-- The calls of a search come before those of a load. -/
theorem Search.Dialogue.calls_prefix {hash : Hash} {field : HashField} {ending : Search}
    (h : Search.Dialogue hash field 0 t ending) (len : Nat) :
    t.map Exchange.call <+: resolveSequence field t.length len := by
  rw [h.map_call, ← List.range_eq_range', resolveSequence, List.range_succ, List.map_append,
    List.append_assoc]
  exact List.prefix_append _ _

/-- A search that finds the hash asked for every index up to that of the dependency. -/
theorem Search.Dialogue.calls_of_found {hash : Hash} {field : HashField} {index : Nat}
    (h : Search.Dialogue hash field 0 t (.found index)) :
    t.map Exchange.call = (List.range (index + 1)).map fun i => .hash i field := by
  obtain ⟨front, ht, hindex, -⟩ := h.of_found
  have hlength : t.length = index + 1 := by
    rw [ht, List.length_append, List.length_singleton]
    omega
  rw [h.map_call, ← List.range_eq_range', hlength]

/-- Besides the hashes, a resolution measures and copies. -/
theorem length_resolveSequence (field : HashField) (index len : Nat) :
    (resolveSequence field index len).length = index + 3 := by
  rw [resolveSequence, List.length_append, List.length_map, List.length_range]
  rfl

/-- A dialogue that ends before the copy has fewer calls than the whole sequence. -/
theorem map_call_ne_resolveSequence {field : HashField} {index len : Nat}
    (h : t.length < index + 3) : t.map Exchange.call ≠ resolveSequence field index len := by
  intro heq
  have hlength := congrArg List.length heq
  rw [List.length_map, length_resolveSequence] at hlength
  omega

/-- The calls of a resolution are in order, and the copy has the length that was measured. -/
theorem ResolveDialogue.ordered {capacity : Nat} {result : Except LoaderError (CodeImage C)}
    (h : ResolveDialogue r capacity t result) :
    ∃ index len, t.map Exchange.call <+: resolveSequence r.hashType.field index len ∧
      (t.map Exchange.call = resolveSequence r.hashType.field index len →
        (∃ front copy, t = front ++ [.data 0 0 index (.ok len) [], copy]) ∧
          len ≤ alignUp capacity) := by
  cases h with
  | refused hsearch =>
    exact ⟨t.length, 0, hsearch.calls_prefix 0,
      fun heq => absurd heq (map_call_ne_resolveSequence (by omega))⟩
  | missing hending hsearch =>
    exact ⟨t.length, 0, hsearch.calls_prefix 0,
      fun heq => absurd heq (map_call_ne_resolveSequence (by omega))⟩
  | @found t u index result hsearch hload =>
    have hcalls := hsearch.calls_of_found
    have hlength : t.length = index + 1 := by
      have hlengths := congrArg List.length hcalls
      rwa [List.length_map, List.length_map, List.length_range] at hlengths
    -- The calls are those of the search and then those of the load.
    have hprefix : ∀ {u : List Exchange} {len : Nat},
        u.map Exchange.call <+: [.data 0 0 index, .data len 0 index] →
        (t ++ u).map Exchange.call <+: resolveSequence r.hashType.field index len := by
      intro u len hu
      rw [List.map_append, hcalls]
      exact (List.prefix_append_right_inj _).2 hu
    -- With the measure alone the sequence is not whole.
    have hmeasured : ∀ {x : Exchange} {len : Nat},
        (t ++ [x]).map Exchange.call ≠ resolveSequence r.hashType.field index len := by
      intro x len
      apply map_call_ne_resolveSequence
      rw [List.length_append, List.length_singleton]
      omega
    cases hload with
    | unmeasured => exact ⟨index, 0, hprefix ⟨_, rfl⟩, fun heq => absurd heq hmeasured⟩
    | @tooLarge len hlarge =>
      exact ⟨index, len, hprefix ⟨_, rfl⟩, fun heq => absurd heq hmeasured⟩
    | uncopied hfits => exact ⟨index, _, hprefix ⟨[], rfl⟩, fun _ => ⟨⟨t, _, rfl⟩, hfits⟩⟩
    | resized hfits hne => exact ⟨index, _, hprefix ⟨[], rfl⟩, fun _ => ⟨⟨t, _, rfl⟩, hfits⟩⟩
    | copied hfits hwindow hwrite hresult =>
      exact ⟨index, _, hprefix ⟨[], rfl⟩, fun _ => ⟨⟨t, _, rfl⟩, hfits⟩⟩

/-! ## Nothing is called after a failure -/

/-- No exchange that failed is followed by another. -/
def StopsAtFailure (config : Config) (payload : Payload) (label : String) (t : List Exchange) : Prop :=
  t.Pairwise fun x _ => ¬ x.Fails config payload label

/-- A search stops at a failure, and one that finds the hash meets none. -/
theorem Search.Dialogue.stopsAtFailure {hash : Hash} {field : HashField} {i : Nat} {ending : Search}
    (h : Search.Dialogue hash field i t ending) :
    StopsAtFailure config payload label t ∧
      (∀ index, ending = .found index → ∀ x ∈ t, ¬ x.Fails config payload label) := by
  induction h with
  | found hi =>
    refine ⟨List.pairwise_singleton _ _, fun index _ x hx => ?_⟩
    obtain rfl := List.mem_singleton.1 hx
    exact id
  | absent | refused => exact ⟨List.pairwise_singleton _ _, nofun⟩
  | endless => exact ⟨.nil, nofun⟩
  | @skip i a t ending hi hskip hrest ih =>
    have hgoes : ¬ (Exchange.hash i field a).Fails config payload label := by
      match a, hskip with
      | .ok reported, _ => exact id
      | .error e, hskip => exact fun hfails => hfails (of_decide_eq_true hskip)
    refine ⟨.cons (fun _ _ => hgoes) ih.1, fun index hfound x hx => ?_⟩
    rcases List.mem_cons.1 hx with rfl | hx
    · exact hgoes
    · exact ih.2 index hfound x hx

/-- A resolution stops at a failure. -/
theorem ResolveDialogue.stopsAtFailure {result : Except LoaderError (CodeImage C)}
    (haligned : alignUp config.maxCodeSize = config.maxCodeSize)
    (h : ResolveDialogue r config.maxCodeSize t result) :
    StopsAtFailure config payload label t := by
  cases h with
  | refused hsearch => exact hsearch.stopsAtFailure.1
  | missing hending hsearch => exact hsearch.stopsAtFailure.1
  | @found t u index result hsearch hload =>
    obtain ⟨hstops, hgoes⟩ : StopsAtFailure config payload label t ∧
        ∀ j, Search.found index = .found j → ∀ x ∈ t, ¬ x.Fails config payload label :=
      hsearch.stopsAtFailure
    have hmeasured : ∀ {len}, len ≤ alignUp config.maxCodeSize →
        ¬ (Exchange.data 0 0 index (.ok len) []).Fails config payload label := by
      intro len hfits hfails
      rw [haligned] at hfits
      exact absurd hfails (Nat.not_lt.2 hfits)
    refine List.pairwise_append.2 ⟨hstops, ?_, fun x hx _ _ => hgoes index rfl x hx⟩
    cases hload with
    | unmeasured | tooLarge => exact List.pairwise_singleton _ _
    | uncopied hfits => exact List.pairwise_pair.2 (hmeasured hfits)
    | resized hfits => exact List.pairwise_pair.2 (hmeasured hfits)
    | copied hfits => exact List.pairwise_pair.2 (hmeasured hfits)

/-! ## The protocol -/

/-- A dialogue and the report that came of it keep to the protocol. -/
structure FollowsProtocol (config : Config) (payload : Payload) (label : String)
    (t : List Exchange) (report : Report) : Prop where
  /-- The calls are made in order. Hashes are asked for in the one field that the script names, and
  the copy, which is the last call, is as long as the host measured just before. -/
  ordered : ∃ field index len,
    t.map Exchange.call <+: callSequence config.maxScriptSize field index len ∧
      (1 < t.length → ∃ n b r input, t.head? = some (.script config.maxScriptSize 0 (.ok n) b) ∧
        request config payload label (b.take n) = .ok (r, input) ∧ field = r.hashType.field) ∧
      (t.map Exchange.call = callSequence config.maxScriptSize field index len →
        (∃ front copy, t = front ++ [.data 0 0 index (.ok len) [], copy]) ∧
          len ≤ config.maxCodeSize)
  /-- Nothing is called after a failure. -/
  stops : StopsAtFailure config payload label t
  /-- If the host refuses the script, there is no other call. -/
  refused : ∀ n offset e b, .script n offset (.error e) b ∈ t →
    t.map Exchange.call = [.script config.maxScriptSize 0]
  /-- If the script is turned down, there is no other call. -/
  rejected : ∀ e, report.error = some e → e.rejectsScript = true →
    t.map Exchange.call = [.script config.maxScriptSize 0]
  /-- Code that is too large is measured and not copied. -/
  uncopied : ∀ len capacity, report.error = some (.codeTooLarge len capacity) →
    ∃ field index, t.map Exchange.call
      = .script config.maxScriptSize 0 :: (List.range (index + 1)).map (fun i => .hash i field)
        ++ [.data 0 0 index]

/-- A configuration that was checked reserves as much for code as it says. -/
theorem Config.alignUp_maxCodeSize (h : config.validate = .ok ()) :
    alignUp config.maxCodeSize = config.maxCodeSize :=
  alignUp_of_dvd (validate_eq_ok_iff.1 h).1.2

/-- What stands in an arena is not turned down for its size. -/
theorem CodeImage.ofArena_ne_codeTooLarge {arena : CodeArena} {n len capacity : Nat} :
    CodeImage.ofArena C r arena n ≠ .error (.codeTooLarge len capacity) := by
  intro h
  unfold CodeImage.ofArena at h
  repeat' split at h
  all_goals cases h

/-- A resolution of code that is too large ends with the measure. -/
theorem ResolveDialogue.of_codeTooLarge {capacity len limit : Nat}
    {result : Except LoaderError (CodeImage C)} (h : ResolveDialogue r capacity t result)
    (hresult : result = .error (.codeTooLarge len limit)) :
    ∃ index, t.map Exchange.call
      = (List.range (index + 1)).map (fun i => .hash i r.hashType.field) ++ [.data 0 0 index] := by
  cases h with
  | refused | missing => cases hresult
  | @found t u index result hsearch hload =>
    cases hload with
    | unmeasured | uncopied | resized => cases hresult
    | tooLarge hlarge => exact ⟨index, by rw [List.map_append, hsearch.calls_of_found]; rfl⟩
    | copied hfits hwindow hwrite hofArena =>
      rw [hresult] at hofArena
      exact absurd hofArena CodeImage.ofArena_ne_codeTooLarge

/-- A resolution does not ask for the script. -/
theorem ResolveDialogue.not_script {capacity : Nat} {result : Except LoaderError (CodeImage C)}
    (h : ResolveDialogue r capacity t result) {n offset : Nat} {a : Except HostError Nat} {b : Bytes} :
    .script n offset a b ∉ t := by
  intro hmem
  obtain ⟨index, len, hprefix, -⟩ := h.ordered
  have hcall := hprefix.subset (List.mem_map_of_mem hmem)
  simp [resolveSequence, Exchange.call] at hcall

/-- What turns down a script does not end a job. -/
theorem LoaderError.endsJob_of_rejectsScript {e : LoaderError} (h : e.rejectsScript = true) :
    e.endsJob = false := by
  cases e with
  | encoding _ | scriptTooLarge _ _ | invalidArgsFormat _ _ | unknownHashType _
  | argumentsLen _ _ => rfl
  | _ => cases h

/-- A failure that does not end a job is that of the preparation. -/
theorem Loader.report_error_of_prepare (loader : Loader E)
    {prepared : Except LoaderError (Job E.toCompiler)} {e : LoaderError}
    (hdialogue : PrepareDialogue loader.config payload label t prepared)
    (herror : (loader.report prepared).error = some e) (hends : e.endsJob = false) :
    prepared = .error e := by
  cases prepared with
  | error e' => exact congrArg Except.error (Option.some.inj herror)
  | ok job =>
    rw [Job.run_endsJob (hdialogue.checked rfl) herror] at hends
    cases hends

/-- A dialogue that ends with the script keeps to the protocol, if its report is not one on code. -/
theorem followsProtocol_of_script {a : Except HostError Nat} {b : Bytes} {report : Report}
    (hreport : ∀ len capacity, report.error ≠ some (.codeTooLarge len capacity)) :
    FollowsProtocol config payload label [.script config.maxScriptSize 0 a b] report where
  ordered := ⟨.data, 0, 0, ⟨_, rfl⟩, fun hlt => absurd hlt (Nat.lt_irrefl 1), nofun⟩
  stops := List.pairwise_singleton _ _
  refused _ _ _ _ _ := rfl
  rejected _ _ _ := rfl
  uncopied len capacity herror := absurd herror (hreport len capacity)

/-- A preparation and the report of it keep to the protocol. -/
theorem PrepareDialogue.followsProtocol (loader : Loader E)
    {prepared : Except LoaderError (Job E.toCompiler)}
    (h : PrepareDialogue loader.config payload label t prepared) :
    FollowsProtocol loader.config payload label t (loader.report prepared) := by
  have haligned := Config.alignUp_maxCodeSize loader.valid
  have hrejected : ∀ {e}, (loader.report prepared).error = some e → e.rejectsScript = true →
      prepared = .error e := fun herror hrejects =>
    loader.report_error_of_prepare h herror (LoaderError.endsJob_of_rejectsScript hrejects)
  have htooLarge : ∀ {len capacity},
      (loader.report prepared).error = some (.codeTooLarge len capacity) →
      prepared = .error (.codeTooLarge len capacity) := fun herror =>
    loader.report_error_of_prepare h herror rfl
  cases h with
  -- Without a reference there is no other call, and no code that could be too large.
  | refused | tooLarge => exact followsProtocol_of_script fun _ _ herror => nomatch htooLarge herror
  | unreadable hfits hrequest =>
    refine followsProtocol_of_script fun len capacity herror => ?_
    obtain rfl := Except.error.inj (htooLarge herror)
    cases request_rejects hrequest
  -- With one, the calls of the resolution follow that for the script.
  | @resolved n b input r t result hfits hrequest hresolve =>
    obtain ⟨index, len, hprefix, hwhole⟩ := hresolve.ordered
    rw [haligned] at hwhole
    have hgoes : ¬ (Exchange.script loader.config.maxScriptSize 0 (.ok n) b).Fails loader.config
        payload label := by
      rintro (hlarge | ⟨e, he⟩)
      · exact absurd hlarge (Nat.not_lt.2 hfits)
      · rw [hrequest] at he
        cases he
    refine
      { ordered := ⟨r.hashType.field, index, len, (List.prefix_cons_inj _).2 hprefix,
          fun _ => ⟨n, b, r, input, rfl, hrequest, rfl⟩, fun heq => ?_⟩
        stops := .cons (fun _ _ => hgoes) (hresolve.stopsAtFailure haligned)
        refused := fun _ _ _ _ hmem => ?_
        rejected := fun e herror hrejects => ?_
        uncopied := fun len capacity herror => ?_ }
    · obtain ⟨⟨front, copy, ht⟩, hbound⟩ := hwhole (List.cons.inj heq).2
      exact ⟨⟨_ :: front, copy, by rw [ht, List.cons_append]⟩, hbound⟩
    · rcases List.mem_cons.1 hmem with heq | hmem
      · cases heq
      · exact absurd hmem hresolve.not_script
    · cases result with
      | error e' =>
        obtain rfl := Except.error.inj (hrejected herror hrejects)
        have hdenies := hresolve.denies
        cases e' with
        | encoding _ | scriptTooLarge _ _ | invalidArgsFormat _ _ | unknownHashType _
        | argumentsLen _ _ => cases hdenies
        | _ => cases hrejects
      | ok image => cases hrejected herror hrejects
    · cases result with
      | error e' =>
        obtain rfl := Except.error.inj (htooLarge herror)
        obtain ⟨index, hcalls⟩ := hresolve.of_codeTooLarge rfl
        refine ⟨r.hashType.field, index, ?_⟩
        rw [List.map_cons, hcalls, List.cons_append]
        rfl
      | ok image => cases htooLarge herror

/-- Every invocation keeps to the protocol, whatever the host answers. The calls that the host
receives are those of the dialogue. -/
theorem Loader.invoke_followsProtocol {σ : Type} (loader : Loader E) (host : Host σ)
    (payload : Payload) (label : String) (s : σ) :
    loader.calls host payload label s
        = (loader.dialogue host payload label s).map Exchange.call ∧
      FollowsProtocol loader.config payload label (loader.dialogue host payload label s)
        (loader.invoke host payload label s).1 := by
  obtain ⟨hdialogue, hreport⟩ := loader.invoke_dialogue host payload label s
  refine ⟨loader.calls_eq host payload label s, ?_⟩
  rw [hreport]
  exact hdialogue.followsProtocol loader

end HashLoader
