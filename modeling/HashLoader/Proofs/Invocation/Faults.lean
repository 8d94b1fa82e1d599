import HashLoader.Proofs.Invocation.Log

/-!
# Where running code fails

A request can fail, and then the invocation is over: what it comes to has that failure, and the
store that the request left. It tells where it happened, too. A call of an entry point is blamed on
the code (`Loader.run_of_call_fails`), and the start is blamed on the code unless it failed in
another way than by a trap or for want of cycles (`Loader.run_of_start_fails`).

The other way round, a failure of running code comes from a request that failed
(`Loader.exists_fails`), and code that cannot be loaded was not called, but perhaps started
(`Loader.start_fails_of_cannotLoad`).
-/

namespace HashLoader

variable {E : Engine} {config : Config} {job : Job E.toCompiler} {store : E.Store}

/-- The stage that was reached when an entry point is called. -/
def EntryPoint.stage : EntryPoint → Stage
  | .construct => .symbolsResolved
  | .evaluate => .contextConstructed
  | .teardown => .evaluated

/-- A failure that ends calls is that of a call, also where code is started. -/
theorem instanceError_of_endsCall {e : EngineError} (h : (instanceError e).endsCall = true) :
    instanceError e = entryError e := by
  cases e with
  | other reason => cases h
  | outOfCycles | trap reason => rfl

/-! ## Guests -/

/-- A call fails if the request does. -/
theorem Guest.call_of_fails {budget : Nat} {g : Guest E} {c : EntryCall} {e : EngineError}
    (h : (Guest.request budget (g, c)).Fails e) :
    g.call budget c
      = (.error (entryError e), { g with store := (Guest.request budget (g, c)).left }) := by
  have hresult : (E.call budget (g.function c.entry) c.values g.store).1 = .error e := h
  rw [Guest.call_eq, hresult]
  rfl

/-- And only then. -/
theorem Guest.fails_of_call {budget : Nat} {g g' : Guest E} {c : EntryCall} {e : LoaderError}
    (h : g.call budget c = (.error e, g')) :
    ∃ why, (Guest.request budget (g, c)).Fails why ∧ entryError why = e := by
  rw [Guest.call_eq] at h
  have hresult := congrArg Prod.fst h
  dsimp only at hresult
  split at hresult
  · cases hresult
  · next why hwhy => exact ⟨why, hwhy, Except.error.inj hresult⟩

/-- Where a call of a guest fails, the guest comes to its failure and the store that it left. -/
theorem Guest.Course.run_of_failed {g g' g'' : Guest E} {calls : List (Guest E × EntryCall)}
    {r : Run E} {c : EntryCall} {e : LoaderError} (h : g.Course config calls r)
    (hmem : (g', c) ∈ calls) (hfailed : g'.call config.maxCycles c = (.error e, g'')) :
    r.reached = c.entry.stage ∧ r.error = some e ∧ r.store = g''.store := by
  have hok : ∀ {g₀ g₁ : Guest E} {c₀ : EntryCall} {word : Int32},
      g₀.call config.maxCycles c₀ = (.ok word, g₁) → ¬ (g' = g₀ ∧ c = c₀) := by
    rintro g₀ g₁ c₀ word hcall ⟨rfl, rfl⟩
    rw [hcall] at hfailed
    cases hfailed
  have herror : ∀ {g₀ g₁ : Guest E} {c₀ : EntryCall} {e₀ : LoaderError} {outcome : Option Int32},
      g₀.call config.maxCycles c₀ = (.error e₀, g₁) → g' = g₀ ∧ c = c₀ →
      (⟨c₀.entry.stage, outcome, some e₀, g₁.store⟩ : Run E).reached = c.entry.stage ∧
        some e₀ = some e ∧ g₁.store = g''.store := by
    rintro g₀ g₁ c₀ e₀ outcome hcall ⟨rfl, rfl⟩
    rw [hcall] at hfailed
    cases hfailed
    exact ⟨rfl, rfl, rfl⟩
  -- Only the last call can have failed, since after a failure there is none.
  cases h with
  | unconstructed hfirst =>
    simp only [List.mem_cons, List.not_mem_nil, or_false, Prod.mk.injEq] at hmem
    exact herror hfirst hmem
  | null hfirst =>
    simp only [List.mem_cons, List.not_mem_nil, or_false, Prod.mk.injEq] at hmem
    exact absurd hmem (hok hfirst)
  | interrupted hfirst hctx hsecond =>
    simp only [List.mem_cons, List.not_mem_nil, or_false, Prod.mk.injEq] at hmem
    rcases hmem with hmem | hmem
    · exact absurd hmem (hok hfirst)
    · exact herror hsecond hmem
  | declined hfirst hctx hsecond hstatus =>
    simp only [List.mem_cons, List.not_mem_nil, or_false, Prod.mk.injEq] at hmem
    rcases hmem with hmem | hmem
    · exact absurd hmem (hok hfirst)
    · exact absurd hmem (hok hsecond)
  | kept hfirst hctx hsecond hthird =>
    simp only [List.mem_cons, List.not_mem_nil, or_false, Prod.mk.injEq] at hmem
    rcases hmem with hmem | hmem | hmem
    · exact absurd hmem (hok hfirst)
    · exact absurd hmem (hok hsecond)
    · exact herror hthird hmem
  | finished hfirst hctx hsecond hthird =>
    simp only [List.mem_cons, List.not_mem_nil, or_false, Prod.mk.injEq] at hmem
    rcases hmem with hmem | hmem | hmem
    · exact absurd hmem (hok hfirst)
    · exact absurd hmem (hok hsecond)
    · exact absurd hmem (hok hthird)

/-- A guest that comes to a failure of running code made a call that failed with it. -/
theorem Guest.Course.exists_fails {g : Guest E} {calls : List (Guest E × EntryCall)} {r : Run E}
    {e : LoaderError} (h : g.Course config calls r) (herror : r.error = some e)
    (hends : e.endsCall = true) :
    ∃ x ∈ calls, ∃ why, (Guest.request config.maxCycles x).Fails why ∧ entryError why = e := by
  cases h with
  | unconstructed hlast | interrupted _ _ hlast | kept _ _ _ hlast =>
    cases herror
    exact ⟨_, List.mem_of_getLast? rfl, Guest.fails_of_call hlast⟩
  | null | declined =>
    cases herror
    cases hends
  | finished => cases herror

/-- No guest comes to a failure of loading. -/
theorem Guest.Course.error_ne_cannotLoad {g : Guest E} {calls : List (Guest E × EntryCall)} {r : Run E}
    (h : g.Course config calls r) (reason : String) : r.error ≠ some (.cannotLoad reason) := by
  have hcall : ∀ {g₀ g₁ : Guest E} {c : EntryCall} {e : LoaderError},
      g₀.call config.maxCycles c = (.error e, g₁) → some e ≠ some (.cannotLoad reason) := by
    intro g₀ g₁ c e hfailed heq
    have hends := Guest.call_endsCall hfailed
    rw [Option.some.inj heq] at hends
    cases hends
  cases h with
  | unconstructed hlast | interrupted _ _ hlast | kept _ _ _ hlast => exact hcall hlast
  | null | declined | finished => exact nofun

/-! ## Jobs -/

/-- Where the start fails, the job comes to that failure, and no entry point is called. -/
theorem Job.run_of_start_fails (hready : job.Reserved config) {x : Request E} {e : EngineError}
    (h : job.startRequest? config store = some x) (hfails : x.Fails e) :
    job.run config store = .failed .symbolsResolved (instanceError e) x.left ∧
      job.entryCalls config store = [] := by
  obtain ⟨symbols, linked, hsymbols, hlink, rfl⟩ := Job.startRequest?_eq_some_iff.1 h
  obtain ⟨arena, harena, -, hstaged⟩ := hready.staged
  have hstart : E.start config.maxCycles linked (E.addMemory (job.memory config) store)
      = (.error e, (Request.start config.maxCycles linked
          (E.addMemory (job.memory config) store)).left) := Prod.ext hfails rfl
  -- All that comes before the start was passed, and the start comes before all that is left.
  have hmade : job.instantiate config symbols store = .error (instanceError e,
      (Request.start config.maxCycles linked (E.addMemory (job.memory config) store)).left) := by
    have hlink' : E.link (guestEnvironment (job.memory config)) job.image.module = .ok linked := hlink
    rw [instantiate, harena]
    dsimp only
    rw [hstaged]
    dsimp only
    rw [hlink']
    dsimp only
    rw [hstart]
  constructor
  · rw [run, hsymbols]
    dsimp only
    rw [hmade]
  · rw [entryCalls, guest?, hsymbols]
    dsimp only
    rw [hmade]
    rfl

/-- Where a call of an entry point fails, the job comes to that failure. -/
theorem Job.run_of_call_fails {g : Guest E} {c : EntryCall} {e : EngineError}
    (h : (g, c) ∈ job.entryCalls config store)
    (hfails : (Guest.request config.maxCycles (g, c)).Fails e) :
    (job.run config store).reached = c.entry.stage ∧
      (job.run config store).error = some (entryError e) ∧
      (job.run config store).store = (Guest.request config.maxCycles (g, c)).left := by
  obtain ⟨guest, -, hcourse⟩ := Job.guest_of_entryCalls (List.ne_nil_of_mem h)
  exact hcourse.run_of_failed h (Guest.call_of_fails hfails)

/-- A job that comes to a failure of running code made a request that failed with it. -/
theorem Job.exists_fails {e : LoaderError} (herror : (job.run config store).error = some e)
    (hinput : checkInput job.payload job.label = .ok ()) (hends : e.endsCall = true) :
    ∃ x ∈ job.requests config store, ∃ why, x.Fails why ∧ entryError why = e := by
  have hcourse := job.course config store
  generalize job.run config store = r at hcourse herror
  cases hcourse with
  | denied hsymbols =>
    cases herror
    have hdenies := Symbols.find_denies hsymbols
    cases e with
    | trapped _ | exceededMaxCycles => cases hdenies
    | _ => cases hends
  | taken _ hguest =>
    obtain ⟨x, hx, hfails⟩ := hguest.exists_fails herror hends
    exact ⟨_, List.mem_append_right _ (List.mem_map_of_mem hx), hfails⟩
  | @unready symbols e left hsymbols _ hway =>
    cases herror
    -- Of the ways not to become ready, only a failed start is a failure of running code.
    cases hway with
    | unreserved harena =>
      obtain ⟨reason, rfl⟩ := ExecutionArena.error_of_reserve harena
      cases hends
    | unstaged hunchecked => cases hinput.symm.trans hunchecked
    | unlinked => cases hends
    | @unstarted linked why left hready hlink hstart =>
      refine ⟨.start config.maxCycles linked (E.addMemory (job.memory config) store),
        List.mem_append_left _ (Option.mem_toList.2 ?_), why, congrArg Prod.fst hstart,
        (instanceError_of_endsCall hends).symm⟩
      exact Job.startRequest?_eq_some_iff.2 ⟨symbols, linked, hsymbols, hlink, rfl⟩
    | unbound _ _ _ _ hbind =>
      rw [Symbol.error_of_bind hbind] at hends
      cases hends

/-- The code of a job that cannot be loaded was not called, and if it was started, then that failed
in another way than by a trap or for want of cycles. -/
theorem Job.start_fails_of_cannotLoad (hready : job.Reserved config) {reason : String}
    (herror : (job.run config store).error = some (.cannotLoad reason)) :
    job.entryCalls config store = [] ∧
      ∀ x, job.startRequest? config store = some x → x.Fails (.other reason) := by
  have hcourse := job.course config store
  generalize job.run config store = r at hcourse herror
  cases hcourse with
  | denied hsymbols =>
    cases herror
    cases Symbols.find_denies hsymbols
  | taken _ hguest => exact absurd herror (hguest.error_ne_cannotLoad reason)
  | unready _ hnone hway =>
    cases herror
    refine ⟨Job.entryCalls_of_none hnone, fun x hx => ?_⟩
    obtain ⟨_, linked, -, hlink, rfl⟩ := Job.startRequest?_eq_some_iff.1 hx
    generalize hfailed : LoaderError.cannotLoad reason = e at hway
    -- The code was linked, since it was started, so only a failed start is left.
    cases hway with
    | unreserved harena =>
      obtain ⟨arena, harena'⟩ := hready.reserve_eq
      cases harena.symm.trans harena'
    | unstaged hunchecked => cases hunchecked.symm.trans hready.checked
    | unlinked _ hunlinked => cases hunlinked.symm.trans hlink
    | @unstarted _ why _ _ hlink' hstart =>
      cases hlink.symm.trans hlink'
      cases why with
      | other reason' =>
        cases hfailed
        exact congrArg Prod.fst hstart
      | outOfCycles | trap _ => cases hfailed
    | unbound _ _ _ _ hbind => cases hfailed.trans (Symbol.error_of_bind hbind)

/-! ## Invocations -/

namespace Loader

variable {σ : Type} {loader : Loader E} {host : Host σ} {payload : Payload} {label : String} {s : σ}

/-- Where a call of an entry point fails, the invocation comes to that failure. -/
theorem run_of_call_fails {g : Guest E} {c : EntryCall} {e : EngineError}
    (h : (g, c) ∈ loader.entryCalls host payload label s)
    (hfails : (Guest.request loader.config.maxCycles (g, c)).Fails e) :
    (loader.drive host payload label s).1.reached = c.entry.stage ∧
      (loader.drive host payload label s).1.error = some (entryError e) ∧
      (loader.drive host payload label s).1.store
        = (Guest.request loader.config.maxCycles (g, c)).left := by
  cases hjob : loader.job? host payload label s with
  | none =>
    rw [(of_no_job hjob).1] at h
    cases h
  | some job =>
    obtain ⟨hentries, hrun⟩ := of_job? hjob
    rw [hentries] at h
    rw [hrun]
    exact Job.run_of_call_fails h hfails

/-- Where the start fails, it comes to that failure. -/
theorem run_of_start_fails {x : Request E} {e : EngineError}
    (h : loader.startRequest? host payload label s = some x) (hfails : x.Fails e) :
    (loader.drive host payload label s).1 = .failed .symbolsResolved (instanceError e) x.left ∧
      loader.log host payload label s = [x] := by
  obtain ⟨job, hjob, hstart⟩ := Option.bind_eq_some_iff.1 h
  obtain ⟨hrun, hcalls⟩ := Job.run_of_start_fails (reserved_of_job? hjob) hstart hfails
  rw [(of_job? hjob).2, log_of_job? hjob, Job.requests, hstart, hcalls]
  exact ⟨hrun, rfl⟩

/-- An invocation that comes to a failure of running code made a request that failed with it. -/
theorem exists_fails {e : LoaderError}
    (herror : (loader.drive host payload label s).1.error = some e) (hends : e.endsCall = true) :
    ∃ x ∈ loader.log host payload label s, ∃ why, x.Fails why ∧ entryError why = e := by
  obtain ⟨hdialogue, -⟩ := loader.invoke_dialogue host payload label s
  cases hprepared : (prepare E.toCompiler host loader.config payload label s).1 with
  | error e' =>
    -- What goes wrong before there is a job has nothing to do with running code.
    rw [drive_eq, hprepared] at herror
    obtain rfl : e' = e := Option.some.inj herror
    have hallowed := hdialogue.error_allowed hprepared
    cases e' with
    | trapped _ | exceededMaxCycles => cases hallowed
    | _ => cases hends
  | ok job =>
    have hjob := job?_eq_some_iff.2 hprepared
    rw [(of_job? hjob).2] at herror
    rw [log_of_job? hjob]
    exact Job.exists_fails herror (hdialogue.checked hprepared) hends

/-- In an invocation that gets past its first stage, code that cannot be loaded was not called, and
if it was started, then that failed in another way than by a trap or for want of cycles. -/
theorem start_fails_of_cannotLoad {reason : String}
    (herror : (loader.drive host payload label s).1.error = some (.cannotLoad reason)) :
    loader.log host payload label s = [] ∨ ∃ x,
      loader.startRequest? host payload label s = some x ∧
      loader.log host payload label s = [x] ∧ x.Fails (.other reason) := by
  cases hjob : loader.job? host payload label s with
  | none => exact .inl (log_of_no_job hjob)
  | some job =>
    rw [(of_job? hjob).2] at herror
    obtain ⟨hcalls, hstart⟩ := Job.start_fails_of_cannotLoad (reserved_of_job? hjob) herror
    rw [log_of_job? hjob, startRequest?_of_job? hjob, Job.requests, hcalls]
    cases hrequest : job.startRequest? loader.config loader.newStore with
    | none => exact .inl rfl
    | some x => exact .inr ⟨x, rfl, rfl, hstart x hrequest⟩

end Loader

end HashLoader
