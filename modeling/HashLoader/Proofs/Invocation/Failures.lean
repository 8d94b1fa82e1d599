import HashLoader.Proofs.Args
import HashLoader.Proofs.Invocation.Course

/-!
# How each phase of an invocation fails

The failures of an invocation fall into classes: a script is turned down, code is denied, a symbol
is denied, or running code stops. Each phase has a lemma that says which classes it can fail with,
and `Stage.allows` collects for every stage what can keep an invocation there.

Some failures that a phase could give never happen, because what could fail was checked before:
inputs that were checked are staged, and symbols that were found are bound
(`Symbol.exists_bind_iff`). With `Job.Instantiation`, all the ways the code of a job can be made
ready, this gives `Job.Instantiation.allowed`. It needs of the engine that an instance gives out
what its module exports.
-/

namespace HashLoader

/-! ## Classes of failures -/

namespace LoaderError

/-- The failures by which a script is turned down before any code is looked for. -/
def rejectsScript : LoaderError → Bool
  | scriptTooLarge _ _ | encoding _ | invalidArgsFormat _ _ | unknownHashType _
  | argumentsLen _ _ => true
  | _ => false

/-- The failures of a resolution. -/
def deniesCode : LoaderError → Bool
  | syscall _ | codeNotFound _ | codeTooLarge _ _ | hashMismatch _ | malformedImage _
  | cannotLoad _ => true
  | _ => false

/-- The failures of the search for entry points. -/
def deniesSymbol : LoaderError → Bool
  | symbolNotFound _ | signatureMismatch _ => true
  | _ => false

/-- The failures of running code. -/
def endsCall : LoaderError → Bool
  | trapped _ | exceededMaxCycles => true
  | _ => false

/-- The failures of a job. -/
def endsJob : LoaderError → Bool
  | cannotLoad _ | constructFailed | evaluateFailed _ => true
  | e => e.deniesSymbol || e.endsCall

/-- The only failure with the exit code of a success would be a status of zero. -/
theorem exitCode_eq_zero_iff {e : LoaderError} : e.exitCode = 0 ↔ e = .evaluateFailed 0 := by
  cases e with
  | evaluateFailed status => rw [exitCode, evaluateFailed.injEq]
  | _ =>
    rw [exitCode]
    exact ⟨fun h => absurd h (by decide), nofun⟩

end LoaderError

/-- The failures by which a stage can be the last one that is reached. -/
def Stage.allows : Stage → LoaderError → Bool
  | .init, e => e.rejectsScript || e.deniesCode
  | .codeLoaded, e => e.deniesSymbol
  | .symbolsResolved, .cannotLoad _ => true
  | .symbolsResolved, .constructFailed => true
  | .symbolsResolved, e => e.endsCall
  | .contextConstructed, .evaluateFailed _ => true
  | .contextConstructed, e => e.endsCall
  | .evaluated, e => e.endsCall
  | .tornDown, _ => false

/-- What ends a call may end it at each stage at which code runs. -/
theorem LoaderError.allowed_of_endsCall {e : LoaderError} (h : e.endsCall = true) :
    Stage.symbolsResolved.allows e = true ∧ Stage.contextConstructed.allows e = true ∧
      Stage.evaluated.allows e = true := by
  cases e with
  | trapped _ | exceededMaxCycles => exact ⟨rfl, rfl, rfl⟩
  | _ => cases h

/-! ## Before any code is found -/

/-- A script that cannot be read is turned down. -/
theorem Envelope.parse_rejects {raw : Bytes} {limit : Nat} {e : LoaderError}
    (h : Envelope.parse raw limit = .error e) : e.rejectsScript = true := by
  unfold Envelope.parse at h
  split at h
  -- It is too long, or it is no record.
  · cases h
    rfl
  · split at h
    · cases h
    · cases h
      rfl

/-- Arguments that hold no reference are turned down. -/
theorem CodeReference.decode_rejects {args : Bytes} {e : LoaderError}
    (h : CodeReference.decode args = .error e) : e.rejectsScript = true := by
  obtain ⟨-, rfl⟩ | ⟨t, -, -, rfl⟩ := CodeReference.decode_eq_error_iff.1 h
  · rfl
  · rfl

/-- Inputs that do not fit are turned down. -/
theorem checkInput_rejects {payload : Bytes} {label : String} {e : LoaderError}
    (h : checkInput payload label = .error e) : e.rejectsScript = true := by
  unfold checkInput at h
  dsimp only at h
  split at h
  · cases h
  · cases h
    rfl

/-- Whatever is wrong with a script, the script is turned down. -/
theorem request_rejects {config : Config} {payload : Payload} {label : String} {raw : Bytes}
    {e : LoaderError} (h : request config payload label raw = .error e) :
    e.rejectsScript = true := by
  unfold request at h
  rcases bind_eq_error_iff.1 h with hparse | ⟨envelope, -, h⟩
  · exact Envelope.parse_rejects hparse
  rcases bind_eq_error_iff.1 h with hdecode | ⟨reference, -, h⟩
  · exact CodeReference.decode_rejects hdecode
  rcases bind_eq_error_iff.1 h with hcheck | ⟨u, -, h⟩
  · exact checkInput_rejects hcheck
  · cases h

/-- What stands in an arena is turned down as code only. -/
theorem CodeImage.ofArena_denies {C : Compiler} {r : CodeReference} {arena : CodeArena} {len : Nat}
    {e : LoaderError} (h : CodeImage.ofArena C r arena len = .error e) : e.deniesCode = true := by
  unfold CodeImage.ofArena at h
  repeat' split at h
  all_goals
    cases h
    try rfl

/-- A resolution fails for reasons of the code only. -/
theorem ResolveDialogue.denies {C : Compiler} {r : CodeReference} {capacity : Nat} {t : List Exchange}
    {e : LoaderError} (h : ResolveDialogue (C := C) r capacity t (.error e)) :
    e.deniesCode = true := by
  cases h with
  | refused => rfl
  | missing => rfl
  | found hsearch hload =>
    -- Before the copy, the failures are those of the calls; after it, those of the tests.
    cases hload with
    | unmeasured | tooLarge | uncopied | resized => rfl
    | copied hfits hlength hwrite hresult => exact CodeImage.ofArena_denies hresult

/-- A preparation fails in a way that the first stage allows. -/
theorem PrepareDialogue.error_allowed {C : Compiler} {config : Config} {payload : Payload}
    {label : String} {t : List Exchange} {prepared : Except LoaderError (Job C)} {e : LoaderError}
    (h : PrepareDialogue config payload label t prepared) (he : prepared = .error e) :
    Stage.init.allows e = true := by
  unfold Stage.allows
  rw [Bool.or_eq_true]
  cases h with
  | refused =>
    cases he
    exact .inr rfl
  | tooLarge =>
    cases he
    exact .inl rfl
  | unreadable hfits hrequest =>
    cases he
    exact .inl (request_rejects hrequest)
  | @resolved len b input r t result hfits hrequest hresolve =>
    cases result with
    | error e' =>
      cases he
      exact .inr hresolve.denies
    | ok image => cases he

/-- The inputs of a job that was prepared were checked. -/
theorem PrepareDialogue.checked {C : Compiler} {config : Config} {payload : Payload} {label : String}
    {t : List Exchange} {prepared : Except LoaderError (Job C)} {job : Job C}
    (h : PrepareDialogue config payload label t prepared) (hjob : prepared = .ok job) :
    checkInput job.payload job.label = .ok () := by
  cases h with
  | refused | tooLarge | unreadable => cases hjob
  | @resolved len b input r t result hfits hrequest hresolve =>
    cases result with
    | error e => cases hjob
    | ok image =>
      cases hjob
      obtain ⟨envelope, -, -, -, hcheck⟩ := request_eq_ok_iff.1 hrequest
      exact hcheck

/-! ## Before code runs -/

/-- A symbol that is not found is missing or has another type. -/
theorem Symbol.find_denies {C : Compiler} {image : CodeImage C} {entry : EntryPoint} {e : LoaderError}
    (h : Symbol.find image entry = .error e) : e.deniesSymbol = true := by
  have hfinding := entry.find_finding image.module
  rw [Symbol.find_eq_error_iff.1 h] at hfinding
  cases hfinding with
  | missing | mismatched => rfl

/-- The search for the symbols fails with the first one that is not found. -/
theorem Symbols.find_denies {C : Compiler} {image : CodeImage C} {e : LoaderError}
    (h : Symbols.find image = .error e) : e.deniesSymbol = true := by
  obtain ⟨_, _, _, -, -, hfailed⟩ := Symbols.find_eq_error_iff.1 h
  exact Symbol.find_denies hfailed

/-- However an entry point fails, the failure is one of running code. -/
theorem entryError_endsCall (e : EngineError) : (entryError e).endsCall = true := by
  cases e <;> rfl

/-- Code that cannot be started cannot be loaded, or its start function failed. -/
theorem instanceError_allowed (e : EngineError) :
    Stage.symbolsResolved.allows (instanceError e) = true := by
  cases e <;> rfl

variable {E : Engine} {config : Config} {job : Job E.toCompiler} {symbols : Symbols E.toCompiler}
  {store left : E.Store} {e : LoaderError}

/-- A symbol that was found is bound to each instance of the module that it was found in. -/
theorem Symbols.bind_ne_error (hE : E.Spec) {image : CodeImage E.toCompiler}
    (hsymbols : Symbols.find image = .ok symbols) {env : Wasm.Environment} {linked : E.Linked}
    {budget : Nat} {inst : E.Instance} (hlink : E.link env image.module = .ok linked)
    (hstart : E.start budget linked store = (.ok inst, left)) {s : Symbol E.toCompiler}
    (hs : s ∈ [symbols.construct, symbols.evaluate, symbols.teardown]) : s.bind inst ≠ .error e := by
  obtain ⟨hconstruct, hevaluate, hteardown⟩ := Symbols.find_eq_ok_iff.1 hsymbols
  have hbound : ∀ {entry}, Symbol.find image entry = .ok s → s.bind inst ≠ .error e := by
    intro entry hfind hfailed
    obtain ⟨f, hf⟩ := (Symbol.agrees hE image entry).bound_own s hfind hlink hstart
    cases hfailed.symm.trans hf
  simp only [List.mem_cons, List.not_mem_nil, or_false] at hs
  rcases hs with rfl | rfl | rfl
  · exact hbound hconstruct
  · exact hbound hevaluate
  · exact hbound hteardown

/-- A job whose inputs and entry points were checked becomes a guest, unless its code cannot be
loaded or its start function fails. -/
theorem Job.Instantiation.allowed (hE : E.Spec)
    (hinput : checkInput job.payload job.label = .ok ())
    (hsymbols : Symbols.find job.image = .ok symbols)
    (h : job.Instantiation config symbols store (.error (e, left))) :
    Stage.symbolsResolved.allows e = true := by
  cases h with
  | unreserved harena =>
    obtain ⟨reason, rfl⟩ := ExecutionArena.error_of_reserve harena
    rfl
  | unstaged hunchecked =>
    -- The inputs were checked before any code was looked for.
    cases hinput.symm.trans hunchecked
  | unlinked => rfl
  | unstarted => exact instanceError_allowed _
  | unbound hready hlink hstart hs hbind =>
    -- The three symbols were found in this very module, so each of them is bound.
    exact absurd hbind (Symbols.bind_ne_error hE hsymbols hlink hstart hs)

/-- A call of an entry point fails as running code does. -/
theorem Guest.call_endsCall {budget : Nat} {g g' : Guest E} {c : EntryCall}
    (h : g.call budget c = (.error e, g')) : e.endsCall = true := by
  unfold Guest.call at h
  split at h
  · cases h
  · cases h
    exact entryError_endsCall _

/-! ## The failures of a job -/

/-- What denies a symbol or ends a call ends the job. -/
theorem LoaderError.endsJob_of_or {e : LoaderError}
    (h : e.deniesSymbol = true ∨ e.endsCall = true) : e.endsJob = true := by
  cases e with
  | cannotLoad _ | constructFailed | evaluateFailed _ => rfl
  | _ => exact Bool.or_eq_true_iff.2 h

/-- A guest fails as jobs do. -/
theorem Guest.Course.endsJob {g : Guest E} {calls : List (Guest E × EntryCall)} {r : Run E}
    (h : g.Course config calls r) (herror : r.error = some e) : e.endsJob = true := by
  have hcall : ∀ {budget : Nat} {g g' : Guest E} {c : EntryCall},
      g.call budget c = (.error e, g') → e.endsJob = true :=
    fun h => LoaderError.endsJob_of_or (.inr (Guest.call_endsCall h))
  cases h with
  | unconstructed hfirst =>
    cases herror
    exact hcall hfirst
  | null | declined =>
    cases herror
    rfl
  | interrupted _ _ hsecond =>
    cases herror
    exact hcall hsecond
  | kept _ _ _ hthird =>
    cases herror
    exact hcall hthird
  | finished => cases herror

/-- So does a job whose inputs were checked. This needs nothing of the engine. -/
theorem Job.run_endsJob (hinput : checkInput job.payload job.label = .ok ())
    (herror : (job.run config store).error = some e) : e.endsJob = true := by
  have hcourse := job.course config store
  generalize job.run config store = r at hcourse herror
  cases hcourse with
  | denied hsymbols =>
    cases herror
    exact LoaderError.endsJob_of_or (.inl (Symbols.find_denies hsymbols))
  | taken _ hguest => exact hguest.endsJob herror
  | unready _ _ hway =>
    cases herror
    cases hway with
    | unreserved harena =>
      obtain ⟨reason, rfl⟩ := ExecutionArena.error_of_reserve harena
      rfl
    | unstaged hunchecked => cases hinput.symm.trans hunchecked
    | unlinked => rfl
    | @unstarted linked cause => cases cause <;> rfl
    | unbound _ _ _ _ hbind =>
      rw [Symbol.error_of_bind hbind]
      rfl

end HashLoader
