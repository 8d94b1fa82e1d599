import HashLoader.Proofs.Invocation.Failures

/-!
# Reports are consistent

A report has a stage, perhaps a failure, perhaps a status, and the cycles that were used up. Only
some combinations of them make sense, and `Report.Consistent` says which. `invoke_consistent` shows
that every invocation gives a report that makes sense.

The proof goes through `Run.Ending`, all the ways an invocation can end: what the phases can fail
with adds up to them (`drive_ending`), and the report of each of them is consistent
(`Ending.consistent`).
-/

namespace HashLoader

/-! ## All endings -/

variable {E : Engine} {config : Config}

namespace Run

/-- The ways an invocation can end. -/
inductive Ending : Run E → Prop
  /-- There is no code, or it lacks an entry point. -/
  | early {stage : Stage} {e : LoaderError} {store : E.Store} : stage = .init ∨ stage = .codeLoaded →
      stage.allows e = true → E.consumed store = 0 → E.messages store = [] →
      Ending (.failed stage e store)
  /-- The code does not get ready, or makes no context. -/
  | unready {e : LoaderError} {store : E.Store} : Stage.symbolsResolved.allows e = true →
      Ending (.failed .symbolsResolved e store)
  /-- The evaluation does not come to an end. -/
  | interrupted {e : LoaderError} {store : E.Store} : e.endsCall = true →
      Ending (.failed .contextConstructed e store)
  /-- The evaluation gives a status other than zero. -/
  | declined {status : Int32} {store : E.Store} : status ≠ 0 →
      Ending ⟨.contextConstructed, some status, some (.evaluateFailed status), store⟩
  /-- The context cannot be given back. -/
  | kept {e : LoaderError} {store : E.Store} : e.endsCall = true →
      Ending ⟨.evaluated, some 0, some e, store⟩
  /-- Everything is done. -/
  | finished {store : E.Store} : Ending ⟨.tornDown, some 0, none, store⟩

end Run

/-- A guest comes to one of the endings, past the first stage. -/
theorem Guest.Course.ending {g : Guest E} {calls : List (Guest E × EntryCall)} {r : Run E}
    (h : g.Course config calls r) : r.Ending ∧ r.reached ≠ .init := by
  cases h with
  | unconstructed hfirst =>
    exact ⟨.unready (LoaderError.allowed_of_endsCall (Guest.call_endsCall hfirst)).1, nofun⟩
  | null => exact ⟨.unready rfl, nofun⟩
  | interrupted _ _ hsecond => exact ⟨.interrupted (Guest.call_endsCall hsecond), nofun⟩
  | declined _ _ _ hstatus => exact ⟨.declined hstatus, nofun⟩
  | kept _ _ _ hthird => exact ⟨.kept (Guest.call_endsCall hthird), nofun⟩
  | finished => exact ⟨.finished, nofun⟩

/-- A job whose inputs were checked comes to one of the endings, after the first stage. -/
theorem Job.run_ending (hE : E.Spec) (config : Config) {job : Job E.toCompiler}
    (hinput : checkInput job.payload job.label = .ok ()) (captures : Bool) :
    (job.run config (E.newStore captures)).Ending ∧
      (job.run config (E.newStore captures)).reached ≠ .init := by
  have hcourse := job.course config (E.newStore captures)
  generalize job.run config (E.newStore captures) = r at hcourse
  cases hcourse with
  | denied hsymbols =>
    exact ⟨.early (.inr rfl) (Symbols.find_denies hsymbols) (hE.consumed_newStore captures)
      (hE.messages_newStore captures), nofun⟩
  | unready hsymbols _ hway => exact ⟨.unready (hway.allowed hE hinput hsymbols), nofun⟩
  | taken _ hguest => exact hguest.ending

/-! ## Consistency -/

/-- The parts of a report fit together. -/
structure Report.Consistent (config : Config) (r : Report) : Prop where
  /-- There is no failure exactly if all stages were reached. -/
  finished_iff : r.error = none ↔ r.reached = .tornDown
  /-- This is what success means. -/
  success_iff : r.isSuccess = true ↔ r.error = none
  /-- The exit code tells whether there is a failure. -/
  exitCode_iff : r.exitCode = 0 ↔ r.error = none
  /-- Without a failure the status is zero. -/
  outcome_of_finished : r.error = none → r.outcome = some 0
  /-- The failure is one of the stage. -/
  allowed : ∀ e, r.error = some e → r.reached.allows e = true
  /-- A status other than zero is itself the failure. -/
  status_iff : ∀ s, r.outcome = some s ∧ s ≠ 0 ↔ r.error = some (.evaluateFailed s)
  /-- Such a status is the exit code, and the stage is the one before the evaluation. -/
  exitCode_of_status : ∀ s, r.outcome = some s → s ≠ 0 →
    r.exitCode = s ∧ r.reached = .contextConstructed
  /-- The status is zero exactly if the evaluation was passed. -/
  zero_iff : r.outcome = some 0 ↔ r.reached = .evaluated ∨ r.reached = .tornDown
  /-- There is no status otherwise. -/
  none_iff : r.outcome = none ↔
    (∀ s, r.error ≠ some (.evaluateFailed s)) ∧ r.reached ≠ .evaluated ∧ r.reached ≠ .tornDown
  /-- The budget is kept. -/
  cycles_le : r.cycles ≤ config.maxCycles
  /-- Before all symbols are found, no code has run. -/
  idle : r.reached = .init ∨ r.reached = .codeLoaded → r.cycles = 0 ∧ r.messages = []

/-- Only the last stage has none after it. -/
theorem Stage.next?_eq_none_iff {stage : Stage} : stage.next? = none ↔ stage = .tornDown := by
  cases stage with
  | tornDown => exact ⟨fun _ => rfl, fun _ => rfl⟩
  | _ => exact ⟨nofun, nofun⟩

/-- What could not be left is the stage that was reached, if there is one after it. -/
theorem Report.Consistent.failedAt_eq_some_iff {r : Report} {stage : Stage}
    (h : r.Consistent config) :
    r.failedAt = some stage ↔ r.reached = stage ∧ stage.next? ≠ none := by
  rw [ne_eq, Stage.next?_eq_none_iff]
  constructor
  · intro hfailed
    obtain ⟨e, herror, rfl⟩ := Option.map_eq_some_iff.1 hfailed
    refine ⟨rfl, fun hlast => ?_⟩
    rw [h.finished_iff.2 hlast] at herror
    cases herror
  · rintro ⟨rfl, hnext⟩
    obtain ⟨e, herror⟩ := Option.ne_none_iff_exists'.1 (mt h.finished_iff.1 hnext)
    rw [failedAt, herror, Option.map_some]

/-- A status is a failure only of the stage before the evaluation. -/
theorem Stage.allows_evaluateFailed {stage : Stage} {s : Int32}
    (h : stage.allows (.evaluateFailed s) = true) : stage = .contextConstructed := by
  cases stage with
  | contextConstructed => rfl
  | _ => cases h

/-- A report of a failure is consistent if the stage allows the failure and the status fits both. -/
theorem Report.consistent_of_failed {r : Report} {e : LoaderError}
    (herror : r.error = some e) (hallowed : r.reached.allows e = true)
    (hstatus : ∀ s, r.outcome = some s ∧ s ≠ 0 ↔ e = .evaluateFailed s)
    (hzero : r.outcome = some 0 ↔ r.reached = .evaluated)
    (hcycles : r.cycles ≤ config.maxCycles)
    (hidle : r.reached = .init ∨ r.reached = .codeLoaded → r.cycles = 0 ∧ r.messages = []) :
    r.Consistent config := by
  have hreached : r.reached ≠ .tornDown := by
    intro htorn
    rw [htorn] at hallowed
    cases hallowed
  have hcode : r.exitCode = e.exitCode := by rw [exitCode, herror]
  have hfailed : r.error ≠ none := by rw [herror]; exact nofun
  -- A status of zero is no failure.
  have hnonzero : e ≠ .evaluateFailed 0 := fun he => ((hstatus 0).2 he).2 rfl
  refine
    { finished_iff := ⟨fun h => absurd h hfailed, fun h => absurd h hreached⟩
      success_iff := ?_
      exitCode_iff := ?_
      outcome_of_finished := fun h => absurd h hfailed
      allowed := ?_
      status_iff := ?_
      exitCode_of_status := ?_
      zero_iff := hzero.trans ⟨.inl, fun h => h.resolve_right hreached⟩
      none_iff := ?_
      cycles_le := hcycles
      idle := hidle }
  · rw [isSuccess, herror]
    exact ⟨nofun, nofun⟩
  · rw [hcode, LoaderError.exitCode_eq_zero_iff]
    exact ⟨fun h => absurd h hnonzero, fun h => absurd h hfailed⟩
  · intro e' he'
    rw [herror] at he'
    cases he'
    exact hallowed
  · intro s
    rw [herror, Option.some.injEq]
    exact hstatus s
  · intro s houtcome hs
    obtain rfl := (hstatus s).1 ⟨houtcome, hs⟩
    exact ⟨hcode, Stage.allows_evaluateFailed hallowed⟩
  · rw [herror]
    constructor
    · intro hnone
      rw [hnone] at hstatus hzero
      refine ⟨fun s hs => ?_, fun h => ?_, hreached⟩
      · cases ((hstatus s).2 (Option.some.inj hs)).1
      · cases hzero.2 h
    · rintro ⟨hnone, hevaluated, -⟩
      cases houtcome : r.outcome with
      | none => rfl
      | some s =>
        by_cases hs : s = 0
        · rw [hs] at houtcome
          exact absurd (hzero.1 houtcome) hevaluated
        · exact absurd (congrArg some ((hstatus s).1 ⟨houtcome, hs⟩)) (hnone s)

/-- What ends a call is no status. -/
theorem LoaderError.ne_status_of_endsCall {e : LoaderError} (h : e.endsCall = true) (s : Int32) :
    e ≠ .evaluateFailed s := by
  rintro rfl
  cases h

/-- The report of each of the endings is consistent. -/
theorem Run.Ending.consistent {r : Run E} (h : r.Ending) (config : Config) :
    (r.report config).Consistent config := by
  have hcycles : ∀ r : Run E, (r.report config).cycles ≤ config.maxCycles :=
    fun r => Nat.sub_le _ _
  cases h with
  | @early stage e store hstage hallowed hconsumed hmessages =>
    -- A status needs a stage that is not reached yet.
    have hstatus : ∀ s, e ≠ .evaluateFailed s := by
      rintro s rfl
      rw [Stage.allows_evaluateFailed hallowed] at hstage
      exact hstage.elim nofun nofun
    refine Report.consistent_of_failed rfl hallowed
      (fun s => ⟨nofun, fun h => absurd h (hstatus s)⟩) ⟨nofun, ?_⟩ (hcycles _) fun _ => ⟨?_, hmessages⟩
    · rintro (rfl : stage = .evaluated)
      exact hstage.elim nofun nofun
    · show config.maxCycles - (config.maxCycles - E.consumed store) = 0
      rw [hconsumed, Nat.sub_zero, Nat.sub_self]
  | @unready e store hallowed =>
    have hstatus : ∀ s, e ≠ .evaluateFailed s := by
      rintro s rfl
      cases hallowed
    exact Report.consistent_of_failed rfl hallowed
      (fun s => ⟨nofun, fun h => absurd h (hstatus s)⟩) ⟨nofun, nofun⟩ (hcycles _)
      fun h => h.elim nofun nofun
  | @interrupted e store hends =>
    exact Report.consistent_of_failed rfl (LoaderError.allowed_of_endsCall hends).2.1
      (fun s => ⟨nofun, fun h => absurd h (LoaderError.ne_status_of_endsCall hends s)⟩)
      ⟨nofun, nofun⟩ (hcycles _) fun h => h.elim nofun nofun
  | @declined status store hne =>
    refine Report.consistent_of_failed rfl rfl (fun s => ⟨?_, ?_⟩) ⟨?_, nofun⟩ (hcycles _)
      fun h => h.elim nofun nofun
    · rintro ⟨hs, -⟩
      cases hs
      rfl
    · intro hs
      cases hs
      exact ⟨rfl, hne⟩
    · intro hzero
      cases hzero
      exact absurd rfl hne
  | @kept e store hends =>
    refine Report.consistent_of_failed rfl (LoaderError.allowed_of_endsCall hends).2.2
      (fun s => ⟨?_, ?_⟩) ⟨fun _ => rfl, fun _ => rfl⟩ (hcycles _) fun h => h.elim nofun nofun
    · rintro ⟨hs, hne⟩
      cases hs
      exact absurd rfl hne
    · exact fun h => absurd h (LoaderError.ne_status_of_endsCall hends s)
  | @finished store =>
    exact
      { finished_iff := ⟨fun _ => rfl, fun _ => rfl⟩
        success_iff := ⟨fun _ => rfl, fun _ => rfl⟩
        exitCode_iff := ⟨fun _ => rfl, fun _ => rfl⟩
        outcome_of_finished := fun _ => rfl
        allowed := nofun
        status_iff := fun s => ⟨fun h => absurd (Option.some.inj h.1).symm h.2, nofun⟩
        exitCode_of_status := fun s h hs => absurd (Option.some.inj h).symm hs
        zero_iff := ⟨fun _ => .inr rfl, fun _ => rfl⟩
        none_iff := ⟨nofun, fun h => absurd rfl h.2.2⟩
        cycles_le := hcycles _
        idle := fun h => h.elim nofun nofun }

namespace Loader

variable {σ : Type} {loader : Loader E} {host : Host σ} {payload : Payload} {label : String} {s : σ}

/-- There is one loader for each configuration that passes the checks. -/
theorem ofConfig_eq_ok_iff : ofConfig config = .ok loader ↔ loader.config = config := by
  obtain ⟨config', hvalid⟩ := loader
  unfold ofConfig
  split <;> rename_i heq
  · rw [Except.ok.injEq, Loader.mk.injEq]
    exact eq_comm
  · refine ⟨nofun, ?_⟩
    rintro (rfl : config' = config)
    cases heq.symm.trans hvalid

/-- An invocation comes to one of the endings. -/
theorem drive_ending (hE : E.Spec) (loader : Loader E) (host : Host σ) (payload : Payload)
    (label : String) (s : σ) : (loader.drive host payload label s).1.Ending := by
  obtain ⟨hdialogue, -⟩ := loader.invoke_dialogue host payload label s
  rw [drive_eq]
  cases hprepared : (prepare E.toCompiler host loader.config payload label s).1 with
  | error e =>
    exact .early (.inl rfl) (hdialogue.error_allowed hprepared) (hE.consumed_newStore _)
      (hE.messages_newStore _)
  | ok job => exact (Job.run_ending hE loader.config (hdialogue.checked hprepared) _).1

/-- An invocation stays at the first stage only if no job was prepared. -/
theorem reached_ne_init_iff (hE : E.Spec) :
    (loader.invoke host payload label s).1.reached ≠ .init ↔
      ∃ job, loader.job? host payload label s = some job := by
  obtain ⟨hdialogue, -⟩ := loader.invoke_dialogue host payload label s
  rw [invoke_eq_report]
  cases hjob : loader.job? host payload label s with
  | none =>
    obtain ⟨-, e, hfailed⟩ := of_no_job hjob
    rw [hfailed]
    exact ⟨fun h => absurd rfl h, nofun⟩
  | some job =>
    rw [(of_job? hjob).2]
    exact ⟨fun _ => ⟨job, rfl⟩,
      fun _ => (Job.run_ending hE loader.config (hdialogue.checked (job?_eq_some_iff.1 hjob)) _).2⟩

/-- Every invocation gives a consistent report, whatever the host answers and the code does. -/
theorem invoke_consistent (hE : E.Spec) (loader : Loader E) (host : Host σ) (payload : Payload)
    (label : String) (s : σ) :
    (loader.invoke host payload label s).1.Consistent loader.config :=
  (loader.drive_ending hE host payload label s).consistent loader.config

end Loader

/-- With the interpreter it does so for code that does the least it has to. -/
theorem invoke_consistent_least :
    Wasm.interpreter.Spec ∧
      (pageLoader.invoke (pageHost leastCode) .fromArgs "" ()).1.Consistent pageLoader.config :=
  ⟨Wasm.interpreter_spec,
    pageLoader.invoke_consistent Wasm.interpreter_spec (pageHost leastCode) .fromArgs "" ()⟩

end HashLoader
