import HashLoader.Proofs.Invocation.Activations
import HashLoader.Proofs.Wasm.Trace

/-!
# How failures of running code are reported

Code can fail in an entry point, or in the start function while the code is instantiated. For every
engine the report follows the failure of the request (`Loader.error_of_fails`). On the interpreter,
`invoke_classifies_failures` says what the report makes of each way in which code can fail: an
execution failure, which tells apart only whether the budget was used up. There is one exception. A
start function that sends a message from outside the memory is reported as code that cannot be
loaded (`message_at_start_cannotLoad`), though it has run, and though the same message of an entry
point is an execution failure.
-/

namespace HashLoader

/-! ## Reports of failures -/

namespace Loader

variable {E : Engine} {σ : Type}

/-- The report of an invocation has the failure of a call of an entry point, as one of running code.
The failure of a start it has so, too, unless that is the failure of a message: then the code cannot
be loaded. There is no other way in which code that was started cannot be loaded. -/
theorem error_of_fails (hE : E.Spec) (loader : Loader E) (host : Host σ) (payload : Payload)
    (label : String) (s : σ) :
    (∀ g c e, (g, c) ∈ loader.entryCalls host payload label s →
      (Guest.request loader.config.maxCycles (g, c)).Fails e →
      (loader.invoke host payload label s).1.error = some (entryError e)) ∧
    (∀ x e, loader.startRequest? host payload label s = some x → x.Fails e →
      (loader.invoke host payload label s).1.error = some (instanceError e) ∧
        (e = messageFailure ∨ instanceError e = entryError e)) ∧
    ∀ reason, (loader.invoke host payload label s).1.error = some (.cannotLoad reason) →
      loader.log host payload label s = [] ∨
        ∃ x, loader.startRequest? host payload label s = some x ∧ x.Fails messageFailure := by
  have hmessage : ∀ {x : Request E} {reason}, loader.startRequest? host payload label s = some x →
      x.Fails (.other reason) → .other reason = messageFailure := by
    intro x reason hx hfails
    obtain ⟨job, -, hstart⟩ := Option.bind_eq_some_iff.1 hx
    obtain ⟨-, linked, -, -, rfl⟩ := Job.startRequest?_eq_some_iff.1 hstart
    exact hE.other_of_start hfails
  rw [invoke_eq_report]
  refine ⟨fun g c e hmem hfails => (run_of_call_fails hmem hfails).2.1, fun x e hx hfails => ?_,
    fun reason herror => ?_⟩
  · rw [(run_of_start_fails hx hfails).1]
    refine ⟨rfl, ?_⟩
    cases e with
    | other reason => exact .inl (hmessage hx hfails)
    | outOfCycles | trap reason => exact .inr rfl
  · obtain hnothing | ⟨x, hx, -, hfails⟩ := start_fails_of_cannotLoad herror
    · exact .inl hnothing
    · exact .inr ⟨x, hx, hmessage hx hfails ▸ hfails⟩

end Loader

/-! ## Failures of the interpreter -/

/-- A report blames running code that failed: an execution failure, by its name and exit code. -/
structure Report.Blames (r : Report) (why : Wasm.Failure) : Prop where
  error_eq : r.error
    = some (if why = .outOfCycles then .exceededMaxCycles else .trapped why.describe)
  kind_eq : r.error.map LoaderError.kind = some .execution
  exitCode_eq : r.exitCode = if why = .outOfCycles then 46 else 45

/-- The failure of an entry point as the failure of a report blames the code. -/
theorem Report.blames_of_entryError {r : Report} {why : Wasm.Failure}
    (h : r.error = some (entryError why.error)) : r.Blames why := by
  refine ⟨?_, ?_, ?_⟩
  · rw [h]
    cases why <;> rfl
  · rw [h]
    cases why <;> rfl
  · rw [exitCode, h]
    cases why <;> rfl

/-- A failure of a start function is classified as one of running code, but for a message. -/
theorem instanceError_error (why : Wasm.Failure) :
    instanceError why.error =
      if why = .messageOutOfBounds then .cannotLoad why.describe else entryError why.error := by
  cases why <;> rfl

namespace Loader

variable {σ : Type}

/-- Failures of running code are execution failures, wherever they happen: in an entry point, and in
the start function unless it is a message that lies outside the memory. That one is reported as code
that cannot be loaded, and otherwise such a report means that no code was called. -/
theorem invoke_classifies_failures (loader : Loader Wasm.interpreter) (host : Host σ)
    (payload : Payload) (label : String) (s : σ) :
    (∀ g c why, (g, c) ∈ loader.entryCalls host payload label s →
      ((g.activation c).result loader.config.maxCycles).1 = .failed why →
      (loader.invoke host payload label s).1.Blames why) ∧
    (∀ a why, loader.startCall? host payload label s = some a →
      (a.result loader.config.maxCycles).1 = .failed why →
      if why = .messageOutOfBounds then
        (loader.invoke host payload label s).1.error = some (.cannotLoad why.describe)
      else (loader.invoke host payload label s).1.Blames why) ∧
    ∀ reason, (loader.invoke host payload label s).1.error = some (.cannotLoad reason) →
      loader.activations host payload label s = [] ∨
        ∃ a, loader.startCall? host payload label s = some a ∧
          (a.result loader.config.maxCycles).1 = .failed .messageOutOfBounds := by
  obtain ⟨hcalls, hstarts, hloads⟩ :=
    loader.error_of_fails Wasm.interpreter_spec host payload label s
  refine ⟨fun g c why hmem hfailed => ?_, fun a why ha hfailed => ?_, fun reason herror => ?_⟩
  -- An entry point: whatever it fails with is the failure of the report.
  · exact Report.blames_of_entryError (hcalls g c _ hmem
      (Request.fails_of_activation (Guest.activation?_request _ g c) hfailed))
  · obtain ⟨x, hx, hactivation, hbudget⟩ := exists_start_request ha
    rw [← hbudget] at hfailed
    obtain ⟨herror, -⟩ := hstarts x _ hx (Request.fails_of_activation hactivation hfailed)
    rw [instanceError_error] at herror
    split
    · next hwhy => rwa [if_pos hwhy] at herror
    · next hwhy =>
      rw [if_neg hwhy] at herror
      exact Report.blames_of_entryError herror
  · obtain hnothing | ⟨x, hx, hfails⟩ := hloads reason herror
    · exact .inl (by rw [activations, hnothing]; rfl)
    · obtain ⟨a, why, hactivation, hfailed, hwhy⟩ :=
        Request.exists_activation_of_fails hfails (by simp [messageFailure])
      obtain ⟨rfl, -⟩ := Wasm.Failure.error_eq_other hwhy
      rw [budget_of_mem_log (mem_log_of_start hx)] at hfailed
      exact .inr ⟨a, by rw [startCall?, hx, Option.bind_some, hactivation], hfailed⟩

end Loader

/-! ## Code that fails -/

/-- Code whose `construct` traps. -/
def trappingCode : Bytes :=
  [0x00, 0x61, 0x73, 0x6d, 0x01, 0x00, 0x00, 0x00,
    0x01, 0x13, 0x03, 0x60, 0x02, 0x7f, 0x7f, 0x01, 0x7f, 0x60, 0x04, 0x7f, 0x7f, 0x7f, 0x7f, 0x01,
    0x7f, 0x60, 0x01, 0x7f, 0x00, 0x03, 0x04, 0x03, 0x00, 0x01, 0x02] ++ entryExports 0 ++
    -- The bodies: the first one is `unreachable`.
    [0x0a, 0x0d, 0x03, 0x03, 0x00, 0x00, 0x0b, 0x04, 0x00, 0x41, 0x00, 0x0b, 0x02, 0x00, 0x0b]

/-- Code whose start function sends the byte at the last address. The memory does not reach so far.
-/
def messagingCode : Bytes :=
  [0x00, 0x61, 0x73, 0x6d, 0x01, 0x00, 0x00, 0x00,
    0x01, 0x1b, 0x05, 0x60, 0x02, 0x7f, 0x7f, 0x01, 0x7f, 0x60, 0x04, 0x7f, 0x7f, 0x7f, 0x7f, 0x01,
    0x7f, 0x60, 0x01, 0x7f, 0x00, 0x60, 0x02, 0x7f, 0x7f, 0x00, 0x60, 0x00, 0x00,
    -- The import of the function that sends messages.
    0x02, 0x0d, 0x01, 0x03, 0x65, 0x6e, 0x76, 0x05, 0x64, 0x65, 0x62, 0x75, 0x67, 0x00, 0x03,
    0x03, 0x05, 0x04, 0x00, 0x01, 0x02, 0x04] ++ entryExports 1 ++
    [0x08, 0x01, 0x04, 0x0a, 0x17, 0x04, 0x04, 0x00, 0x41, 0x01, 0x0b, 0x04, 0x00, 0x41, 0x00, 0x0b,
      0x02, 0x00, 0x0b,
      -- The body of the start function: the address, the length and the call.
      0x08, 0x00, 0x41, 0x7f, 0x41, 0x01, 0x10, 0x00, 0x0b]

/-- Tells whether a call fails for a reason within some steps. -/
def Wasm.Activation.fails (budget n : Nat) (why : Wasm.Failure) (a : Wasm.Activation) : Bool :=
  (a.trace budget n).any fun (_, outcome, _) => outcome = .failed why

/-- What the test tells is so. -/
theorem Wasm.Activation.result_of_fails {budget n : Nat} {why : Wasm.Failure} {a : Wasm.Activation}
    (h : a.fails budget n why = true) : (a.result budget).1 = .failed why := by
  obtain ⟨⟨visited, outcome, store⟩, htrace, hwhy⟩ := (Option.any_eq_true _ _).1 h
  rw [(Wasm.Activation.trace_eq_some htrace).1]
  exact of_decide_eq_true hwhy

/-- Tells whether `construct` fails for a reason within some steps and leaves a store that passes a
test. -/
def Loader.constructFails (loader : Loader Wasm.interpreter) (n : Nat) (why : Wasm.Failure)
    (test : Wasm.Store → Bool) (job : Job Wasm.interpreter.toCompiler) : Bool :=
  (job.guest? loader.config loader.newStore).any fun g =>
    ((g.activation g.constructCall).trace loader.config.maxCycles n).any fun (_, outcome, store) =>
      outcome = .failed why && test store

/-- An invocation of code whose `construct` fails is at its end, with the store that this call left.
-/
theorem Loader.drive_of_constructFails {σ : Type} {loader : Loader Wasm.interpreter} {host : Host σ}
    {payload : Payload} {label : String} {s : σ} {n : Nat} {why : Wasm.Failure}
    {test : Wasm.Store → Bool} (h : (loader.job? host payload label s).any
      (loader.constructFails n why test) = true) :
    ∃ (g : Guest Wasm.interpreter) (store : Wasm.Store),
      g.activation g.constructCall ∈ loader.activations host payload label s ∧
      (g.activation g.constructCall).result loader.config.maxCycles = (.failed why, store) ∧
      (loader.drive host payload label s).1
        = .failed .symbolsResolved (entryError why.error) store ∧ test store = true := by
  obtain ⟨job, hjob, h⟩ := (Option.any_eq_true _ _).1 h
  obtain ⟨g, hguest, h⟩ := (Option.any_eq_true _ _).1 h
  obtain ⟨⟨visited, outcome, store⟩, htrace, h⟩ := (Option.any_eq_true _ _).1 h
  obtain ⟨houtcome, htest⟩ := Bool.and_eq_true_iff.1 h
  obtain rfl := of_decide_eq_true houtcome
  obtain ⟨hresult, -⟩ := Wasm.Activation.trace_eq_some htrace
  refine ⟨g, store, mem_activations (mem_entryCalls_of_guest hjob hguest), hresult, ?_, htest⟩
  have hfails : (Guest.request loader.config.maxCycles (g, g.constructCall)).Fails why.error :=
    Request.fails_of_activation (Guest.activation?_request _ g _) (congrArg Prod.fst hresult)
  have hcall := Guest.call_of_fails hfails
  rw [Request.left_of_activation (Guest.activation?_request _ g _)] at hcall
  have hleft : ((g.activation g.constructCall).result
      (Guest.request loader.config.maxCycles (g, g.constructCall)).budget).2 = store :=
    congrArg Prod.snd hresult
  rw [(of_job? hjob).2, Job.run_of_guest hguest, Guest.run, hcall, hleft]

/-- A call that starts with code executes an instruction. -/
theorem Wasm.Activation.executes_of_code {budget : Nat} {a : Wasm.Activation}
    (h : ((a.start? budget).any fun s => !s.frame.code.isEmpty) = true) :
    ∃ i, a.Executes budget i := by
  obtain ⟨s, hs, hcode⟩ := (Option.any_eq_true _ _).1 h
  cases hfirst : s.frame.code with
  | nil =>
    rw [hfirst] at hcode
    cases hcode
  | cons i rest => exact ⟨i, s, s, rest, hs, .start, hfirst⟩

/-- A message of the start function of this code is sent from outside the memory, after other
instructions. -/
theorem messagingCode_fails :
    ∃ a, pageLoader.startCall? (pageHost messagingCode) .fromArgs "" () = some a ∧
      (∃ i, a.Executes 100 i) ∧ (a.result 100).1 = .failed .messageOutOfBounds := by
  have htest : (pageLoader.startCall? (pageHost messagingCode) .fromArgs "" ()).any (fun a =>
      ((a.start? 100).any fun s => !s.frame.code.isEmpty) &&
        a.fails 100 10 .messageOutOfBounds) = true := by
    decide +kernel
  obtain ⟨a, ha, htest⟩ := (Option.any_eq_true _ _).1 htest
  obtain ⟨hcode, hfails⟩ := Bool.and_eq_true_iff.1 htest
  exact ⟨a, ha, Wasm.Activation.executes_of_code hcode, Wasm.Activation.result_of_fails hfails⟩

/-- A trap of `construct` is reported as a trap, and a message of the start function as code that
cannot be loaded. -/
theorem invoke_classifies_failures_of_pages :
    (∃ g c, (g, c) ∈ pageLoader.entryCalls (pageHost trappingCode) .fromArgs "" () ∧
      ((g.activation c).result 100).1 = .failed (.trap .unreachable) ∧
      (pageLoader.invoke (pageHost trappingCode) .fromArgs "" ()).1.Blames (.trap .unreachable)) ∧
    ∃ a, pageLoader.startCall? (pageHost messagingCode) .fromArgs "" () = some a ∧
      (a.result 100).1 = .failed .messageOutOfBounds ∧
      (pageLoader.invoke (pageHost messagingCode) .fromArgs "" ()).1.error
        = some (.cannotLoad "debug: out of bounds memory access") ∧
      (pageLoader.activations (pageHost messagingCode) .fromArgs "" () = [] ∨
        ∃ a, pageLoader.startCall? (pageHost messagingCode) .fromArgs "" () = some a ∧
          (a.result 100).1 = .failed .messageOutOfBounds) := by
  refine ⟨?_, ?_⟩
  · have htest : (pageLoader.job? (pageHost trappingCode) .fromArgs "" ()).any (fun job =>
        (job.guest? pageLoader.config pageLoader.newStore).any fun g =>
          (g.activation g.constructCall).fails 100 10 (.trap .unreachable)) = true := by
      decide +kernel
    obtain ⟨job, hjob, htest⟩ := (Option.any_eq_true _ _).1 htest
    obtain ⟨g, hguest, hfails⟩ := (Option.any_eq_true _ _).1 htest
    have hmem := Loader.mem_entryCalls_of_guest hjob hguest
    have hfailed := Wasm.Activation.result_of_fails hfails
    obtain ⟨hentry, -, -⟩ :=
      Loader.invoke_classifies_failures pageLoader (pageHost trappingCode) .fromArgs "" ()
    exact ⟨g, g.constructCall, hmem, hfailed, hentry g _ _ hmem hfailed⟩
  · obtain ⟨a, ha, -, hfailed⟩ := messagingCode_fails
    obtain ⟨-, hstart, hcannot⟩ :=
      Loader.invoke_classifies_failures pageLoader (pageHost messagingCode) .fromArgs "" ()
    have herror := hstart a _ ha hfailed
    exact ⟨a, ha, hfailed, herror, hcannot _ herror⟩

/-- Code that has run and then sends a message from outside the memory is reported as code that
cannot be loaded, if it does so in the start function. -/
theorem message_at_start_cannotLoad :
    ∃ a, pageLoader.startCall? (pageHost messagingCode) .fromArgs "" () = some a ∧
      (∃ i, a.Executes 100 i) ∧ (a.result 100).1 = .failed .messageOutOfBounds ∧
      (pageLoader.invoke (pageHost messagingCode) .fromArgs "" ()).1.error
        = some (.cannotLoad "debug: out of bounds memory access") ∧
      (pageLoader.invoke (pageHost messagingCode) .fromArgs "" ()).1.exitCode = 40 := by
  obtain ⟨a, ha, hexecutes, hfailed⟩ := messagingCode_fails
  obtain ⟨x, hx, hactivation, hbudget⟩ := Loader.exists_start_request ha
  have herror : (pageLoader.invoke (pageHost messagingCode) .fromArgs "" ()).1.error
      = some (.cannotLoad "debug: out of bounds memory access") := by
    have hfails : x.Fails Wasm.Failure.messageOutOfBounds.error :=
      Request.fails_of_activation hactivation (by rw [hbudget]; exact hfailed)
    obtain ⟨-, hstarts, -⟩ := Loader.error_of_fails Wasm.interpreter_spec pageLoader
      (pageHost messagingCode) .fromArgs "" ()
    exact (hstarts x _ hx hfails).1
  refine ⟨a, ha, hexecutes, hfailed, herror, ?_⟩
  rw [Report.exitCode, herror]
  rfl

end HashLoader
