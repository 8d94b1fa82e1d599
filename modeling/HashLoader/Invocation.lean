import HashLoader.Config.Basic
import HashLoader.Envelope
import HashLoader.Symbol

/-!
# Invocations

An invocation loads the script in execution, resolves the code that its arguments name, and runs the
three entry points of that code. It goes through the stages in order, each once. The first failure
ends it, and the report tells the last stage that was reached.

The host is asked only before the first stage is left; what comes after, `Job.run`, is done by the
engine alone.
-/

namespace HashLoader

/-- How far an invocation is. -/
inductive Stage
  | init
  | codeLoaded
  | symbolsResolved
  | contextConstructed
  | evaluated
  | tornDown
deriving DecidableEq, Repr

namespace Stage

/-- The stage after a stage. -/
def next? : Stage → Option Stage
  | init => some codeLoaded
  | codeLoaded => some symbolsResolved
  | symbolsResolved => some contextConstructed
  | contextConstructed => some evaluated
  | evaluated => some tornDown
  | tornDown => none

end Stage

/-- Which bytes the code is to evaluate. -/
inductive Payload
  /-- Those that follow the code reference in the arguments. -/
  | fromArgs
  /-- These. -/
  | literal (b : Bytes)
deriving DecidableEq, Repr

/-- A call of an entry point, with its arguments. -/
structure EntryCall where
  entry : EntryPoint
  args : List Int32
deriving DecidableEq, Repr

/-- How an invocation ended. -/
structure Report where
  /-- The last stage that was reached. -/
  reached : Stage
  /-- The failure that ended the invocation, if one did. -/
  error : Option LoaderError
  /-- The status that the code gave, if it was evaluated to the end. -/
  outcome : Option Int32
  /-- The cycles that running code used up. -/
  cycles : Nat
  /-- The messages of the code, if they are kept. -/
  messages : List String
deriving DecidableEq

namespace Report

/-- Tells whether the invocation went through all stages. -/
def isSuccess (r : Report) : Bool := r.error.isNone && r.reached == .tornDown

/-- The exit code that the host observes. -/
def exitCode (r : Report) : Int32 :=
  match r.error with
  | some e => e.exitCode
  | none => 0

/-- The stage that could not be left, if the invocation failed. -/
def failedAt (r : Report) : Option Stage := r.error.map fun _ => r.reached

end Report

/-- What is left to do once the code is loaded. -/
structure Job (C : Compiler) where
  image : CodeImage C
  payload : Bytes
  label : String

/-- The bytes that the code is to evaluate, given the arguments of the script. -/
def Payload.bytes (args : Bytes) : Payload → Bytes
  | fromArgs => CodeReference.payload args
  | literal b => b

/-- What a script asks for: which code to load and which bytes it is to evaluate. The script has to
be well-formed, and payload and label have to fit the input window. -/
def request (config : Config) (payload : Payload) (label : String) (raw : Bytes) :
    Except LoaderError (CodeReference × Bytes) := do
  let envelope ← Envelope.parse raw config.maxScriptSize
  let reference ← CodeReference.decode envelope.args
  checkInput (payload.bytes envelope.args) label
  return (reference, payload.bytes envelope.args)

/-- Loads the script, reads what it asks for and resolves the code. -/
def prepare {σ : Type} (C : Compiler) (host : Host σ) (config : Config) (payload : Payload)
    (label : String) (s : σ) : Except LoaderError (Job C) × σ :=
  match Envelope.load host config.maxScriptSize s with
  | (.error e, s) => (.error e, s)
  | (.ok raw, s) =>
    match request config payload label raw with
    | .error e => (.error e, s)
    | .ok (reference, payload) =>
      match resolve C host reference config.maxCodeSize s with
      | (.error e, s) => (.error e, s)
      | (.ok image, s) => (.ok { image, payload, label }, s)

/-- What running code finds around it: the memory and the function that sends messages. -/
def guestEnvironment (memory : Wasm.Memory) : Wasm.Environment where
  offers := [("env", "memory", .memory), ("env", "debug", .debug)]
  memory

/-- The failure of an entry point as a failure of the invocation. -/
def entryError : EngineError → LoaderError
  | .outOfCycles => .exceededMaxCycles
  | .trap reason | .other reason => .trapped reason

/-- The failure of an instantiation as a failure of the invocation. A start function that traps or
runs out of cycles is treated like an entry point, all else means that the code cannot be loaded. -/
def instanceError : EngineError → LoaderError
  | .other reason => .cannotLoad reason
  | e => entryError e

variable {E : Engine}

/-- What an invocation has come to: what its report is about, and the store that it leaves. -/
structure Run (E : Engine) where
  /-- The last stage that was reached. -/
  reached : Stage
  /-- The status that the code gave, if it was evaluated to the end. -/
  outcome : Option Int32
  /-- The failure that ended the invocation, if one did. -/
  error : Option LoaderError
  store : E.Store

namespace Run

/-- The invocation failed before the code gave a status. -/
def failed (reached : Stage) (error : LoaderError) (store : E.Store) : Run E :=
  { reached, outcome := none, error := some error, store }

/-- The cycles of the budget that are left. -/
def cyclesLeft (config : Config) (r : Run E) : Nat := config.maxCycles - E.consumed r.store

/-- The report of an invocation. -/
def report (config : Config) (r : Run E) : Report where
  reached := r.reached
  error := r.error
  outcome := r.outcome
  cycles := config.maxCycles - r.cyclesLeft config
  messages := E.messages r.store

end Run

/-- Code that is ready to run. -/
structure Guest (E : Engine) where
  inst : E.Instance
  store : E.Store
  input : StagedInput
  bounds : Int32 × Int32
  /-- The function of each entry point. -/
  function : EntryPoint → E.Func

/-- Reserves the memory, puts the inputs into it, links and starts the code, and binds the symbols.
A failure comes with the store that it leaves. -/
def Job.instantiate (config : Config) (job : Job E.toCompiler) (symbols : Symbols E.toCompiler)
    (store : E.Store) : Except (LoaderError × E.Store) (Guest E) :=
  match ExecutionArena.reserve config.arenaSize with
  | .error e => .error (e, store)
  | .ok arena =>
    match stageInput arena.memory job.payload job.label with
    | .error e => .error (e, store)
    | .ok (memory, input) =>
      let store := E.addMemory memory store
      match E.link (guestEnvironment memory) job.image.module with
      | .error reason => .error (instanceError (.other reason), store)
      | .ok linked =>
        match E.start config.maxCycles linked store with
        | (.error e, store) => .error (instanceError e, store)
        | (.ok inst, store) =>
          match symbols.construct.bind inst, symbols.evaluate.bind inst,
            symbols.teardown.bind inst with
          | .ok construct, .ok evaluate, .ok teardown =>
            let function : EntryPoint → E.Func
              | .construct => construct
              | .evaluate => evaluate
              | .teardown => teardown
            .ok { inst, store, input, bounds := arena.bounds, function }
          | .error e, _, _ | _, .error e, _ | _, _, .error e => .error (e, store)

/-- The word that a function gives, zero if it gives none. -/
def wordOf (results : List Wasm.Value) : Int32 :=
  match results with
  | .i32 v :: _ => Int32.ofBitVec v
  | _ => 0

/-- The values that an entry point is called with. -/
def EntryCall.values (c : EntryCall) : List Wasm.Value :=
  c.args.map fun a => Wasm.Value.i32 a.toBitVec

/-- Calls an entry point. -/
def Guest.call (budget : Nat) (g : Guest E) (c : EntryCall) :
    Except LoaderError Int32 × Guest E :=
  match E.call budget (g.function c.entry) c.values g.store with
  | (.ok results, store) => (.ok (wordOf results), { g with store })
  | (.error e, store) => (.error (entryError e), { g with store })

/-- The call that gives a guest its arena. -/
def Guest.constructCall (g : Guest E) : EntryCall := ⟨.construct, [g.bounds.1, g.bounds.2]⟩

/-- The call that gives a guest its inputs. -/
def Guest.evaluateCall (g : Guest E) (ctx : Int32) : EntryCall :=
  ⟨.evaluate, [ctx, g.input.payloadPtr, g.input.payloadLen, g.input.labelPtr]⟩

/-- The call that gives a guest its context back. -/
def teardownCall (ctx : Int32) : EntryCall := ⟨.teardown, [ctx]⟩

/-- Runs the three entry points of a guest. -/
def Guest.run (config : Config) (g : Guest E) : Run E :=
  let budget := config.maxCycles
  match g.call budget g.constructCall with
  | (.error e, g) => .failed .symbolsResolved e g.store
  | (.ok ctx, g) =>
    if ctx = 0 then .failed .symbolsResolved .constructFailed g.store
    else
      match g.call budget (g.evaluateCall ctx) with
      | (.error e, g) => .failed .contextConstructed e g.store
      | (.ok status, g) =>
        if status ≠ 0 then
          ⟨.contextConstructed, some status, some (.evaluateFailed status), g.store⟩
        else
          match g.call budget (teardownCall ctx) with
          | (.error e, g) => ⟨.evaluated, some 0, some e, g.store⟩
          | (.ok _, g) => ⟨.tornDown, some 0, none, g.store⟩

/-- Runs loaded code, starting with a store in which nothing has run. -/
def Job.run (config : Config) (job : Job E.toCompiler) (store : E.Store) : Run E :=
  match Symbols.find job.image with
  | .error e => .failed .codeLoaded e store
  | .ok symbols =>
    match job.instantiate config symbols store with
    | .error (e, store) => .failed .symbolsResolved e store
    | .ok guest => guest.run config

/-- Loads and runs code under one configuration, which was checked. -/
structure Loader (E : Engine) where
  config : Config
  valid : config.validate = .ok ()

namespace Loader

/-- The loader for a configuration. -/
def ofConfig (config : Config) : Except ConfigError (Loader E) :=
  match h : config.validate with
  | .ok () => .ok ⟨config, h⟩
  | .error e => .error e

variable {σ : Type}

/-- One invocation, up to its report. -/
def drive (loader : Loader E) (host : Host σ) (payload : Payload) (label : String) (s : σ) :
    Run E × σ :=
  let store := E.newStore loader.config.captureDebug
  match prepare E.toCompiler host loader.config payload label s with
  | (.error e, s) => (.failed .init e store, s)
  | (.ok job, s) => (job.run loader.config store, s)

/-- One invocation. -/
def invoke (loader : Loader E) (host : Host σ) (payload : Payload) (label : String) (s : σ) :
    Report × σ :=
  let (run, s) := loader.drive host payload label s
  (run.report loader.config, s)

end Loader

end HashLoader
