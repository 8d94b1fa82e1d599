import HashLoader.Proofs.Engine.Recording
import HashLoader.Proofs.Invocation.Failures

/-!
# What an invocation asks of the engine

`Loader.log` is the log of an invocation: the requests that the engine gets in it, in order, as the
recorded engine keeps them. `Loader.log_eq` takes it apart: the start of the module, and then the
calls of entry points. The recorded engine makes no other difference (`Loader.invoke_recorded`).

The log is a thread from the first store of the invocation to the last one (`Loader.thread`), so
what is counted in the last store can be told from the requests.
-/

namespace HashLoader

variable {E : Engine} {config : Config} {job : Job E.toCompiler} {store : E.Store} {g : Guest E}

/-! ## Guests -/

/-- The call of an entry point as a request. -/
def Guest.request (budget : Nat) : Guest E × EntryCall → Request E
  | (g, c) => .call budget (g.function c.entry) c.values g.store

/-- The guest on the recorded engine, with a log. -/
def Guest.withLog (g : Guest E) (log : List (Request E)) : Guest E.recorded where
  inst := g.inst
  store := (g.store, log)
  input := g.input
  bounds := g.bounds
  function := g.function

/-- What an invocation has come to on the recorded engine, with a log. -/
def Run.withLog (r : Run E) (log : List (Request E)) : Run E.recorded where
  reached := r.reached
  outcome := r.outcome
  error := r.error
  store := (r.store, log)

/-- A call of an entry point is put into the log. -/
theorem Guest.call_withLog (budget : Nat) (g : Guest E) (c : EntryCall) (log : List (Request E)) :
    (g.withLog log).call budget c = ((g.call budget c).1,
      (g.call budget c).2.withLog (log ++ [Guest.request budget (g, c)])) := by
  rw [Guest.call_eq, Guest.call_eq]
  rfl

/-- So are all calls of a guest. -/
theorem Guest.run_withLog (config : Config) (g : Guest E) (log : List (Request E)) :
    (g.withLog log).run config
      = (g.run config).withLog (log ++ (g.calls config).map (Guest.request config.maxCycles)) := by
  -- Each call puts its own request behind the log, so the log grows along the calls.
  have hcall : ∀ {g g' : Guest E} {c : EntryCall} {result : Except LoaderError Int32}
      {log : List (Request E)}, g.call config.maxCycles c = (result, g') →
      (g.withLog log).call config.maxCycles c
        = (result, g'.withLog (log ++ [Guest.request config.maxCycles (g, c)])) := by
    intro g g' c result log h
    rw [Guest.call_withLog, h]
  have hconstruct : (g.withLog log).constructCall = g.constructCall := rfl
  have hevaluate : ∀ (g : Guest E) log ctx, (g.withLog log).evaluateCall ctx = g.evaluateCall ctx :=
    fun _ _ _ => rfl
  unfold Guest.run Guest.calls
  dsimp only
  rw [hconstruct]
  rcases hfirst : g.call config.maxCycles g.constructCall with ⟨e | ctx, g₁⟩
  · rw [hcall hfirst]
    rfl
  rw [hcall hfirst]
  dsimp only
  split
  · rfl
  rw [hevaluate]
  rcases hsecond : g₁.call config.maxCycles (g₁.evaluateCall ctx) with ⟨e | status, g₂⟩
  · rw [hcall hsecond, List.append_assoc]
    rfl
  rw [hcall hsecond]
  dsimp only
  split
  · rw [List.append_assoc]
    rfl
  rcases hthird : g₂.call config.maxCycles (teardownCall ctx) with ⟨e | gone, g₃⟩
  · rw [hcall hthird, List.append_assoc, List.append_assoc]
    rfl
  · rw [hcall hthird, List.append_assoc, List.append_assoc]
    rfl

/-! ## Jobs -/

/-- The start of the code of a job as a request, if all symbols are found and the code gets so far.
-/
def Job.startRequest? (config : Config) (job : Job E.toCompiler) (store : E.Store) :
    Option (Request E) :=
  match Symbols.find job.image, E.link (job.environment config) job.image.module with
  | .ok _, .ok linked =>
    some (.start config.maxCycles linked (E.addMemory (job.memory config) store))
  | _, _ => none

/-- Where the symbols are found and the code is linked, it is started in the store with the memory.
-/
theorem Job.startRequest?_eq_some_iff {x : Request E} :
    job.startRequest? config store = some x ↔ ∃ symbols linked,
      Symbols.find job.image = .ok symbols ∧
      E.link (job.environment config) job.image.module = .ok linked ∧
      .start config.maxCycles linked (E.addMemory (job.memory config) store) = x := by
  unfold startRequest?
  cases Symbols.find job.image with
  | error e => simp
  | ok symbols =>
    cases E.link (job.environment config) job.image.module with
    | error reason => simp
    | ok linked => simp

/-- A job that becomes a guest is started before. -/
theorem Job.startRequest?_of_guest (h : job.guest? config store = some g) :
    ∃ linked, E.link (job.environment config) job.image.module = .ok linked ∧
      E.start config.maxCycles linked (E.addMemory (job.memory config) store) = (.ok g.inst, g.store) ∧
      job.startRequest? config store
        = some (.start config.maxCycles linked (E.addMemory (job.memory config) store)) := by
  obtain ⟨symbols, hsymbols, hmade⟩ := Job.guest?_eq_some_iff.1 h
  obtain ⟨linked, hlink, hstart⟩ := (Job.readied hsymbols hmade).started
  exact ⟨linked, hlink, hstart,
    Job.startRequest?_eq_some_iff.2 ⟨symbols, linked, hsymbols, hlink, rfl⟩⟩

/-- All that is asked of the engine for a job. -/
def Job.requests (config : Config) (job : Job E.toCompiler) (store : E.Store) : List (Request E) :=
  (job.startRequest? config store).toList ++
    (job.entryCalls config store).map (Guest.request config.maxCycles)

/-- What making code ready comes to on the recorded engine, with a log. -/
def Job.withLog (log : List (Request E)) :
    Except (LoaderError × E.Store) (Guest E) →
      Except (LoaderError × E.recorded.Store) (Guest E.recorded)
  | .error (e, store) => .error (e, store, log)
  | .ok guest => .ok (guest.withLog log)

/-- A symbol is bound as it is without a log. -/
theorem Symbol.bind_recorded (s : Symbol E.toCompiler) (inst : E.Instance) :
    s.bind (E := E.recorded) inst = s.bind inst := by
  unfold bind
  dsimp only
  cases E.function? inst s.entry.name with
  | none => rfl
  | some f => rfl

/-- The start of the code is put into the log. -/
theorem Job.instantiate_recorded {symbols : Symbols E.toCompiler}
    (hready : job.Reserved config) (hsymbols : Symbols.find job.image = .ok symbols)
    (store : E.Store) (log : List (Request E)) :
    job.instantiate (E := E.recorded) config symbols (store, log)
      = Job.withLog (log ++ (job.startRequest? config store).toList)
          (job.instantiate config symbols store) := by
  obtain ⟨arena, harena, -, hstaged⟩ := hready.staged
  unfold Job.instantiate startRequest? environment
  rw [harena]
  dsimp only
  rw [hstaged, hsymbols]
  dsimp only
  cases E.link (guestEnvironment (job.memory config)) job.image.module with
  | error reason =>
    rw [Option.toList_none, List.append_nil]
    rfl
  | ok linked =>
    dsimp only
    rcases E.start config.maxCycles linked (E.addMemory (job.memory config) store) with
      ⟨e | inst, left⟩
    · rfl
    · dsimp only
      simp only [Symbol.bind_recorded]
      -- Binding asks nothing of the engine that is recorded.
      rcases symbols.construct.bind inst with e | construct
      · rfl
      rcases symbols.evaluate.bind inst with e | evaluate
      · rfl
      rcases symbols.teardown.bind inst with e | teardown
      · rfl
      · rfl

/-- What is asked of the engine for a job is put into the log. -/
theorem Job.run_recorded (hready : job.Reserved config) (store : E.Store) (log : List (Request E)) :
    job.run (E := E.recorded) config (store, log)
      = (job.run config store).withLog (log ++ job.requests config store) := by
  unfold requests entryCalls guest?
  cases hsymbols : Symbols.find job.image with
  | error e =>
    have hstart : job.startRequest? config store = none := by rw [startRequest?, hsymbols]
    rw [run, run, hsymbols, hstart]
    exact congrArg (Run.withLog (.failed .codeLoaded e store)) (List.append_nil log).symm
  | ok symbols =>
    have hmade := Job.instantiate_recorded hready hsymbols store log
    rw [run, run, hsymbols]
    dsimp only
    rw [hmade]
    rcases job.instantiate config symbols store with ⟨e, left⟩ | guest
    · exact congrArg (fun l => Run.withLog (.failed .symbolsResolved e left) (log ++ l))
        (List.append_nil _).symm
    · exact (guest.run_withLog config _).trans (congrArg _ (List.append_assoc _ _ _))

/-! ## Invocations -/

namespace Loader

variable {σ : Type}

/-- The loader with the recorded engine. -/
def recorded (loader : Loader E) : Loader E.recorded := ⟨loader.config, loader.valid⟩

variable (loader : Loader E) (host : Host σ) (payload : Payload) (label : String) (s : σ)

/-- All that is asked of the engine in an invocation, in order. -/
def log : List (Request E) := (loader.recorded.drive host payload label s).1.store.2

/-- The start of the code in an invocation, if it gets so far. -/
def startRequest? : Option (Request E) :=
  (loader.job? host payload label s).bind (Job.startRequest? loader.config · loader.newStore)

variable {loader host payload label s}

/-- The memory of the job of an invocation can be reserved, and its inputs fit. -/
theorem reserved_of_job? (h : loader.job? host payload label s = some job) :
    job.Reserved loader.config :=
  Job.reserved loader.valid
    ((loader.invoke_dialogue host payload label s).1.checked (job?_eq_some_iff.1 h))

/-- With the recorded engine an invocation goes the same way and leaves its log. -/
theorem drive_recorded : loader.recorded.drive host payload label s
    = ((loader.drive host payload label s).1.withLog
        ((loader.startRequest? host payload label s).toList ++
          (loader.entryCalls host payload label s).map (Guest.request loader.config.maxCycles)),
      (loader.drive host payload label s).2) := by
  have hsame : prepare E.recorded.toCompiler host loader.recorded.config payload label s
      = prepare E.toCompiler host loader.config payload label s := rfl
  unfold startRequest? entryCalls job?
  rw [drive_eq, drive_eq, hsame]
  refine Prod.ext ?_ rfl
  dsimp only
  cases hprepared : (prepare E.toCompiler host loader.config payload label s).1 with
  | error e => rfl
  | ok job =>
    exact Job.run_recorded (reserved_of_job? (job?_eq_some_iff.2 hprepared)) loader.newStore []

/-- The log of an invocation: the start of the code, and then the calls of entry points. -/
theorem log_eq : loader.log host payload label s
    = (loader.startRequest? host payload label s).toList ++
      (loader.entryCalls host payload label s).map (Guest.request loader.config.maxCycles) := by
  rw [log, drive_recorded]
  rfl

/-- With the recorded engine an invocation gives the same report. -/
theorem invoke_recorded :
    loader.recorded.invoke host payload label s = loader.invoke host payload label s := by
  rw [invoke, drive_recorded]
  rfl

/-- What is asked of the engine in an invocation that prepares a job is what is asked for the job.
-/
theorem startRequest?_of_job? (h : loader.job? host payload label s = some job) :
    loader.startRequest? host payload label s
      = job.startRequest? loader.config loader.newStore := by
  rw [startRequest?, h, Option.bind_some]

/-- So is the log. -/
theorem log_of_job? (h : loader.job? host payload label s = some job) :
    loader.log host payload label s = job.requests loader.config loader.newStore := by
  rw [log_eq, startRequest?_of_job? h, (of_job? h).1, Job.requests]

/-- The start is in it. -/
theorem mem_log_of_start {x : Request E} (h : loader.startRequest? host payload label s = some x) :
    x ∈ loader.log host payload label s := by
  rw [log_eq]
  exact List.mem_append_left _ (Option.mem_toList.2 h)

/-- The calls are in it. -/
theorem mem_log_of_call {g : Guest E} {c : EntryCall}
    (h : (g, c) ∈ loader.entryCalls host payload label s) :
    Guest.request loader.config.maxCycles (g, c) ∈ loader.log host payload label s := by
  rw [log_eq]
  exact List.mem_append_right _ (List.mem_map_of_mem h)

/-- All code in an invocation draws on the budget of the loader. -/
theorem budget_of_mem_log {x : Request E} (h : x ∈ loader.log host payload label s) :
    x.budget = loader.config.maxCycles := by
  rw [log_eq, List.mem_append] at h
  rcases h with hstart | hcall
  · obtain ⟨job, -, hrequest⟩ := Option.bind_eq_some_iff.1 (Option.mem_toList.1 hstart)
    obtain ⟨_, linked, -, -, rfl⟩ := Job.startRequest?_eq_some_iff.1 hrequest
    rfl
  · obtain ⟨⟨g, c⟩, -, rfl⟩ := List.mem_map.1 hcall
    rfl

/-- An invocation that prepares no job asks for nothing. -/
theorem log_of_no_job (h : loader.job? host payload label s = none) :
    loader.log host payload label s = [] := by
  rw [log_eq, startRequest?, h, (of_no_job h).1]
  rfl

end Loader

/-! ## The module of a job -/

/-- A request runs a module: it starts what the module was linked to, or calls a function that an
instance of this gives out. -/
inductive Request.Runs (m : E.Module) : Request E → Prop
  | start {env : Wasm.Environment} {linked : E.Linked} {budget : Nat} {store : E.Store} :
      E.link env m = .ok linked → Runs m (.start budget linked store)
  | call {env : Wasm.Environment} {linked : E.Linked} {budget budget' : Nat}
      {first left store : E.Store} {inst : E.Instance} {name : String} {f : E.Func}
      {args : List Wasm.Value} :
      E.link env m = .ok linked → E.start budget linked first = (.ok inst, left) →
      E.function? inst name = some f → Runs m (.call budget' f args store)

/-- A call of an entry point of a job is a call of the function that the instance gives out under
its name. -/
theorem Job.readied_of_mem {g : Guest E} {c : EntryCall} (h : (g, c) ∈ job.entryCalls config store) :
    ∃ guest left, job.Readied config store guest ∧ g = { guest with store := left } := by
  obtain ⟨guest, hguest, hcourse⟩ := Job.guest_of_entryCalls (List.ne_nil_of_mem h)
  obtain ⟨symbols, hsymbols, hmade⟩ := Job.guest?_eq_some_iff.1 hguest
  obtain ⟨left, hleft⟩ := hcourse.of_mem h
  exact ⟨guest, left, Job.readied hsymbols hmade, hleft⟩

/-- All that is asked of the engine for a job is to run its module. -/
theorem Job.runs_of_mem {x : Request E} (h : x ∈ job.requests config store) :
    x.Runs job.image.module := by
  rcases List.mem_append.1 h with hstart | hcall
  · obtain ⟨symbols, linked, -, hlink, rfl⟩ :=
      Job.startRequest?_eq_some_iff.1 (Option.mem_toList.1 hstart)
    exact .start hlink
  · obtain ⟨⟨g, c⟩, hmem, rfl⟩ := List.mem_map.1 hcall
    obtain ⟨guest, left, hready, rfl⟩ := Job.readied_of_mem hmem
    obtain ⟨linked, hlink, hstart⟩ := hready.started
    exact .call hlink hstart (hready.function_eq c.entry).1

/-! ## Threads -/

/-- The calls of a guest are a thread. -/
theorem Guest.Course.thread {calls : List (Guest E × EntryCall)} {r : Run E}
    (h : g.Course config calls r) :
    Thread g.store (calls.map (Guest.request config.maxCycles)) r.store := by
  have hcall : ∀ {g g' : Guest E} {c : EntryCall} {result : Except LoaderError Int32}
      {rest : List (Request E)} {last : E.Store}, g.call config.maxCycles c = (result, g') →
      Thread g'.store rest last →
      Thread g.store (Guest.request config.maxCycles (g, c) :: rest) last := by
    intro g g' c result rest last hcall hrest
    have hstore : (Guest.request config.maxCycles (g, c)).left = g'.store := by
      have hguest := congrArg (fun x => x.2.store) hcall
      rwa [Guest.call_eq] at hguest
    rw [← hstore] at hrest
    exact .cons hrest
  cases h with
  | unconstructed hfirst | null hfirst => exact hcall hfirst .nil
  | interrupted hfirst hctx hsecond | declined hfirst hctx hsecond =>
    exact hcall hfirst (hcall hsecond .nil)
  | kept hfirst hctx hsecond hthird | finished hfirst hctx hsecond hthird =>
    exact hcall hfirst (hcall hsecond (hcall hthird .nil))

/-- The store that making code ready leaves. -/
def Job.storeOf : Except (LoaderError × E.Store) (Guest E) → E.Store
  | .error (_, store) => store
  | .ok guest => guest.store

/-- Making code ready is a thread of the start alone, in the store with the memory. -/
theorem Job.Instantiation.thread {symbols : Symbols E.toCompiler}
    {made : Except (LoaderError × E.Store) (Guest E)} (hready : job.Reserved config)
    (hsymbols : Symbols.find job.image = .ok symbols)
    (h : job.Instantiation config symbols store made) :
    Thread (E.addMemory (job.memory config) store) (job.startRequest? config store).toList
      (Job.storeOf made) := by
  -- Once the code is linked it is started, and no other request is made.
  have hlinked : ∀ {linked result left},
      E.link (job.environment config) job.image.module = .ok linked →
      E.start config.maxCycles linked (E.addMemory (job.memory config) store) = (result, left) →
      Thread (E.addMemory (job.memory config) store) (job.startRequest? config store).toList left := by
    intro linked result left hlink hstart
    have hleft : (Request.start config.maxCycles linked
        (E.addMemory (job.memory config) store)).left = left := congrArg Prod.snd hstart
    rw [Job.startRequest?_eq_some_iff.2 ⟨symbols, linked, hsymbols, hlink, rfl⟩, ← hleft]
    exact .single (.start _ _ _)
  cases h with
  -- With a memory and inputs that were checked, these two ways are not taken.
  | unreserved harena =>
    obtain ⟨arena, harena'⟩ := hready.reserve_eq
    cases harena.symm.trans harena'
  | unstaged hinput => cases hinput.symm.trans hready.checked
  | unlinked _ hlink =>
    rw [startRequest?, hsymbols, hlink]
    exact .nil
  | unstarted _ hlink hstart => exact hlinked hlink hstart
  | unbound _ hlink hstart => exact hlinked hlink hstart
  | ready _ hlink hstart => exact hlinked hlink hstart

/-- What is asked of the engine for a job is a thread. It begins with the store of the job, or with
that and its memory. -/
theorem Job.thread (hready : job.Reserved config) (store : E.Store) :
    ∃ first, (first = store ∨ first = E.addMemory (job.memory config) store) ∧
      Thread first (job.requests config store) (job.run config store).store := by
  unfold requests entryCalls guest? run
  cases hsymbols : Symbols.find job.image with
  | error e =>
    refine ⟨store, .inl rfl, ?_⟩
    rw [startRequest?, hsymbols]
    exact .nil
  | ok symbols =>
    refine ⟨_, .inr rfl, ?_⟩
    dsimp only
    have hstart := (job.instantiation config symbols store).thread hready hsymbols
    rcases hmade : job.instantiate config symbols store with ⟨e, left⟩ | guest
    · rw [hmade] at hstart
      exact hstart.append .nil
    · rw [hmade] at hstart
      exact hstart.append (guest.course config).thread

/-- The log of an invocation is a thread. It begins with the first store, perhaps with a memory, and
ends with the store that the invocation leaves. -/
theorem Loader.thread {σ : Type} (loader : Loader E) (host : Host σ) (payload : Payload)
    (label : String) (s : σ) :
    ∃ first, (first = loader.newStore ∨ ∃ memory, first = E.addMemory memory loader.newStore) ∧
      Thread first (loader.log host payload label s) (loader.drive host payload label s).1.store := by
  cases hjob : loader.job? host payload label s with
  | none =>
    obtain ⟨-, e, hrun⟩ := of_no_job hjob
    rw [log_of_no_job hjob, hrun]
    exact ⟨_, .inl rfl, .nil⟩
  | some job =>
    obtain ⟨first, hfirst, hthread⟩ := Job.thread (reserved_of_job? hjob) loader.newStore
    rw [log_of_job? hjob, (of_job? hjob).2]
    exact ⟨first, hfirst.imp_right fun h => ⟨_, h⟩, hthread⟩

/-- There are no cycles and no messages in the store that the thread begins with. -/
theorem Loader.fresh_thread {σ : Type} (hE : E.Spec) (loader : Loader E) (host : Host σ)
    (payload : Payload) (label : String) (s : σ) :
    ∃ first, E.consumed first = 0 ∧ E.messages first = [] ∧
      Thread first (loader.log host payload label s) (loader.drive host payload label s).1.store := by
  obtain ⟨first, rfl | ⟨memory, rfl⟩, hthread⟩ := loader.thread host payload label s
  · exact ⟨_, hE.consumed_newStore _, hE.messages_newStore _, hthread⟩
  · obtain ⟨hconsumed, hmessages⟩ := hE.fresh memory loader.config.captureDebug
    exact ⟨_, hconsumed, hmessages, hthread⟩

end HashLoader
