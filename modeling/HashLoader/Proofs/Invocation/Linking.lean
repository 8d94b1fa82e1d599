import HashLoader.Proofs.Invocation.Activations

/-!
# What code may import

`Wasm.Import.Allowed` says what code may ask for: the memory that is reserved for it, by a type that
this memory has, and the function that sends messages. The engine links code by what its imports are
called and by their types, so it links exactly the code that asks for nothing else. Linking comes
before all that has an effect: if one import is not allowed, wherever it stands, the code cannot be
loaded and nothing of it runs, not even the start function (`Loader.invoke_links`).

By the time of linking nothing else can keep the code from it. The memory of a configuration that
was checked can be reserved, and inputs that were checked can be put into it (`Job.Reserved`).
-/

namespace HashLoader

namespace Wasm

/-- The imports that code may have if the memory that is reserved for it has a number of pages. -/
inductive Import.Allowed (pages : Nat) : Import → Prop
  /-- The memory, if it is one of the usual kind. It has as many pages as are asked for at least,
  and no more than are asked for at most, since it cannot grow. -/
  | memory {l : Limits} : l.min ≤ pages → (∀ most, l.max = some most → pages ≤ most) →
      Allowed pages ⟨"env", "memory", .memory ⟨l, false, false, memoryPage⟩⟩
  /-- The function that sends messages. It takes an address and a length and gives nothing. -/
  | debug : Allowed pages ⟨"env", "debug", .function ⟨[.i32, .i32], []⟩⟩

/-- Code imports from one source only. -/
theorem Import.Allowed.source_eq {pages : Nat} {i : Import} (h : i.Allowed pages) :
    i.source = "env" := by
  cases h with
  | memory | debug => rfl

namespace Offer

variable {memory : Memory} {t : ExternType}

theorem memory_fits_iff :
    Offer.memory.fits memory t = true ↔
      ∃ l : Limits, t = .memory ⟨l, false, false, memoryPage⟩ ∧ l.min ≤ memory.pages ∧
        ∀ most, l.max = some most → memory.maxPages ≤ most := by
  cases t with
  | memory t =>
    obtain ⟨l, wide, shared, pageSize⟩ := t
    simp only [fits, Bool.and_eq_true, Bool.not_eq_true', beq_iff_eq, decide_eq_true_eq,
      Option.all_eq_true, ExternType.memory.injEq, MemoryType.mk.injEq]
    constructor
    · rintro ⟨⟨⟨⟨rfl, rfl⟩, rfl⟩, hmin⟩, hmax⟩
      exact ⟨l, ⟨rfl, rfl, rfl, rfl⟩, hmin, hmax⟩
    · rintro ⟨_, ⟨rfl, rfl, rfl, rfl⟩, hmin, hmax⟩
      exact ⟨⟨⟨⟨rfl, rfl⟩, rfl⟩, hmin⟩, hmax⟩
  | function | table | global | tag => simp [fits]

theorem debug_fits_iff : Offer.debug.fits memory t = true ↔ t = .function debugType := by
  cases t with
  | function t => simp [fits]
  | table | memory | global | tag => simp [fits]

end Offer

/-- With a memory that cannot grow, what is provided to code is what it may import. -/
theorem provides_guestEnvironment_iff {memory : Memory} (hfixed : memory.maxPages = memory.pages)
    {i : Import} : (guestEnvironment memory).provides i = true ↔ i.Allowed memory.pages := by
  obtain ⟨source, name, type⟩ := i
  simp only [Environment.provides, guestEnvironment, List.any_cons, List.any_nil, Bool.or_false,
    Bool.or_eq_true, Bool.and_eq_true, beq_iff_eq, Offer.memory_fits_iff, Offer.debug_fits_iff,
    hfixed]
  constructor
  · rintro (⟨⟨rfl, rfl⟩, l, rfl, hmin, hmax⟩ | ⟨⟨rfl, rfl⟩, rfl⟩)
    · exact .memory hmin hmax
    · exact .debug
  · intro hallowed
    cases hallowed with
    | memory hmin hmax => exact .inl ⟨⟨rfl, rfl⟩, _, rfl, hmin, hmax⟩
    | debug => exact .inr ⟨⟨rfl, rfl⟩, rfl⟩

end Wasm

/-! ## Linking -/

/-- The pages of the memory that is reserved for code. -/
def Config.memoryPages (config : Config) : Nat :=
  unitsFor (inputWindow + config.arenaSize) Wasm.memoryPage

variable {E : Engine} {config : Config} {job : Job E.toCompiler} {store : E.Store}

/-- The memory of a job has this many pages for good. -/
theorem Job.pages_memory (config : Config) (job : Job E.toCompiler) :
    (job.memory config).pages = config.memoryPages ∧
      (job.memory config).maxPages = (job.memory config).pages := by
  simp [memory, Wasm.Memory.staged, Config.memoryPages, Wasm.Memory.ofLimits]

/-- The code of a job is linked exactly if all its imports are allowed. -/
theorem Job.link_iff (hE : E.Spec) (config : Config) (job : Job E.toCompiler) :
    (∃ linked, E.link (job.environment config) job.image.module = .ok linked) ↔
      ∀ i ∈ E.imports job.image.module, i.Allowed config.memoryPages := by
  obtain ⟨hpages, hfixed⟩ := job.pages_memory config
  rw [hE.link_iff, ← hpages]
  exact forall₂_congr fun i _ => Wasm.provides_guestEnvironment_iff hfixed

/-- A job whose code is not linked runs nothing of it, and leaves the store with the memory. -/
theorem Job.run_of_unlinked {symbols : Symbols E.toCompiler} {reason : String}
    (hready : job.Reserved config) (hsymbols : Symbols.find job.image = .ok symbols)
    (hlink : E.link (job.environment config) job.image.module = .error reason) :
    job.run config store
        = .failed .symbolsResolved (.cannotLoad reason) (E.addMemory (job.memory config) store) ∧
      job.requests config store = [] := by
  obtain ⟨arena, harena, -, hstaged⟩ := hready.staged
  have hlink' : E.link (guestEnvironment (job.memory config)) job.image.module = .error reason := hlink
  have hmade : job.instantiate config symbols store
      = .error (.cannotLoad reason, E.addMemory (job.memory config) store) := by
    rw [instantiate, harena]
    dsimp only
    rw [hstaged]
    dsimp only
    rw [hlink']
    rfl
  have hnone : job.guest? config store = none := by
    rw [guest?, hsymbols]
    dsimp only
    rw [hmade]
    rfl
  constructor
  · rw [run, hsymbols]
    dsimp only
    rw [hmade]
  · rw [requests, startRequest?, hsymbols, hlink, Job.entryCalls_of_none hnone]
    rfl

namespace Loader

/-- For every invocation that finds the three symbols: the code is linked, and then started, exactly
if all its imports are allowed. If one of them is not, the code cannot be loaded, and none of it
runs. -/
theorem invoke_links (hE : E.Spec) {σ : Type} (loader : Loader E) (host : Host σ) (payload : Payload)
    (label : String) (s : σ) {symbols : Symbols E.toCompiler}
    (hjob : loader.job? host payload label s = some job)
    (hsymbols : Symbols.find job.image = .ok symbols) :
    ((∃ linked, E.link (job.environment loader.config) job.image.module = .ok linked) ↔
      ∀ i ∈ E.imports job.image.module, i.Allowed loader.config.memoryPages) ∧
    (loader.log host payload label s ≠ [] ↔
      ∀ i ∈ E.imports job.image.module, i.Allowed loader.config.memoryPages) ∧
    ((∃ i ∈ E.imports job.image.module, ¬ i.Allowed loader.config.memoryPages) →
      loader.log host payload label s = [] ∧
      ∃ reason, (loader.invoke host payload label s).1
        = { reached := .symbolsResolved, error := some (.cannotLoad reason), outcome := none,
            cycles := 0, messages := [] }) := by
  have hlinks := Job.link_iff hE loader.config job
  have hready := reserved_of_job? hjob
  refine ⟨hlinks, ?_, ?_⟩
  -- The first request for a job is the start, which is made as soon as the code is linked.
  · rw [← hlinks, log_of_job? hjob]
    constructor
    · intro hlog
      cases hlink : E.link (job.environment loader.config) job.image.module with
      | ok linked => exact ⟨linked, rfl⟩
      | error reason => exact absurd (Job.run_of_unlinked hready hsymbols hlink).2 hlog
    · rintro ⟨linked, hlink⟩
      rw [Job.requests,
        Job.startRequest?_eq_some_iff.2 ⟨symbols, linked, hsymbols, hlink, rfl⟩]
      exact List.cons_ne_nil _ _
  -- Before the start nothing is in the store but the memory.
  · rintro ⟨i, hi, hforeign⟩
    cases hlink : E.link (job.environment loader.config) job.image.module with
    | ok linked => exact absurd (hlinks.1 ⟨linked, hlink⟩ i hi) hforeign
    | error reason =>
      obtain ⟨hrun, hrequests⟩ := Job.run_of_unlinked hready hsymbols hlink
      obtain ⟨hconsumed, hmessages⟩ := hE.fresh (job.memory loader.config) loader.config.captureDebug
      refine ⟨(log_of_job? hjob).trans hrequests, reason, ?_⟩
      rw [invoke_eq_report, (of_job? hjob).2, hrun]
      unfold Run.report Run.cyclesLeft Run.failed newStore
      dsimp only
      rw [hconsumed, hmessages, Nat.sub_zero, Nat.sub_self]

end Loader

/-! ## A foreign import -/

/-- A page of code that may use the function that sends messages, and does so in its start function,
but also asks for a function of another source. -/
def foreignCode : Bytes :=
  [0x00, 0x61, 0x73, 0x6d, 0x01, 0x00, 0x00, 0x00,
    0x01, 0x1b, 0x05, 0x60, 0x02, 0x7f, 0x7f, 0x01, 0x7f, 0x60, 0x04, 0x7f, 0x7f, 0x7f, 0x7f, 0x01,
    0x7f, 0x60, 0x01, 0x7f, 0x00, 0x60, 0x02, 0x7f, 0x7f, 0x00, 0x60, 0x00, 0x00,
    -- The imports, the foreign one last.
    0x02, 0x18, 0x02, 0x03, 0x65, 0x6e, 0x76, 0x05, 0x64, 0x65, 0x62, 0x75, 0x67, 0x00, 0x03,
    0x03, 0x73, 0x79, 0x73, 0x04, 0x65, 0x78, 0x69, 0x74, 0x00, 0x03,
    0x03, 0x05, 0x04, 0x00, 0x01, 0x02, 0x04] ++ entryExports 2 ++
    [0x08, 0x01, 0x05, 0x0a, 0x17, 0x04, 0x04, 0x00, 0x41, 0x01, 0x0b, 0x04, 0x00, 0x41, 0x00, 0x0b,
      0x02, 0x00, 0x0b,
      -- The body of the start function: the address, the length and the call.
      0x08, 0x00, 0x41, 0x00, 0x41, 0x01, 0x10, 0x00, 0x0b]

/-- The foreign import of the page. -/
def foreignImport : Wasm.Import := ⟨"sys", "exit", .function ⟨[.i32, .i32], []⟩⟩

/-- The code is not loaded, and its start function sends no message. -/
theorem invoke_links_foreignCode :
    Wasm.interpreter.Spec ∧ ∃ (job : Job Wasm.interpreter.toCompiler)
      (symbols : Symbols Wasm.interpreter.toCompiler),
      pageLoader.job? (pageHost foreignCode) .fromArgs "" () = some job ∧
      Symbols.find job.image = .ok symbols ∧
      (Wasm.Module.start job.image.module).isSome = true ∧
      (∃ i ∈ Wasm.Module.imports job.image.module, ¬ i.Allowed pageLoader.config.memoryPages) ∧
      pageLoader.log (pageHost foreignCode) .fromArgs "" () = [] ∧
      ∃ reason, (pageLoader.invoke (pageHost foreignCode) .fromArgs "" ()).1
        = { reached := .symbolsResolved, error := some (.cannotLoad reason), outcome := none,
            cycles := 0, messages := [] } := by
  have htest : (pageLoader.job? (pageHost foreignCode) .fromArgs "" ()).any (fun job =>
      (Symbols.find job.image).toOption.isSome && (Wasm.Module.start job.image.module).isSome &&
        decide (foreignImport ∈ Wasm.Module.imports job.image.module)) = true := by
    decide +kernel
  obtain ⟨job, hjob, htest⟩ := (Option.any_eq_true _ _).1 htest
  simp only [Bool.and_eq_true, decide_eq_true_eq] at htest
  obtain ⟨⟨hfound, hstart⟩, himport⟩ := htest
  obtain ⟨symbols, hsymbols⟩ := Option.isSome_iff_exists.1 hfound
  rw [toOption_eq_some_iff] at hsymbols
  have hforeign : ∃ i ∈ Wasm.Module.imports job.image.module,
      ¬ i.Allowed pageLoader.config.memoryPages :=
    ⟨foreignImport, himport, fun hallowed => absurd hallowed.source_eq (by decide)⟩
  obtain ⟨-, -, hfails⟩ := Loader.invoke_links Wasm.interpreter_spec pageLoader (pageHost foreignCode)
    .fromArgs "" () hjob hsymbols
  obtain ⟨hnothing, hreport⟩ := hfails hforeign
  exact ⟨Wasm.interpreter_spec, job, symbols, hjob, hsymbols, hstart, hforeign, hnothing, hreport⟩

end HashLoader
