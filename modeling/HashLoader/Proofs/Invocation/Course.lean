import HashLoader.Image.Padding
import HashLoader.Proofs.Arena.Execution
import HashLoader.Proofs.Image.Authentic
import HashLoader.Proofs.Image.Lookup
import HashLoader.Proofs.Invocation.Dialogue
import HashLoader.Proofs.Record.Script

/-!
# The ways an invocation can go

After the code is resolved, an invocation is one path with many exits. `Job.Instantiation` lists the
ways in which the code of a job can be made ready, and `Guest.Course` the ways in which its entry
points can be run, each with its calls and what it comes to. What is true of all runs, or relates
calls to reports, is proved by cases on them, for every engine.

`Loader.job?` and `Loader.entryCalls` are the job of an invocation and its calls of entry points,
each with the guest as it is then. What a job has to do with the script is said by `Job.Requested`.
-/

namespace HashLoader

variable {E : Engine} {config : Config} {job : Job E.toCompiler}

/-! ## The memory of a job -/

/-- The memory that is reserved for a job, with the inputs of the job. -/
def Job.memory (config : Config) (job : Job E.toCompiler) : Wasm.Memory :=
  let pages := unitsFor (inputWindow + config.arenaSize) Wasm.memoryPage
  (Wasm.Memory.ofLimits ⟨pages, some pages⟩).staged job.payload job.label

/-- What the code of a job is linked with. -/
def Job.environment (config : Config) (job : Job E.toCompiler) : Wasm.Environment :=
  guestEnvironment (job.memory config)

/-- A memory can be reserved for a job, and the inputs fit it. -/
structure Job.Reserved (config : Config) (job : Job E.toCompiler) : Prop where
  reserve_eq : ∃ arena, ExecutionArena.reserve config.arenaSize = .ok arena
  checked : checkInput job.payload job.label = .ok ()

/-- With a valid configuration and inputs that were checked, it is so. -/
theorem Job.reserved (hvalid : config.validate = .ok ())
    (hinput : checkInput job.payload job.label = .ok ()) : job.Reserved config :=
  ⟨ExecutionArena.exists_reserve (Config.limit_le_of_validate hvalid), hinput⟩

/-- Where they are, they are put into the memory of the job. -/
theorem Job.Reserved.staged (h : job.Reserved config) :
    ∃ arena, ExecutionArena.reserve config.arenaSize = .ok arena ∧
      arena.bounds = (Int32.ofNat inputWindow, Int32.ofNat (inputWindow + config.arenaSize)) ∧
      stageInput arena.memory job.payload job.label
        = .ok (job.memory config, .ofPayload job.payload) := by
  obtain ⟨arena, harena⟩ := h.reserve_eq
  obtain rfl := ExecutionArena.eq_of_reserve harena
  exact ⟨_, harena, rfl, stageInput_eq_ok_iff.2 ⟨h.checked, rfl, rfl⟩⟩

/-! ## Making code ready -/

/-- The ways the code of a job can be made ready. -/
inductive Job.Instantiation (config : Config) (job : Job E.toCompiler) (symbols : Symbols E.toCompiler)
    (store : E.Store) : Except (LoaderError × E.Store) (Guest E) → Prop
  /-- The memory cannot be reserved. -/
  | unreserved {e : LoaderError} : ExecutionArena.reserve config.arenaSize = .error e →
      Instantiation config job symbols store (.error (e, store))
  /-- The inputs do not fit. -/
  | unstaged {e : LoaderError} : checkInput job.payload job.label = .error e →
      Instantiation config job symbols store (.error (e, store))
  /-- The code asks for something that it is not offered. -/
  | unlinked {reason : String} : job.Reserved config →
      E.link (job.environment config) job.image.module = .error reason →
      Instantiation config job symbols store
        (.error (.cannotLoad reason, E.addMemory (job.memory config) store))
  /-- The code cannot be started. -/
  | unstarted {linked : E.Linked} {e : EngineError} {left : E.Store} : job.Reserved config →
      E.link (job.environment config) job.image.module = .ok linked →
      E.start config.maxCycles linked (E.addMemory (job.memory config) store) = (.error e, left) →
      Instantiation config job symbols store (.error (instanceError e, left))
  /-- A symbol is not one of the instance. -/
  | unbound {linked : E.Linked} {inst : E.Instance} {left : E.Store} {s : Symbol E.toCompiler}
      {e : LoaderError} : job.Reserved config →
      E.link (job.environment config) job.image.module = .ok linked →
      E.start config.maxCycles linked (E.addMemory (job.memory config) store) = (.ok inst, left) →
      s ∈ [symbols.construct, symbols.evaluate, symbols.teardown] →
      s.bind inst = .error e →
      Instantiation config job symbols store (.error (e, left))
  /-- The code is ready. -/
  | ready {linked : E.Linked} {guest : Guest E} : job.Reserved config →
      E.link (job.environment config) job.image.module = .ok linked →
      E.start config.maxCycles linked (E.addMemory (job.memory config) store)
        = (.ok guest.inst, guest.store) →
      guest.bounds = (Int32.ofNat inputWindow, Int32.ofNat (inputWindow + config.arenaSize)) →
      guest.input = .ofPayload job.payload →
      symbols.construct.bind guest.inst = .ok (guest.function .construct) →
      symbols.evaluate.bind guest.inst = .ok (guest.function .evaluate) →
      symbols.teardown.bind guest.inst = .ok (guest.function .teardown) →
      Instantiation config job symbols store (.ok guest)

/-- Making code ready goes one of the ways. -/
theorem Job.instantiation (config : Config) (job : Job E.toCompiler) (symbols : Symbols E.toCompiler)
    (store : E.Store) :
    job.Instantiation config symbols store (job.instantiate config symbols store) := by
  unfold Job.instantiate
  cases harena : ExecutionArena.reserve config.arenaSize with
  | error e => exact .unreserved harena
  | ok arena =>
    dsimp only
    cases hinput : checkInput job.payload job.label with
    | error e =>
      rw [stageInput, hinput]
      exact .unstaged hinput
    | ok checked =>
      have hready : job.Reserved config := ⟨⟨arena, harena⟩, hinput⟩
      obtain ⟨arena', harena', hbounds, hstaged⟩ := hready.staged
      obtain rfl : arena = arena' := Except.ok.inj (harena.symm.trans harena')
      rw [hstaged]
      dsimp only
      cases hlink : E.link (guestEnvironment (job.memory config)) job.image.module with
      | error reason => exact .unlinked hready hlink
      | ok linked =>
        dsimp only
        rcases hstart : E.start config.maxCycles linked (E.addMemory (job.memory config) store) with
          ⟨e | inst, left⟩
        · exact .unstarted hready hlink hstart
        dsimp only
        cases hconstruct : symbols.construct.bind inst with
        -- Whichever symbol comes first that cannot be bound gives the error.
        | error e => exact .unbound hready hlink hstart (by simp) hconstruct
        | ok construct =>
          cases hevaluate : symbols.evaluate.bind inst with
          | error e => exact .unbound hready hlink hstart (by simp) hevaluate
          | ok evaluate =>
            cases hteardown : symbols.teardown.bind inst with
            | error e => exact .unbound hready hlink hstart (by simp) hteardown
            | ok teardown =>
              exact .ready hready hlink hstart hbounds rfl hconstruct hevaluate hteardown

/-! ## Running code -/

/-- The calls that a guest gets, each with the guest as it is then. -/
def Guest.calls (config : Config) (g : Guest E) : List (Guest E × EntryCall) :=
  (g, g.constructCall) ::
    match g.call config.maxCycles g.constructCall with
    | (.error _, _) => []
    | (.ok ctx, g) =>
      if ctx = 0 then []
      else
        (g, g.evaluateCall ctx) ::
          match g.call config.maxCycles (g.evaluateCall ctx) with
          | (.error _, _) => []
          | (.ok status, g) => if status ≠ 0 then [] else [(g, teardownCall ctx)]

/-- The ways the entry points of a guest can be run: the calls, each with the guest as it is then,
and what they come to. -/
inductive Guest.Course (config : Config) (g : Guest E) : List (Guest E × EntryCall) → Run E → Prop
  /-- There is no context since the call fails. -/
  | unconstructed {e : LoaderError} {g₁ : Guest E} :
      g.call config.maxCycles g.constructCall = (.error e, g₁) →
      Course config g [(g, g.constructCall)] (.failed .symbolsResolved e g₁.store)
  /-- There is no context since the call gives none. -/
  | null {g₁ : Guest E} :
      g.call config.maxCycles g.constructCall = (.ok 0, g₁) →
      Course config g [(g, g.constructCall)] (.failed .symbolsResolved .constructFailed g₁.store)
  /-- The evaluation fails. -/
  | interrupted {ctx : Int32} {e : LoaderError} {g₁ g₂ : Guest E} :
      g.call config.maxCycles g.constructCall = (.ok ctx, g₁) → ctx ≠ 0 →
      g₁.call config.maxCycles (g₁.evaluateCall ctx) = (.error e, g₂) →
      Course config g [(g, g.constructCall), (g₁, g₁.evaluateCall ctx)]
        (.failed .contextConstructed e g₂.store)
  /-- The evaluation gives a status other than zero. -/
  | declined {ctx status : Int32} {g₁ g₂ : Guest E} :
      g.call config.maxCycles g.constructCall = (.ok ctx, g₁) → ctx ≠ 0 →
      g₁.call config.maxCycles (g₁.evaluateCall ctx) = (.ok status, g₂) → status ≠ 0 →
      Course config g [(g, g.constructCall), (g₁, g₁.evaluateCall ctx)]
        ⟨.contextConstructed, some status, some (.evaluateFailed status), g₂.store⟩
  /-- The context cannot be given back. -/
  | kept {ctx : Int32} {e : LoaderError} {g₁ g₂ g₃ : Guest E} :
      g.call config.maxCycles g.constructCall = (.ok ctx, g₁) → ctx ≠ 0 →
      g₁.call config.maxCycles (g₁.evaluateCall ctx) = (.ok 0, g₂) →
      g₂.call config.maxCycles (teardownCall ctx) = (.error e, g₃) →
      Course config g [(g, g.constructCall), (g₁, g₁.evaluateCall ctx), (g₂, teardownCall ctx)]
        ⟨.evaluated, some 0, some e, g₃.store⟩
  /-- Everything is done. -/
  | finished {ctx gone : Int32} {g₁ g₂ g₃ : Guest E} :
      g.call config.maxCycles g.constructCall = (.ok ctx, g₁) → ctx ≠ 0 →
      g₁.call config.maxCycles (g₁.evaluateCall ctx) = (.ok 0, g₂) →
      g₂.call config.maxCycles (teardownCall ctx) = (.ok gone, g₃) →
      Course config g [(g, g.constructCall), (g₁, g₁.evaluateCall ctx), (g₂, teardownCall ctx)]
        ⟨.tornDown, some 0, none, g₃.store⟩

/-- The calls of a guest and what they come to go one of the ways. -/
theorem Guest.course (config : Config) (g : Guest E) :
    g.Course config (g.calls config) (g.run config) := by
  unfold Guest.calls Guest.run
  dsimp only
  rcases hfirst : g.call config.maxCycles g.constructCall with ⟨e | ctx, g₁⟩
  · exact .unconstructed hfirst
  dsimp only
  split
  · next hctx =>
    subst hctx
    exact .null hfirst
  next hctx =>
  rcases hsecond : g₁.call config.maxCycles (g₁.evaluateCall ctx) with ⟨e | status, g₂⟩
  · exact .interrupted hfirst hctx hsecond
  dsimp only
  split
  · next hstatus => exact .declined hfirst hctx hsecond hstatus
  next hstatus =>
  obtain rfl := Decidable.not_not.1 hstatus
  rcases hthird : g₂.call config.maxCycles (teardownCall ctx) with ⟨e | gone, g₃⟩
  · exact .kept hfirst hctx hsecond hthird
  · exact .finished hfirst hctx hsecond hthird

/-- A call changes nothing of a guest but its store. -/
theorem Guest.call_eq (budget : Nat) (g : Guest E) (c : EntryCall) :
    g.call budget c = (match (E.call budget (g.function c.entry) c.values g.store).1 with
        | .ok results => .ok (wordOf results)
        | .error e => .error (entryError e),
      { g with store := (E.call budget (g.function c.entry) c.values g.store).2 }) := by
  unfold Guest.call
  rcases E.call budget (g.function c.entry) c.values g.store with ⟨e | results, store⟩
  · rfl
  · rfl

/-- All calls are calls of the guest, with what the calls before left. -/
theorem Guest.Course.of_mem {g g' : Guest E} {c : EntryCall} {calls : List (Guest E × EntryCall)}
    {r : Run E} (h : g.Course config calls r) (hmem : (g', c) ∈ calls) :
    ∃ left, g' = { g with store := left } := by
  -- A call changes the store of a guest and nothing else.
  have hcall : ∀ {g g' : Guest E} {c : EntryCall} {result : Except LoaderError Int32},
      g.call config.maxCycles c = (result, g') → ∃ left, g' = { g with store := left } := by
    intro g g' c result hcall
    rw [Guest.call_eq] at hcall
    exact ⟨_, (congrArg Prod.snd hcall).symm⟩
  cases h with
  | unconstructed | null =>
    simp only [List.mem_singleton, Prod.mk.injEq] at hmem
    exact ⟨g.store, hmem.1⟩
  | interrupted hfirst | declined hfirst =>
    simp only [List.mem_cons, Prod.mk.injEq, List.not_mem_nil, or_false] at hmem
    obtain ⟨rfl, -⟩ | ⟨rfl, -⟩ := hmem
    · exact ⟨g'.store, rfl⟩
    · exact hcall hfirst
  | kept hfirst hctx hsecond | finished hfirst hctx hsecond =>
    simp only [List.mem_cons, Prod.mk.injEq, List.not_mem_nil, or_false] at hmem
    obtain ⟨rfl, -⟩ | ⟨rfl, -⟩ | ⟨rfl, -⟩ := hmem
    · exact ⟨g'.store, rfl⟩
    · exact hcall hfirst
    · obtain ⟨left, hleft⟩ := hcall hfirst
      obtain ⟨left', rfl⟩ := hcall hsecond
      exact ⟨left', by rw [hleft]⟩

/-- A guest is constructed first, and only then. -/
theorem Guest.Course.constructed {g g' : Guest E} {c : EntryCall}
    {calls : List (Guest E × EntryCall)} {r : Run E} (h : g.Course config calls r)
    (hmem : (g', c) ∈ calls) (hentry : c.entry = .construct) : g' = g ∧ c = g.constructCall := by
  have hevaluate : ∀ (g : Guest E) ctx, c ≠ g.evaluateCall ctx := by
    rintro g ctx rfl
    cases hentry
  have hteardown : ∀ ctx, c ≠ teardownCall ctx := by
    rintro ctx rfl
    cases hentry
  cases h with
  | unconstructed | null => simpa using hmem
  | interrupted | declined => simpa [hevaluate] using hmem
  | kept | finished => simpa [hevaluate, hteardown] using hmem

/-- The evaluation comes after `construct`, with what that left. -/
theorem Guest.Course.evaluated {g g' : Guest E} {c : EntryCall} {calls : List (Guest E × EntryCall)}
    {r : Run E} (h : g.Course config calls r) (hmem : (g', c) ∈ calls)
    (hentry : c.entry = .evaluate) :
    (g, g.constructCall) ∈ calls ∧ ∃ ctx, c = g'.evaluateCall ctx ∧
      g.call config.maxCycles g.constructCall = (.ok ctx, g') := by
  -- The other calls are calls of other entry points.
  have hconstruct : c ≠ g.constructCall := by
    rintro rfl
    cases hentry
  have hteardown : ∀ ctx, c ≠ teardownCall ctx := by
    rintro ctx rfl
    cases hentry
  cases h with
  | unconstructed | null => simp [hconstruct] at hmem
  | interrupted hfirst | declined hfirst =>
    simp only [List.mem_cons, Prod.mk.injEq, hconstruct, and_false, false_or, List.not_mem_nil,
      or_false] at hmem
    obtain ⟨rfl, rfl⟩ := hmem
    exact ⟨List.mem_cons_self, _, rfl, hfirst⟩
  | kept hfirst | finished hfirst =>
    simp only [List.mem_cons, Prod.mk.injEq, hconstruct, hteardown, and_false, false_or,
      List.not_mem_nil, or_false] at hmem
    obtain ⟨rfl, rfl⟩ := hmem
    exact ⟨List.mem_cons_self, _, rfl, hfirst⟩

/-! ## Jobs -/

/-- The guest that a job becomes, if all symbols are found and the code gets so far. -/
def Job.guest? (config : Config) (job : Job E.toCompiler) (store : E.Store) : Option (Guest E) :=
  match Symbols.find job.image with
  | .error _ => none
  | .ok symbols => (job.instantiate config symbols store).toOption

/-- The calls of entry points, each with the guest as it is then. -/
def Job.entryCalls (config : Config) (job : Job E.toCompiler) (store : E.Store) :
    List (Guest E × EntryCall) :=
  ((job.guest? config store).map (Guest.calls config)).getD []

variable {store : E.Store} {g : Guest E}

/-- A job becomes a guest if all symbols are found and it is instantiated. -/
theorem Job.guest?_eq_some_iff :
    job.guest? config store = some g ↔ ∃ symbols, Symbols.find job.image = .ok symbols ∧
      job.instantiate config symbols store = .ok g := by
  unfold guest?
  cases Symbols.find job.image with
  | error e =>
    constructor
    · exact nofun
    · rintro ⟨_, hsymbols, -⟩
      cases hsymbols
  | ok symbols =>
    dsimp only
    rw [toOption_eq_some_iff]
    constructor
    · exact fun h => ⟨symbols, rfl, h⟩
    · rintro ⟨_, hsymbols, h⟩
      cases hsymbols
      exact h

/-- A job that becomes a guest comes to what the guest comes to. -/
theorem Job.run_of_guest (h : job.guest? config store = some g) :
    job.run config store = g.run config := by
  obtain ⟨symbols, hsymbols, hmade⟩ := Job.guest?_eq_some_iff.1 h
  unfold run
  rw [hsymbols]
  dsimp only
  rw [hmade]

/-- Its calls are those of the guest. -/
theorem Job.entryCalls_of_guest (h : job.guest? config store = some g) :
    job.entryCalls config store = g.calls config := by
  rw [entryCalls, h, Option.map_some, Option.getD_some]

/-- The ways a job can go, and what it comes to. -/
inductive Job.Course (config : Config) (job : Job E.toCompiler) (store : E.Store) : Run E → Prop
  /-- A symbol is not found. -/
  | denied {e : LoaderError} : Symbols.find job.image = .error e →
      Course config job store (.failed .codeLoaded e store)
  /-- The code cannot be made ready. -/
  | unready {symbols : Symbols E.toCompiler} {e : LoaderError} {left : E.Store} :
      Symbols.find job.image = .ok symbols → job.guest? config store = none →
      job.Instantiation config symbols store (.error (e, left)) →
      Course config job store (.failed .symbolsResolved e left)
  /-- There is a guest, and it takes its course. -/
  | taken {guest : Guest E} {r : Run E} : job.guest? config store = some guest →
      guest.Course config (job.entryCalls config store) r → Course config job store r

/-- A job goes one of the ways. -/
theorem Job.course (config : Config) (job : Job E.toCompiler) (store : E.Store) :
    job.Course config store (job.run config store) := by
  cases hsymbols : Symbols.find job.image with
  | error e =>
    rw [run, hsymbols]
    exact .denied hsymbols
  | ok symbols =>
    have hway := job.instantiation config symbols store
    rcases hmade : job.instantiate config symbols store with ⟨e, left⟩ | guest
    · rw [hmade] at hway
      rw [run, hsymbols]
      dsimp only
      rw [hmade]
      refine .unready hsymbols ?_ hway
      rw [guest?, hsymbols]
      dsimp only
      rw [hmade]
      rfl
    · have hguest := Job.guest?_eq_some_iff.2 ⟨symbols, hsymbols, hmade⟩
      refine .taken hguest ?_
      rw [Job.entryCalls_of_guest hguest, Job.run_of_guest hguest]
      exact guest.course config

/-- Without a guest no entry point is called. -/
theorem Job.entryCalls_of_none (h : job.guest? config store = none) :
    job.entryCalls config store = [] := by
  rw [entryCalls, h]
  rfl

/-- Where entry points of a job are called, it became a guest, and the guest took its course. -/
theorem Job.guest_of_entryCalls (h : job.entryCalls config store ≠ []) :
    ∃ guest, job.guest? config store = some guest ∧
      guest.Course config (job.entryCalls config store) (job.run config store) := by
  cases hguest : job.guest? config store with
  | none => exact absurd (Job.entryCalls_of_none hguest) h
  | some guest =>
    refine ⟨guest, rfl, ?_⟩
    rw [Job.run_of_guest hguest, Job.entryCalls_of_guest hguest]
    exact guest.course config

/-- A guest was made of linked code, and knows where its arena and its inputs are. -/
structure Job.Readied (config : Config) (job : Job E.toCompiler) (store : E.Store) (guest : Guest E) :
    Prop where
  started : ∃ linked, E.link (job.environment config) job.image.module = .ok linked ∧
    E.start config.maxCycles linked (E.addMemory (job.memory config) store)
      = (.ok guest.inst, guest.store)
  bounds_eq : guest.bounds = (Int32.ofNat inputWindow, Int32.ofNat (inputWindow + config.arenaSize))
  input_eq : guest.input = .ofPayload job.payload
  /-- Its functions are those that the instance gives out under the names of the entry points. -/
  function_eq : ∀ e, E.function? guest.inst e.name = some (guest.function e) ∧
    E.typeOf (guest.function e) = e.callType

/-- What a job becomes is readied. -/
theorem Job.readied {symbols : Symbols E.toCompiler} (hsymbols : Symbols.find job.image = .ok symbols)
    (h : job.instantiate config symbols store = .ok g) : job.Readied config store g := by
  obtain ⟨hconstruct, hevaluate, hteardown⟩ := Symbols.find_eq_ok_iff.1 hsymbols
  have hway := job.instantiation config symbols store
  rw [h] at hway
  cases hway with
  | @ready linked g hready hlink hstart hbounds hinput hfirst hsecond hthird =>
    refine ⟨⟨linked, hlink, hstart⟩, hbounds, hinput, fun e => ?_⟩
    have hbound : ∀ {s : Symbol E.toCompiler}, Symbol.find job.image e = .ok s →
        s.bind g.inst = .ok (g.function e) →
        E.function? g.inst e.name = some (g.function e) ∧
          E.typeOf (g.function e) = e.callType := by
      intro s hfind hbind
      obtain ⟨rfl, -⟩ := Symbol.find_eq_ok_iff.1 hfind
      rw [EntryPoint.eq_callType_iff_fits]
      exact Symbol.bind_eq_ok_iff.1 hbind
    cases e with
    | construct => exact hbound hconstruct hfirst
    | evaluate => exact hbound hevaluate hsecond
    | teardown => exact hbound hteardown hthird

/-! ## Invocations -/

section Prepared

variable {C : Compiler} {job : Job C} {payload : Payload} {label : String} {t : List Exchange}
  {prepared : Except LoaderError (Job C)}

/-- A job that was prepared has an authentic image, and its payload is what the script asks for. -/
theorem PrepareDialogue.authentic (h : PrepareDialogue config payload label t prepared)
    (hjob : prepared = .ok job) :
    ∃ n b u r, t = .script config.maxScriptSize 0 (.ok n) b :: u ∧
      request config payload label (b.take n) = .ok (r, job.payload) ∧
      job.image.Authentic r config.maxCodeSize u ∧ job.label = label := by
  cases h with
  | refused | tooLarge | unreadable => cases hjob
  | @resolved n b input r u result hfits hrequest hresolve =>
    cases result with
    | error e => cases hjob
    | ok image =>
      cases hjob
      exact ⟨n, b, u, r, rfl, hrequest, hresolve.authentic rfl, rfl⟩

/-- A job is what a script asks for that the host handed out. -/
structure Job.Requested (config : Config) (payload : Payload) (label : String) (t : List Exchange)
    (script : Record.Script) (job : Job C) : Prop where
  /-- The host handed out the script, and then the code that its arguments name. -/
  handed : ∃ n b u r, t = .script config.maxScriptSize 0 (.ok n) b :: u ∧
    Record.Script.verify (b.take n) = .ok script ∧
    CodeReference.decode script.args.bytes = .ok r ∧ job.image.Authentic r config.maxCodeSize u
  payload_eq : job.payload = payload.bytes script.args.bytes
  label_eq : job.label = label
  checked : checkInput job.payload label = .ok ()

/-- A job that was prepared is what the script asks for. -/
theorem PrepareDialogue.requested (h : PrepareDialogue config payload label t prepared)
    (hjob : prepared = .ok job) : ∃ script, job.Requested config payload label t script := by
  obtain ⟨n, b, u, r, rfl, hrequest, hauthentic, hlabel⟩ := h.authentic hjob
  obtain ⟨envelope, hparse, hdecode, hpayload, hcheck⟩ := request_eq_ok_iff.1 hrequest
  have hverify : Record.Script.verify (b.take n) = .ok envelope.script := by
    unfold Envelope.parse at hparse
    split at hparse
    · cases hparse
    · split at hparse
      · next hverify =>
        cases hparse
        exact hverify
      · cases hparse
  exact ⟨envelope.script, ⟨n, b, u, r, rfl, hverify, hdecode, hauthentic⟩, hpayload, hlabel, hcheck⟩

end Prepared

namespace Loader

variable {σ : Type} (loader : Loader E) (host : Host σ) (payload : Payload) (label : String) (s : σ)

/-- The job that an invocation prepares, if it gets so far. -/
def job? : Option (Job E.toCompiler) :=
  (prepare E.toCompiler host loader.config payload label s).1.toOption

/-- The store that an invocation starts with. -/
def newStore : E.Store := E.newStore loader.config.captureDebug

/-- The calls of entry points in an invocation, each with the guest as it is then. -/
def entryCalls : List (Guest E × EntryCall) :=
  ((loader.job? host payload label s).map (Job.entryCalls loader.config · loader.newStore)).getD []

variable {loader host payload label s}

/-- There is a job if one was prepared. -/
theorem job?_eq_some_iff :
    loader.job? host payload label s = some job ↔
      (prepare E.toCompiler host loader.config payload label s).1 = .ok job :=
  toOption_eq_some_iff

/-- An invocation that prepares a job has the calls of the job, and comes to what the job comes to.
-/
theorem of_job? (h : loader.job? host payload label s = some job) :
    loader.entryCalls host payload label s = job.entryCalls loader.config loader.newStore ∧
      (loader.drive host payload label s).1 = job.run loader.config loader.newStore := by
  refine ⟨by rw [entryCalls, h]; rfl, ?_⟩
  rw [drive_eq, job?_eq_some_iff.1 h]
  rfl

/-- The first call of a guest is one of the invocation. -/
theorem mem_entryCalls_of_guest (hjob : loader.job? host payload label s = some job)
    (hguest : job.guest? loader.config loader.newStore = some g) :
    (g, g.constructCall) ∈ loader.entryCalls host payload label s := by
  rw [(of_job? hjob).1, Job.entryCalls_of_guest hguest]
  exact List.mem_cons_self

/-- The job of an invocation is what its script asks for. -/
theorem requested_of_job? (h : loader.job? host payload label s = some job) :
    ∃ script, job.Requested loader.config payload label (loader.dialogue host payload label s)
      script :=
  (loader.invoke_dialogue host payload label s).1.requested (job?_eq_some_iff.1 h)

/-- An invocation that prepares no job calls no code and ends with the failure. -/
theorem of_no_job (h : loader.job? host payload label s = none) :
    loader.entryCalls host payload label s = [] ∧
      ∃ e, (loader.drive host payload label s).1 = .failed .init e loader.newStore := by
  refine ⟨by rw [entryCalls, h]; rfl, ?_⟩
  rw [drive_eq]
  unfold job? at h
  cases hprepared : (prepare E.toCompiler host loader.config payload label s).1 with
  | error e => exact ⟨e, rfl⟩
  | ok job =>
    rw [hprepared] at h
    cases h

/-- The report of an invocation is that of what it comes to. -/
theorem invoke_eq_report :
    (loader.invoke host payload label s).1
      = (loader.drive host payload label s).1.report loader.config := rfl

end Loader

/-! ## Pages of code -/

/-- A host that always answers the same: it has one script, and each dependency has this code under
this hash. -/
def Host.constant (script code : Bytes) (hash : Hash) : Host Unit where
  loadScript buffer offset s := (partialLoad script buffer offset, s)
  loadData buffer offset _ s := (partialLoad code buffer offset, s)
  loadHash _ _ s := (.ok (some hash), s)

/-- The reference to code under a type script with the hash zero. -/
def zeroReference : CodeReference := ⟨(0, 0), .zero, .typeScript⟩

/-- The host that has a page with this code, and the script that asks for it. -/
def pageHost (code : Bytes) : Host Unit :=
  .constant (Record.ScriptFields.layout ⟨.zero, 0, zeroReference.encode []⟩) (Padding.pad code) .zero

/-- The section that exports three functions in a row as the entry points. -/
def entryExports (first : UInt8) : Bytes :=
  [0x07, 0x23, 0x03,
    0x09, 0x63, 0x6f, 0x6e, 0x73, 0x74, 0x72, 0x75, 0x63, 0x74, 0x00, first,
    0x08, 0x65, 0x76, 0x61, 0x6c, 0x75, 0x61, 0x74, 0x65, 0x00, first + 1,
    0x08, 0x74, 0x65, 0x61, 0x72, 0x64, 0x6f, 0x77, 0x6e, 0x00, first + 2]

/-- Code whose entry points do the least they have to. -/
def leastCode : Bytes :=
  [0x00, 0x61, 0x73, 0x6d, 0x01, 0x00, 0x00, 0x00,
    -- The three types.
    0x01, 0x13, 0x03, 0x60, 0x02, 0x7f, 0x7f, 0x01, 0x7f, 0x60, 0x04, 0x7f, 0x7f, 0x7f, 0x7f, 0x01,
    0x7f, 0x60, 0x01, 0x7f, 0x00, 0x03, 0x04, 0x03, 0x00, 0x01, 0x02] ++ entryExports 0 ++
    -- The bodies: one, zero and nothing.
    [0x0a, 0x0e, 0x03, 0x04, 0x00, 0x41, 0x01, 0x0b, 0x04, 0x00, 0x41, 0x00, 0x0b, 0x02, 0x00, 0x0b]

/-- A loader for one page of code, with the interpreter. -/
def pageLoader : Loader Wasm.interpreter :=
  ⟨{ maxScriptSize := 128, maxCodeSize := pageSize, arenaSize := 1, maxCycles := 100 }, rfl⟩

end HashLoader
