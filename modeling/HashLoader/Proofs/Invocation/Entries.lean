import HashLoader.Proofs.Invocation.Activations

/-!
# The protocol of entry points

Loaded code is called in one order: it constructs a context in its arena, evaluates the input with
the context, and gives the context back. `EntryProtocol` says that calls keep to this order, with
which arguments, and on what each of them depends. The calls are those that the engine is asked for,
and what a call gives is what the engine answers.

`Loader.invoke_followsEntryProtocol` shows it of every invocation, on every engine. All that an
invocation asks for is in its log: a start of the code, and then calls of the functions that the
started instance gives out under the names of the entry points. Nothing at all is asked for unless
script, input and image have passed all tests.

The calls have one of three shapes, by the last of them, and each has a lemma that says what this
last call may give. `Guest.Course.followsEntryProtocol` finds the shape of each course.
-/

namespace HashLoader

variable {E : Engine} {budget : Nat}

/-! ## The protocol -/

/-- The call that gives code an arena of some size. -/
def EntryCall.construct (arenaSize : Nat) : EntryCall :=
  ⟨.construct, [Int32.ofNat inputWindow, Int32.ofNat (inputWindow + arenaSize)]⟩

/-- The call that gives code an input, with the context that it made. -/
def EntryCall.evaluate (input : Bytes) (ctx : Int32) : EntryCall :=
  ⟨.evaluate, [ctx, Int32.ofNat payloadOffset, Int32.ofNat input.length, Int32.ofNat labelOffset]⟩

/-- The call that gives code the context back. -/
def EntryCall.teardown (ctx : Int32) : EntryCall := ⟨.teardown, [ctx]⟩

/-- The calls of code that makes a context and succeeds. -/
def entrySequence (arenaSize : Nat) (input : Bytes) (ctx : Int32) : List EntryCall :=
  [.construct arenaSize, .evaluate input ctx, .teardown ctx]

/-- A call of an entry point: the function that the engine is asked to call, and in which store. -/
structure EntryExchange (E : Engine) where
  call : EntryCall
  function : E.Func
  store : E.Store

/-- What the engine is asked for. -/
def EntryExchange.request (budget : Nat) (x : EntryExchange E) : Request E :=
  .call budget x.function x.call.values x.store

/-- What the engine answers, as a word. -/
def EntryExchange.answer (budget : Nat) (x : EntryExchange E) : Except EngineError Int32 :=
  (E.call budget x.function x.call.values x.store).1.map wordOf

/-- The exchange is with the instance of a linked module that was started in a store: the function
is the one that the instance gives out under the name of the entry point, and it has the type of the
call. -/
def EntryExchange.With (budget : Nat) (linked : E.Linked) (store : E.Store) (x : EntryExchange E) :
    Prop :=
  ∃ inst, (E.start budget linked store).1 = .ok inst ∧
    E.function? inst x.call.entry.name = some x.function ∧ E.typeOf x.function = x.call.entry.callType

/-- An entry point is called. -/
def Called (entry : EntryPoint) (t : List (EntryExchange E)) : Prop := ∃ x ∈ t, x.call.entry = entry

/-- A call of an entry point gives a word. -/
def Gives (budget : Nat) (entry : EntryPoint) (word : Int32) (t : List (EntryExchange E)) : Prop :=
  ∃ x ∈ t, x.call.entry = entry ∧ x.answer budget = .ok word

/-- Calls of entry points keep to the protocol. -/
structure EntryProtocol (budget arenaSize : Nat) (input : Bytes) (t : List (EntryExchange E)) :
    Prop where
  /-- They are in order, and the context is the word that `construct` gave. -/
  ordered : ∃ ctx, t.map EntryExchange.call <+: entrySequence arenaSize input ctx ∧
    ∀ word, Gives budget .construct word t → word = ctx
  /-- None is made twice. -/
  once : (t.map fun x => x.call.entry).Nodup
  /-- The input is evaluated if there is a context. -/
  evaluated_iff : Called .evaluate t ↔ ∃ ctx, Gives budget .construct ctx t ∧ ctx ≠ 0
  /-- The context is given back if the status is zero. -/
  tornDown_iff : Called .teardown t ↔ Gives budget .evaluate 0 t

/-! ## The shapes of the calls -/

section Shapes

variable {entry : EntryPoint} {word : Int32} {x y z : EntryExchange E} {t : List (EntryExchange E)}

@[simp]
theorem not_called_nil : ¬ Called (E := E) entry [] := nofun

@[simp]
theorem called_cons : Called entry (x :: t) ↔ x.call.entry = entry ∨ Called entry t := by
  simp [Called]

@[simp]
theorem not_gives_nil : ¬ Gives (E := E) budget entry word [] := nofun

@[simp]
theorem gives_cons :
    Gives budget entry word (x :: t) ↔
      (x.call.entry = entry ∧ x.answer budget = .ok word) ∨ Gives budget entry word t := by
  simp [Gives]

@[simp]
theorem EntryCall.entry_construct (arenaSize : Nat) :
    (EntryCall.construct arenaSize).entry = .construct := rfl

@[simp]
theorem EntryCall.entry_evaluate (input : Bytes) (ctx : Int32) :
    (EntryCall.evaluate input ctx).entry = .evaluate := rfl

@[simp]
theorem EntryCall.entry_teardown (ctx : Int32) : (EntryCall.teardown ctx).entry = .teardown := rfl

variable {arenaSize : Nat} {input : Bytes} {ctx : Int32}

/-- No call has to be made. -/
theorem EntryProtocol.nil : EntryProtocol (E := E) budget arenaSize input [] where
  ordered := ⟨0, List.nil_prefix, fun _ h => absurd h not_gives_nil⟩
  once := List.nodup_nil
  evaluated_iff := by simp
  tornDown_iff := by simp

/-- The first call is the last one if it gives no context. -/
theorem EntryProtocol.one (hx : x.call = .construct arenaSize)
    (hr : ∀ word, x.answer budget = .ok word → word = 0) :
    EntryProtocol budget arenaSize input [x] where
  ordered :=
    ⟨0, ⟨_, by rw [List.map_singleton, hx]; rfl⟩, fun word h => hr word (by simpa [hx] using h)⟩
  once := by simp
  evaluated_iff := by simpa [hx] using hr
  tornDown_iff := by simp [hx]

/-- The second call is the last one if it does not give zero. -/
theorem EntryProtocol.two (hx : x.call = .construct arenaSize) (hfirst : x.answer budget = .ok ctx)
    (hctx : ctx ≠ 0) (hy : y.call = .evaluate input ctx) (hr : y.answer budget ≠ .ok 0) :
    EntryProtocol budget arenaSize input [x, y] where
  ordered := ⟨ctx, ⟨_, by rw [List.map_cons, List.map_singleton, hx, hy]; rfl⟩,
    fun word h => by simpa [hx, hy, hfirst, eq_comm] using h⟩
  once := by simp [hx, hy]
  evaluated_iff := by simpa [hx, hy, hfirst] using hctx
  tornDown_iff := by simpa [hx, hy] using hr

/-- There is no call after the third. -/
theorem EntryProtocol.three (hx : x.call = .construct arenaSize) (hfirst : x.answer budget = .ok ctx)
    (hctx : ctx ≠ 0) (hy : y.call = .evaluate input ctx) (hsecond : y.answer budget = .ok 0)
    (hz : z.call = .teardown ctx) : EntryProtocol budget arenaSize input [x, y, z] where
  ordered := ⟨ctx, ⟨[], by rw [List.map_cons, List.map_cons, List.map_singleton, hx, hy, hz]; rfl⟩,
    fun word h => by simpa [hx, hy, hz, hfirst, eq_comm] using h⟩
  once := by simp [hx, hy, hz]
  evaluated_iff := by simpa [hx, hy, hz, hfirst] using hctx
  tornDown_iff := by simp [hx, hy, hz, hsecond]

end Shapes

/-! ## The calls of a guest -/

variable {config : Config} {job : Job E.toCompiler} {store : E.Store} {g g' : Guest E} {c : EntryCall}

/-- A guest is called with its arena. -/
theorem Job.Readied.constructCall_eq (h : job.Readied config store g) :
    g.constructCall = .construct config.arenaSize := by
  rw [Guest.constructCall, h.bounds_eq, EntryCall.construct]

/-- A guest that was called once is called with the input of the job. -/
theorem Job.Readied.evaluateCall_eq (h : job.Readied config store g)
    {result : Except LoaderError Int32} (hcall : g.call config.maxCycles c = (result, g'))
    (ctx : Int32) : g'.evaluateCall ctx = .evaluate job.payload ctx := by
  rw [Guest.call_eq] at hcall
  obtain ⟨-, rfl⟩ := Prod.mk.inj hcall
  rw [Guest.evaluateCall, h.input_eq, EntryCall.evaluate]
  rfl

/-- A call that a guest gets, as the engine is asked for it. -/
def Guest.exchange : Guest E × EntryCall → EntryExchange E
  | (g, c) => ⟨c, g.function c.entry, g.store⟩

/-- The engine answers what the guest gives. -/
theorem Guest.answer_exchange {result : Except LoaderError Int32}
    (hcall : g.call budget c = (result, g')) (word : Int32) :
    (Guest.exchange (g, c)).answer budget = .ok word ↔ result = .ok word := by
  rw [Guest.call_eq] at hcall
  obtain ⟨rfl, -⟩ := Prod.mk.inj hcall
  unfold Guest.exchange EntryExchange.answer
  cases (E.call budget (g.function c.entry) c.values g.store).1 with
  | error e => exact ⟨nofun, nofun⟩
  | ok results => exact ⟨fun h => congrArg _ (Except.ok.inj h), fun h => congrArg _ (Except.ok.inj h)⟩

/-- Whichever course a guest takes, its calls keep to the protocol. -/
theorem Guest.Course.followsEntryProtocol {calls : List (Guest E × EntryCall)} {r : Run E}
    (h : g.Course config calls r) (hready : job.Readied config store g) :
    EntryProtocol config.maxCycles config.arenaSize job.payload (calls.map Guest.exchange) := by
  have hconstruct : (Guest.exchange (g, g.constructCall)).call = .construct config.arenaSize :=
    hready.constructCall_eq
  have hevaluate : ∀ {g₁ ctx}, g.call config.maxCycles g.constructCall = (.ok ctx, g₁) →
      (Guest.exchange (g₁, g₁.evaluateCall ctx)).call = .evaluate job.payload ctx :=
    fun hfirst => hready.evaluateCall_eq hfirst _
  cases h with
  | unconstructed hfirst =>
    exact .one hconstruct fun word hword => nomatch (Guest.answer_exchange hfirst word).1 hword
  | null hfirst =>
    exact .one hconstruct fun word hword =>
      (Except.ok.inj ((Guest.answer_exchange hfirst word).1 hword)).symm
  | interrupted hfirst hctx hsecond =>
    exact .two hconstruct ((Guest.answer_exchange hfirst _).2 rfl) hctx (hevaluate hfirst)
      fun hzero => nomatch (Guest.answer_exchange hsecond 0).1 hzero
  | declined hfirst hctx hsecond hstatus =>
    exact .two hconstruct ((Guest.answer_exchange hfirst _).2 rfl) hctx (hevaluate hfirst)
      fun hzero => hstatus (Except.ok.inj ((Guest.answer_exchange hsecond 0).1 hzero))
  | kept hfirst hctx hsecond | finished hfirst hctx hsecond =>
    exact .three hconstruct ((Guest.answer_exchange hfirst _).2 rfl) hctx (hevaluate hfirst)
      ((Guest.answer_exchange hsecond 0).2 rfl) rfl

/-! ## The calls of a job -/

/-- The calls of a job keep to the protocol. -/
theorem Job.followsEntryProtocol (config : Config) (job : Job E.toCompiler) (store : E.Store) :
    EntryProtocol config.maxCycles config.arenaSize job.payload
      ((job.entryCalls config store).map Guest.exchange) := by
  by_cases hcalls : job.entryCalls config store = []
  · rw [hcalls]
    exact .nil
  · obtain ⟨guest, hguest, hcourse⟩ := Job.guest_of_entryCalls hcalls
    obtain ⟨symbols, hsymbols, hmade⟩ := Job.guest?_eq_some_iff.1 hguest
    exact hcourse.followsEntryProtocol (Job.readied hsymbols hmade)

/-- They are calls of the functions that its instance gives out. -/
theorem Job.with_of_mem {linked : E.Linked}
    (hlink : E.link (job.environment config) job.image.module = .ok linked)
    (h : (g, c) ∈ job.entryCalls config store) :
    (Guest.exchange (g, c)).With config.maxCycles linked (E.addMemory (job.memory config) store) := by
  obtain ⟨guest, left, hready, rfl⟩ := Job.readied_of_mem h
  obtain ⟨linked', hlink', hstart⟩ := hready.started
  cases hlink.symm.trans hlink'
  exact ⟨guest.inst, congrArg Prod.fst hstart, hready.function_eq c.entry⟩

/-- Where something is asked of the engine for a job, this is first to start its code. So the code
was linked, and it exports every entry point. -/
theorem Job.started_of_requests (h : job.requests config store ≠ []) :
    (∀ e : EntryPoint, E.export? job.image.module e.name = some (.function e.type)) ∧
      ∃ linked, E.link (job.environment config) job.image.module = .ok linked ∧
        job.requests config store
          = .start config.maxCycles linked (E.addMemory (job.memory config) store)
            :: (job.entryCalls config store).map (Guest.request config.maxCycles) := by
  cases hrequest : job.startRequest? config store with
  | none =>
    -- Code that is not started is not called.
    cases hcalls : job.entryCalls config store with
    | nil =>
      rw [Job.requests, hrequest, hcalls] at h
      exact absurd rfl h
    | cons x rest =>
      obtain ⟨guest, hguest, -⟩ := Job.guest_of_entryCalls (by rw [hcalls]; exact List.cons_ne_nil _ _)
      obtain ⟨linked, -, -, hsome⟩ := Job.startRequest?_of_guest hguest
      cases hrequest.symm.trans hsome
  | some x =>
    obtain ⟨symbols, linked, hsymbols, hlink, rfl⟩ := Job.startRequest?_eq_some_iff.1 hrequest
    refine ⟨fun e => ?_, linked, hlink, by rw [Job.requests, hrequest]; rfl⟩
    obtain ⟨s, hs⟩ := Symbols.exists_find hsymbols e
    exact (Symbol.find_eq_ok_iff.1 hs).2

/-! ## The calls of an invocation -/

namespace Loader

variable {σ : Type}

/-- Whatever the engine, the host and the code do, an invocation calls entry points in the order of
the protocol. All that it asks of the engine is in its log, since with the recorded engine it gives
the same report. Either it asks for nothing, or it first starts the code that it linked, and then
calls functions that this gives out under the names of the entry points. Before, the script was
read, payload and label were found to fit, and all three entry points were found in the image. -/
theorem invoke_followsEntryProtocol (loader : Loader E) (host : Host σ) (payload : Payload)
    (label : String) (s : σ) :
    loader.recorded.invoke host payload label s = loader.invoke host payload label s ∧
      (loader.log host payload label s = [] ∨
        ∃ script job linked t, loader.job? host payload label s = some job ∧
          job.Requested loader.config payload label (loader.dialogue host payload label s) script ∧
          (payload.bytes script.args.bytes).length ≤ maxPayload ∧
          (Utf8.encode label).length ≤ maxLabel ∧ (0 : UInt8) ∉ Utf8.encode label ∧
          (∀ e : EntryPoint, E.export? job.image.module e.name = some (.function e.type)) ∧
          E.link (job.environment loader.config) job.image.module = .ok linked ∧
          loader.log host payload label s
            = .start loader.config.maxCycles linked
                (E.addMemory (job.memory loader.config) loader.newStore)
              :: t.map (EntryExchange.request loader.config.maxCycles) ∧
          (∀ x ∈ t, x.With loader.config.maxCycles linked
            (E.addMemory (job.memory loader.config) loader.newStore)) ∧
          EntryProtocol loader.config.maxCycles loader.config.arenaSize
            (payload.bytes script.args.bytes) t) := by
  refine ⟨invoke_recorded, ?_⟩
  cases hjob : loader.job? host payload label s with
  | none => exact .inl (log_of_no_job hjob)
  | some job =>
    by_cases hlog : loader.log host payload label s = []
    · exact .inl hlog
    obtain ⟨script, hrequested⟩ := requested_of_job? hjob
    obtain ⟨hpayload, hlabel, htext⟩ := checkInput_eq_ok_iff.1 hrequested.checked
    have hprotocol := job.followsEntryProtocol loader.config loader.newStore
    rw [hrequested.payload_eq] at hpayload hprotocol
    rw [log_of_job? hjob] at hlog ⊢
    -- Something is in the log, so the start is, and what follows it are the calls.
    obtain ⟨hexports, linked, hlink, hrequests⟩ := Job.started_of_requests hlog
    refine .inr ⟨script, job, linked, _, rfl, hrequested, hpayload, hlabel, htext, hexports, hlink, ?_,
      fun x hx => ?_, hprotocol⟩
    · rw [hrequests, List.map_map]
      rfl
    · obtain ⟨⟨g, c⟩, hmem, rfl⟩ := List.mem_map.1 hx
      exact Job.with_of_mem hlink hmem

end Loader

/-! ## Code that is called three times -/

/-- The word that a call gives within some steps, and the guest that it leaves. -/
def Guest.callWithin? (budget n : Nat) (g : Guest Wasm.interpreter) (c : EntryCall) :
    Option (Int32 × Guest Wasm.interpreter) :=
  match (g.activation c).trace budget n with
  | some (_, .finished results, store) => some (wordOf results, { g with store })
  | _ => none

/-- This is what the call gives. -/
theorem Guest.call_of_within {n : Nat} {g g' : Guest Wasm.interpreter} {word : Int32}
    (h : g.callWithin? budget n c = some (word, g')) : g.call budget c = (.ok word, g') := by
  unfold callWithin? at h
  split at h
  · next visited results store htrace =>
    obtain ⟨rfl, rfl⟩ := Prod.mk.inj (Option.some.inj h)
    have hresult : (g.activation c).result budget = (.finished results, store) :=
      (Wasm.Activation.trace_eq_some htrace).1
    have hcall : Wasm.interpreter.call budget (g.function c.entry) c.values g.store
        = (.ok results, store) := by
      show Wasm.Func.call budget (g.function c.entry) c.values g.store = _
      rw [Wasm.Func.call_eq]
      unfold activation at hresult
      rw [hresult]
    rw [Guest.call_eq, hcall]
  · cases h

/-- Tells whether a guest gives a context and then succeeds, each within some steps. -/
def Guest.succeedsWithin (budget n : Nat) (g : Guest Wasm.interpreter) : Bool :=
  (g.callWithin? budget n g.constructCall).any fun (ctx, g₁) =>
    ctx ≠ 0 && (g₁.callWithin? budget n (g₁.evaluateCall ctx)).any fun (status, _) => status = 0

/-- Then it is called three times. -/
theorem Guest.length_calls_of_succeeds {n : Nat} {g : Guest Wasm.interpreter}
    (h : g.succeedsWithin config.maxCycles n = true) : (g.calls config).length = 3 := by
  obtain ⟨⟨ctx, g₁⟩, hfirst, h⟩ := (Option.any_eq_true _ _).1 h
  obtain ⟨hctx, h⟩ := Bool.and_eq_true_iff.1 h
  obtain ⟨⟨status, g₂⟩, hsecond, hstatus⟩ := (Option.any_eq_true _ _).1 h
  obtain rfl : status = 0 := of_decide_eq_true hstatus
  unfold calls
  rw [Guest.call_of_within hfirst]
  dsimp only
  rw [if_neg (of_decide_eq_true hctx), Guest.call_of_within hsecond]
  rfl

/-- Code that does the least it has to is called three times. Each call is one of the function that
its instance gives out under the name of the entry point. -/
theorem invoke_followsEntryProtocol_least :
    ∃ (job : Job Wasm.interpreter.toCompiler) (linked : Wasm.interpreter.Linked)
      (t : List (EntryExchange Wasm.interpreter)) (ctx : Int32),
      pageLoader.job? (pageHost leastCode) .fromArgs "" () = some job ∧
      pageLoader.log (pageHost leastCode) .fromArgs "" ()
        = .start 100 linked (Wasm.interpreter.addMemory (job.memory pageLoader.config)
            pageLoader.newStore) :: t.map (EntryExchange.request 100) ∧
      t.map EntryExchange.call = [.construct 1, .evaluate [] ctx, .teardown ctx] ∧
      ∀ x ∈ t, x.With 100 linked (Wasm.interpreter.addMemory (job.memory pageLoader.config)
        pageLoader.newStore) := by
  have htest : (pageLoader.job? (pageHost leastCode) .fromArgs "" ()).any (fun job =>
      job.payload = [] && (job.guest? pageLoader.config pageLoader.newStore).any
        (Guest.succeedsWithin pageLoader.config.maxCycles 10)) = true := by
    decide +kernel
  obtain ⟨job, hjob, htest⟩ := (Option.any_eq_true _ _).1 htest
  obtain ⟨hempty, htest⟩ := Bool.and_eq_true_iff.1 htest
  obtain ⟨guest, hguest, hsucceeds⟩ := (Option.any_eq_true _ _).1 htest
  have hlength : (job.entryCalls pageLoader.config pageLoader.newStore).length = 3 := by
    rw [Job.entryCalls_of_guest hguest]
    exact Guest.length_calls_of_succeeds hsucceeds
  obtain ⟨-, hnothing | ⟨script, job', linked, t, hjob', hrequested, -, -, -, -, -, hlog, hwith,
    hprotocol⟩⟩ := Loader.invoke_followsEntryProtocol pageLoader (pageHost leastCode) .fromArgs "" ()
  · have hmem := Loader.mem_log_of_call (Loader.mem_entryCalls_of_guest hjob hguest)
    rw [hnothing] at hmem
    cases hmem
  obtain rfl := Option.some.inj (hjob.symm.trans hjob')
  obtain ⟨ctx, hprefix, -⟩ := hprotocol.ordered
  rw [← hrequested.payload_eq, of_decide_eq_true hempty] at hprefix
  refine ⟨job, linked, t, ctx, hjob, hlog, hprefix.eq_of_length ?_, hwith⟩
  -- The log begins with the start, so the calls are all of the rest.
  have hrequests := Loader.log_of_job? hjob
  have hsome : job.requests pageLoader.config pageLoader.newStore ≠ [] := by
    rw [← hrequests, hlog]
    exact List.cons_ne_nil _ _
  obtain ⟨-, linked', -, hstarted⟩ := Job.started_of_requests hsome
  have hcount := congrArg List.length (hlog.symm.trans (hrequests.trans hstarted))
  simp only [List.length_cons, List.length_map, hlength] at hcount
  simp only [List.length_map, entrySequence, List.length_cons, List.length_nil]
  omega

end HashLoader
