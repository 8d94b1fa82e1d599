import HashLoader.Proofs.Invocation.Entries
import HashLoader.Proofs.Wasm.Segments
import HashLoader.Proofs.Wasm.SharedMemory
import HashLoader.Proofs.Wasm.Trace

/-!
# What the evaluation finds in memory

Label and payload are put into the memory before the code is instantiated, so three things come
between them and the evaluation: the data segments of the code, its start function, and `construct`.
Code that stores nothing into the input window leaves it as it is. Data segments are not code, and
nothing keeps them out of the window: `Job.Staged` says that its bytes are those of the last segment
that covers them, and only where there is none the ones that were put there. The evaluation finds
the window so (`staged_of_evaluate`), since each of the three steps keeps what it does not write.

So `invoke_evaluates_inputs` has payload and label at their places for code whose segments keep off
them, and `segment_covers_payload` is code whose segment does not.
-/

namespace HashLoader

/-- The input window lies inside the memory. -/
theorem Job.inputWindow_le_memory {E : Engine} (config : Config) (job : Job E.toCompiler) :
    inputWindow ≤ (job.memory config).size := by
  have hholds := le_unitsFor_mul (inputWindow + config.arenaSize) Wasm.memoryPage_pos
  rw [Job.memory, Wasm.Memory.staged, Wasm.Memory.size_put, Wasm.Memory.size_put]
  exact Nat.le_trans (Nat.le_add_right _ _) hholds

/-! ## From the staging to the evaluation -/

/-- No instruction that a call executes stores into the input window, from the label on. -/
def Wasm.Activation.LeavesInputs (a : Wasm.Activation) (budget : Nat) : Prop :=
  ∀ address, labelOffset ≤ address → address < inputWindow → ¬ a.StoresAt budget address

section Evaluation

variable {config : Config} {job : Job Wasm.interpreter.toCompiler} {store : Wasm.interpreter.Store}
  {g : Guest Wasm.interpreter}

/-- A memory has in its input window, from the label on, what starting the code puts there: the
bytes of the data segments, and where there are none those of the memory of the job. -/
structure Job.Staged (config : Config) (job : Job Wasm.interpreter.toCompiler) (m : Wasm.Memory) :
    Prop where
  size : inputWindow ≤ m.size
  byte : ∀ address, labelOffset ≤ address → address < inputWindow →
    m.byte address = (Wasm.Module.segmentByte? job.image.module address).getD
      ((job.memory config).byte address)

/-- Writing the segments leaves the window so. -/
theorem Job.staged_of_initialized {filled : Wasm.Store}
    (h : Wasm.Module.initializedStore job.image.module (store.withShared (job.memory config))
      = .ok filled) : job.Staged config filled.shared := by
  obtain ⟨hpages, hbyte⟩ := Wasm.Module.shared_initializedStore h
  refine ⟨?_, fun address _ _ => hbyte address⟩
  rw [Wasm.Memory.size, hpages]
  exact Job.inputWindow_le_memory config job

/-- A call that leaves the inputs leaves the window so. -/
theorem Job.Staged.result {a : Wasm.Activation} (h : job.Staged config a.store.shared)
    (hleaves : a.LeavesInputs config.maxCycles) :
    job.Staged config (a.result config.maxCycles).2.shared := by
  have hkeeps : ∀ address, labelOffset ≤ address → address < inputWindow →
      a.store.shared.Keeps address (a.result config.maxCycles).2.shared :=
    fun address hlow hhigh => Wasm.Activation.result_keeps (hleaves address hlow hhigh)
  refine ⟨Nat.le_trans h.size (Nat.mul_le_mul_right _ ?_), fun address hlow hhigh => ?_⟩
  · exact (hkeeps labelOffset (Nat.le_refl _) (by decide)).pages
  · exact (hkeeps address hlow hhigh).byte.trans (h.byte address hlow hhigh)

/-- The call of the start function of a job, if there is one and the code gets so far. -/
def Job.startCall? (config : Config) (job : Job Wasm.interpreter.toCompiler)
    (store : Wasm.interpreter.Store) : Option Wasm.Activation :=
  (job.startRequest? config store).bind Request.activation?

/-- A guest finds the window so, if the start function leaves the inputs. -/
theorem Job.staged_of_guest (hguest : job.guest? config store = some g)
    (hstart : ∀ a, job.startCall? config store = some a → a.LeavesInputs config.maxCycles) :
    job.Staged config g.store.shared := by
  obtain ⟨linked, hlink, hrun, hrequest⟩ := Job.startRequest?_of_guest hguest
  obtain ⟨rfl, -⟩ := Wasm.Module.link_eq_ok_iff.1 hlink
  rw [Job.startCall?, hrequest, Option.bind_some] at hstart
  obtain ⟨inst, hinst⟩ := Wasm.Module.exists_instantiate_of_run hrun
  obtain ⟨filled, hfilled, ⟨-, hstore⟩ | ⟨a, ha, hfrom, hstore⟩⟩ :=
    Wasm.Module.store_of_instantiate hinst
  · rw [hstore]
    exact Job.staged_of_initialized hfilled
  · have hstaged := Job.staged_of_initialized hfilled
    rw [← hfrom] at hstaged
    rw [hstore]
    exact hstaged.result (hstart a ha)

/-- The evaluation finds the window so, if the start function and `construct` leave the inputs. -/
theorem Job.staged_of_evaluate {c : EntryCall}
    (hstart : ∀ a, job.startCall? config store = some a → a.LeavesInputs config.maxCycles)
    (hconstruct : ∀ g' c', (g', c') ∈ job.entryCalls config store → c'.entry = .construct →
      (g'.activation c').LeavesInputs config.maxCycles)
    (hmem : (g, c) ∈ job.entryCalls config store) (hentry : c.entry = .evaluate) :
    (∃ ctx, c = .evaluate job.payload ctx) ∧ job.Staged config g.store.shared := by
  obtain ⟨guest, hguest, hcourse⟩ := Job.guest_of_entryCalls (List.ne_nil_of_mem hmem)
  obtain ⟨symbols, hsymbols, hmade⟩ := Job.guest?_eq_some_iff.1 hguest
  obtain ⟨hfirst, ctx, rfl, hcall⟩ := hcourse.evaluated hmem hentry
  have hstaged : job.Staged config (guest.activation guest.constructCall).store.shared :=
    Job.staged_of_guest hguest hstart
  have hstore := guest.store_call config.maxCycles guest.constructCall
  rw [hcall] at hstore
  refine ⟨⟨ctx, (Job.readied hsymbols hmade).evaluateCall_eq hcall ctx⟩, ?_⟩
  rw [hstore]
  exact hstaged.result (hconstruct _ _ hfirst rfl)

/-- The payload is read at its place if no segment covers it. -/
theorem Job.Staged.read_payload {m : Wasm.Memory} (h : job.Staged config m)
    (hinput : checkInput job.payload job.label = .ok ())
    (hfree : ∀ i < job.payload.length,
      Wasm.Module.segmentByte? job.image.module (payloadOffset + i) = none) :
    m.read payloadOffset job.payload.length = some job.payload := by
  have hend := end_of_payload hinput
  refine Wasm.Memory.read_eq_of_bytes (Nat.le_trans hend h.size) fun i hi => ?_
  have hlow : labelOffset ≤ payloadOffset + i := Nat.le_trans (by decide) (Nat.le_add_right _ _)
  rw [h.byte _ hlow (by omega), hfree i hi, Option.getD_none]
  show (Wasm.Memory.staged _ job.payload job.label).byte (payloadOffset + i) = _
  exact Wasm.Memory.byte_staged_payload hi

/-- The label is read at its place with its NUL if no segment covers them. -/
theorem Job.Staged.read_label {m : Wasm.Memory} (h : job.Staged config m)
    (hinput : checkInput job.payload job.label = .ok ())
    (hfree : ∀ i < (Utf8.encode job.label ++ [0]).length,
      Wasm.Module.segmentByte? job.image.module (labelOffset + i) = none) :
    m.read labelOffset (Utf8.encode job.label ++ [0]).length
      = some (Utf8.encode job.label ++ [0]) := by
  have hend : labelOffset + (Utf8.encode job.label ++ [0]).length ≤ inputWindow := by
    rw [List.length_append, List.length_singleton]
    exact Nat.le_trans (end_of_label hinput) (by decide)
  refine Wasm.Memory.read_eq_of_bytes (Nat.le_trans hend h.size) fun i hi => ?_
  rw [h.byte _ (Nat.le_add_right _ _) (by omega), hfree i hi, Option.getD_none]
  exact Wasm.Memory.byte_staged_label hinput hi

end Evaluation

/-! ## Invocations -/

namespace Loader

variable {σ : Type} {loader : Loader Wasm.interpreter} {host : Host σ} {payload : Payload}
  {label : String} {s : σ}

/-- The start function is called in an invocation as it is for the job. -/
theorem startCall?_of_job? {job : Job Wasm.interpreter.toCompiler}
    (h : loader.job? host payload label s = some job) :
    loader.startCall? host payload label s = job.startCall? loader.config loader.newStore := by
  rw [startCall?, startRequest?_of_job? h, Job.startCall?]

/-- If neither the start function nor `construct` stores into the input window from the label on,
the evaluation is given the addresses of payload and label, and finds in the window what was put
there, but for the data segments of the code. So it finds the payload if no segment covers a byte of
it, and the label with its NUL if no segment covers a byte of these. -/
theorem invoke_evaluates_inputs {g : Guest Wasm.interpreter} {c : EntryCall}
    (hstart : ∀ a, loader.startCall? host payload label s = some a →
      a.LeavesInputs loader.config.maxCycles)
    (hconstruct : ∀ g' c', (g', c') ∈ loader.entryCalls host payload label s →
      c'.entry = .construct → (g'.activation c').LeavesInputs loader.config.maxCycles)
    (hmem : (g, c) ∈ loader.entryCalls host payload label s) (hentry : c.entry = .evaluate) :
    ∃ script job, loader.job? host payload label s = some job ∧
      job.Requested loader.config payload label (loader.dialogue host payload label s) script ∧
      .call loader.config.maxCycles (g.function .evaluate) c.values g.store
        ∈ loader.log host payload label s ∧
      (∃ ctx, c = .evaluate (payload.bytes script.args.bytes) ctx) ∧
      job.Staged loader.config g.store.shared ∧
      ((∀ i < (payload.bytes script.args.bytes).length,
          Wasm.Module.segmentByte? job.image.module (payloadOffset + i) = none) →
        g.store.shared.read payloadOffset (payload.bytes script.args.bytes).length
          = some (payload.bytes script.args.bytes)) ∧
      (0 : UInt8) ∉ Utf8.encode label ∧
      ((∀ i < (Utf8.encode label ++ [0]).length,
          Wasm.Module.segmentByte? job.image.module (labelOffset + i) = none) →
        g.store.shared.read labelOffset (Utf8.encode label ++ [0]).length
          = some (Utf8.encode label ++ [0])) := by
  have hlog := mem_log_of_call hmem
  rw [Guest.request, hentry] at hlog
  cases hjob : loader.job? host payload label s with
  | none =>
    rw [(of_no_job hjob).1] at hmem
    cases hmem
  | some job =>
    have hentries := (of_job? hjob).1
    obtain ⟨script, hrequested⟩ := requested_of_job? hjob
    rw [startCall?_of_job? hjob] at hstart
    rw [hentries] at hconstruct hmem
    -- The job says where the inputs are, and the script what they are.
    obtain ⟨hcall, hstaged⟩ := Job.staged_of_evaluate hstart hconstruct hmem hentry
    have hinput := hrequested.checked
    have hlabel := hrequested.label_eq
    refine ⟨script, job, rfl, hrequested, hlog, ?_⟩
    rw [← hrequested.payload_eq]
    subst hlabel
    exact ⟨hcall, hstaged, hstaged.read_payload hinput, (checkInput_eq_ok_iff.1 hinput).2.2,
      hstaged.read_label hinput⟩

end Loader

/-! ## Code with a data segment -/

/-- A page of code that puts one byte, an X, into the memory at a multiple of 128. Its context is
one, and its status is the first byte of the payload. -/
def segmentCode (place : UInt8) : Bytes :=
  [0x00, 0x61, 0x73, 0x6d, 0x01, 0x00, 0x00, 0x00,
    -- The types of the entry points, and the import of the memory.
    0x01, 0x13, 0x03, 0x60, 0x02, 0x7f, 0x7f, 0x01, 0x7f, 0x60, 0x04, 0x7f, 0x7f, 0x7f, 0x7f, 0x01,
    0x7f, 0x60, 0x01, 0x7f, 0x00, 0x02, 0x0f, 0x01, 0x03, 0x65, 0x6e, 0x76, 0x06, 0x6d, 0x65, 0x6d,
    0x6f, 0x72, 0x79, 0x02, 0x00, 0x01, 0x03, 0x04, 0x03, 0x00, 0x01, 0x02] ++ entryExports 0 ++
    [0x0a, 0x11, 0x03, 0x04, 0x00, 0x41, 0x01, 0x0b, 0x07, 0x00, 0x20, 0x01, 0x2d, 0x00, 0x00, 0x0b,
      0x02, 0x00, 0x0b,
      -- The segment.
      0x0b, 0x08, 0x01, 0x00, 0x41, 0x80, place, 0x0b, 0x01, 0x58]

/-- Tells whether nothing runs before `construct`, and it gives a context and stores nothing. -/
def Loader.constructs (loader : Loader Wasm.interpreter) (n : Nat)
    (job : Job Wasm.interpreter.toCompiler) : Bool :=
  (job.startCall? loader.config loader.newStore).isNone &&
    (job.guest? loader.config loader.newStore).any fun g =>
      ((g.activation g.constructCall).trace loader.config.maxCycles n).any (fun (visited, _) =>
        visited.all fun t => (t.stores? (g.activation g.constructCall).inst).isNone) &&
      (g.callWithin? loader.config.maxCycles n g.constructCall).any fun (ctx, _) => ctx ≠ 0

/-- What the test tells is so. -/
theorem Loader.constructs_spec {loader : Loader Wasm.interpreter}
    {job : Job Wasm.interpreter.toCompiler} {n : Nat} (h : loader.constructs n job = true) :
    job.startCall? loader.config loader.newStore = none ∧
      (∀ g c, (g, c) ∈ job.entryCalls loader.config loader.newStore → c.entry = .construct →
        (g.activation c).LeavesInputs loader.config.maxCycles) ∧
      ∃ g c, (g, c) ∈ job.entryCalls loader.config loader.newStore ∧ c.entry = .evaluate := by
  obtain ⟨hstart, h⟩ := Bool.and_eq_true_iff.1 h
  obtain ⟨guest, hguest, h⟩ := (Option.any_eq_true _ _).1 h
  obtain ⟨hleaves, hgives⟩ := Bool.and_eq_true_iff.1 h
  obtain ⟨⟨visited, result⟩, htrace, hstores⟩ := (Option.any_eq_true _ _).1 hleaves
  obtain ⟨⟨ctx, g₁⟩, hwithin, hctx⟩ := (Option.any_eq_true _ _).1 hgives
  rw [Job.entryCalls_of_guest hguest]
  refine ⟨Option.isNone_iff_eq_none.1 hstart, fun g c hmem hentry => ?_, ?_⟩
  · obtain ⟨rfl, rfl⟩ := (guest.course loader.config).constructed hmem hentry
    rintro address - - ⟨s, t, hs, ht, start, size, hrange, -, -⟩
    have hnone := List.all_eq_true.1 hstores t ((Wasm.Activation.trace_eq_some htrace).2 s t hs ht)
    rw [hrange] at hnone
    cases hnone
  · refine ⟨g₁, g₁.evaluateCall ctx, ?_, rfl⟩
    unfold Guest.calls
    rw [Guest.call_of_within hwithin]
    dsimp only
    rw [if_neg (of_decide_eq_true hctx)]
    exact List.mem_cons_of_mem _ List.mem_cons_self

/-- The payload "ping". -/
def ping : Bytes := [0x70, 0x69, 0x6e, 0x67]

/-- A segment below the label leaves payload and label as they were put. -/
theorem invoke_evaluates_inputs_ping :
    (∀ a, pageLoader.startCall? (pageHost (segmentCode 1)) (.literal ping) "a" () = some a →
      a.LeavesInputs 100) ∧
    (∀ g c, (g, c) ∈ pageLoader.entryCalls (pageHost (segmentCode 1)) (.literal ping) "a" () →
      c.entry = .construct → (g.activation c).LeavesInputs 100) ∧
    ∃ g c, (g, c) ∈ pageLoader.entryCalls (pageHost (segmentCode 1)) (.literal ping) "a" () ∧
      c.entry = .evaluate ∧ (∃ ctx, c.args = [ctx, 0x200, 4, 0x100]) ∧
      g.store.shared.read payloadOffset 4 = some ping ∧
      g.store.shared.read labelOffset 2 = some [0x61, 0x00] := by
  have htest : (pageLoader.job? (pageHost (segmentCode 1)) (.literal ping) "a" ()).any
      (pageLoader.constructs 10) = true := by
    decide +kernel
  have hdata : (pageLoader.job? (pageHost (segmentCode 1)) (.literal ping) "a" ()).map
      (fun job => Wasm.Module.data job.image.module) = some [⟨.const (.i32 0x80), [0x58]⟩] := by
    decide +kernel
  obtain ⟨job, hjob, hconstructs⟩ := (Option.any_eq_true _ _).1 htest
  have hfree : ∀ address, labelOffset ≤ address →
      Wasm.Module.segmentByte? job.image.module address = none := by
    intro address haddress
    rw [hjob, Option.map_some, Option.some.injEq] at hdata
    rw [Wasm.Module.segmentByte?, hdata, Wasm.DataSegment.lastByte?, List.reverse_singleton,
      List.findSome?_singleton, Wasm.DataSegment.byte?_eq_none, ite_self]
    show 0x80 + 1 ≤ address
    exact Nat.le_trans (by decide) haddress
  obtain ⟨hstart, hconstruct, g, c, hmem, hentry⟩ := Loader.constructs_spec hconstructs
  rw [← (Loader.of_job? hjob).1] at hconstruct hmem
  have hleaves : ∀ a, pageLoader.startCall? (pageHost (segmentCode 1)) (.literal ping) "a" () = some a →
      a.LeavesInputs 100 := by
    intro a ha
    rw [Loader.startCall?_of_job? hjob, hstart] at ha
    cases ha
  obtain ⟨script, job', hjob', -, -, ⟨ctx, hcall⟩, -, hpayload', -, hlabel'⟩ :=
    Loader.invoke_evaluates_inputs hleaves hconstruct hmem hentry
  obtain rfl := Option.some.inj (hjob.symm.trans hjob')
  have htext : Utf8.encode "a" ++ [0] = [0x61, 0x00] := by decide +kernel
  rw [htext] at hlabel'
  exact ⟨hleaves, hconstruct, g, c, hmem, hentry, ⟨ctx, by rw [hcall]; rfl⟩,
    hpayload' fun i _ => hfree _ (Nat.le_trans (by decide) (Nat.le_add_right _ i)),
    hlabel' fun i _ => hfree _ (Nat.le_add_right _ i)⟩

/-- A segment at the payload takes the place of its first byte, a p, though no code stores anything.
-/
theorem segment_covers_payload :
    (∀ a, pageLoader.startCall? (pageHost (segmentCode 4)) (.literal [0x70]) "" () = some a →
      a.LeavesInputs 100) ∧
    (∀ g c, (g, c) ∈ pageLoader.entryCalls (pageHost (segmentCode 4)) (.literal [0x70]) "" () →
      c.entry = .construct → (g.activation c).LeavesInputs 100) ∧
    ∃ g c, (g, c) ∈ pageLoader.entryCalls (pageHost (segmentCode 4)) (.literal [0x70]) "" () ∧
      c.entry = .evaluate ∧ g.store.shared.read payloadOffset 1 = some [0x58] := by
  have htest : (pageLoader.job? (pageHost (segmentCode 4)) (.literal [0x70]) "" ()).any
      (pageLoader.constructs 10) = true := by
    decide +kernel
  have hdata : (pageLoader.job? (pageHost (segmentCode 4)) (.literal [0x70]) "" ()).map
      (fun job => (Wasm.Module.importsMemory job.image.module, Wasm.Module.data job.image.module))
        = some (true, [⟨.const (.i32 0x200), [0x58]⟩]) := by
    decide +kernel
  obtain ⟨job, hjob, hconstructs⟩ := (Option.any_eq_true _ _).1 htest
  rw [hjob, Option.map_some, Option.some.injEq, Prod.mk.injEq] at hdata
  have hcovered : Wasm.Module.segmentByte? job.image.module payloadOffset = some 0x58 := by
    rw [Wasm.Module.segmentByte?, hdata.1, hdata.2]
    rfl
  obtain ⟨hstart, hconstruct, g, c, hmem, hentry⟩ := Loader.constructs_spec hconstructs
  have hleaves : ∀ a, job.startCall? pageLoader.config pageLoader.newStore = some a →
      a.LeavesInputs pageLoader.config.maxCycles := by
    rw [hstart]
    exact nofun
  obtain ⟨-, hstaged⟩ := Job.staged_of_evaluate hleaves hconstruct hmem hentry
  rw [Loader.startCall?_of_job? hjob, (Loader.of_job? hjob).1]
  refine ⟨hleaves, hconstruct, g, c, hmem, hentry, ?_⟩
  have hfits : payloadOffset + [(0x58 : UInt8)].length ≤ g.store.shared.size :=
    Nat.le_trans (by decide) hstaged.size
  refine Wasm.Memory.read_eq_of_bytes hfits fun i hi => ?_
  obtain rfl : i = 0 := Nat.lt_one_iff.1 hi
  rw [Nat.add_zero, hstaged.byte _ (by decide) (by decide), hcovered]
  rfl

end HashLoader
