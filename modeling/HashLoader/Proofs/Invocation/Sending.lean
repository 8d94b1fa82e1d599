import HashLoader.Proofs.Invocation.Capture
import HashLoader.Proofs.Text.Lossy
import HashLoader.Proofs.Wasm.Sending

/-!
# Messages of an invocation

`Loader.invoke_sends` follows a message from the code to the report. Code names an address and a
length, and the callee reads both without a sign and keeps no more than the longest message. If the
kept bytes lie inside the memory, then the text that they are read as is put behind all messages
from before, and it is in the report if messages are kept. If they do not, then nothing is sent and
the entry point ends: the report has that failure, the stage that was reached before the entry
point, and the messages from before.
-/

namespace HashLoader

/-- What a request leaves behind in messages stays in front of all that comes later. -/
theorem Thread.messages_of_mem {first last : Wasm.interpreter.Store}
    {log : List (Request Wasm.interpreter)} {x : Request Wasm.interpreter} (h : Thread first log last)
    (hx : x ∈ log) :
    ∃ later, last.messages.toList = x.left.messages.toList ++ x.left.captured later := by
  obtain ⟨front, back, rfl⟩ := List.append_of_mem hx
  obtain ⟨middle, -, hback⟩ := h.exists_of_append
  cases hback with
  | cons hrest => exact ⟨_, hrest.messages_eq.2⟩

/-- Messages are kept all along a thread, or never. -/
theorem Thread.captures_of_mem {first last : Wasm.interpreter.Store}
    {log : List (Request Wasm.interpreter)} {x : Request Wasm.interpreter} (h : Thread first log last)
    (hx : x ∈ log) : x.store.captures = first.captures := by
  obtain ⟨front, back, rfl⟩ := List.append_of_mem hx
  obtain ⟨middle, hfront, hback⟩ := h.exists_of_append
  cases hback with
  | cons hrest => exact hfront.messages_eq.1

namespace Loader

variable {σ : Type} {loader : Loader Wasm.interpreter} {host : Host σ} {payload : Payload}
  {label : String} {s : σ}

/-- A call of code visits stores that keep messages if the loader does. -/
theorem captures_of_debugs {a : Wasm.Activation} {t : Wasm.State} {ptr len : Int32}
    (hmem : a ∈ loader.activations host payload label s)
    (h : a.Debugs loader.config.maxCycles t ptr len) :
    t.store.captures = loader.config.captureDebug := by
  obtain ⟨x, hx, hactivation, -⟩ := exists_request hmem
  obtain ⟨first, hfirst, hthread⟩ := loader.thread host payload label s
  have hstore : first.captures = loader.config.captureDebug := by
    obtain rfl | ⟨memory, rfl⟩ := hfirst
    · rfl
    · rfl
  calc t.store.captures
    _ = (a.result loader.config.maxCycles).2.captures := by rw [h.result_eq, Wasm.State.captures_run]
    _ = a.store.captures := a.captures_result _
    _ = x.store.captures := (Request.idle_of_activation hactivation).captures
    _ = loader.config.captureDebug := (hthread.captures_of_mem hx).trans hstore

/-- A message that lies inside the memory is in the report, behind those from before. -/
theorem messages_of_debugs {a : Wasm.Activation} {t : Wasm.State} {ptr len : Int32}
    (hmem : a ∈ loader.activations host payload label s)
    (h : a.Debugs loader.config.maxCycles t ptr len) (hin : t.store.Holds ptr len)
    (hcapture : loader.config.captureDebug = true) :
    ∃ later, (loader.invoke host payload label s).1.messages
      = t.store.messages.toList ++ Utf8.lossy (t.store.kept ptr len) :: later := by
  obtain ⟨x, hx, hactivation, hbudget⟩ := exists_request hmem
  obtain ⟨first, -, hthread⟩ := loader.thread host payload label s
  obtain ⟨later, hlater⟩ := hthread.messages_of_mem hx
  obtain ⟨sent, hsent⟩ := h.messages_result hin
  rw [Wasm.Store.captured, captures_of_debugs hmem h, if_pos hcapture] at hsent
  rw [Request.left_of_activation hactivation, hbudget, hsent, List.append_assoc,
    List.cons_append] at hlater
  exact ⟨_, hlater⟩

/-- A message from outside the memory ends its entry point, and the report tells of nothing after
it. -/
theorem report_of_outside {g : Guest Wasm.interpreter} {c : EntryCall} {t : Wasm.State}
    {ptr len : Int32} (hmem : (g, c) ∈ loader.entryCalls host payload label s)
    (h : (g.activation c).Debugs loader.config.maxCycles t ptr len) (hout : ¬ t.store.Holds ptr len) :
    (loader.invoke host payload label s).1.Blames .messageOutOfBounds ∧
      (loader.invoke host payload label s).1.reached = c.entry.stage ∧
      (loader.invoke host payload label s).1.messages = t.store.messages.toList := by
  have hresult := h.result_of_outside hout
  have hactivation := Guest.activation?_request loader.config.maxCycles g c
  have hfails : (Guest.request loader.config.maxCycles (g, c)).Fails
      Wasm.Failure.messageOutOfBounds.error :=
    Request.fails_of_activation hactivation (congrArg Prod.fst hresult)
  obtain ⟨hreached, herror, hstore⟩ := run_of_call_fails hmem hfails
  have hleft : (loader.drive host payload label s).1.store = t.store.charge 1 := by
    rw [hstore, Request.left_of_activation hactivation]
    exact congrArg Prod.snd hresult
  rw [invoke_eq_report]
  refine ⟨Report.blames_of_entryError herror, hreached, ?_⟩
  rw [Run.report, hleft]
  rfl

/-- What sending a message does, for every memory, address and length, both read without a sign. The
callee fails if and only if the kept bytes do not lie inside the memory. Otherwise it puts the text
that they are read as behind the other messages, if messages are kept, and changes nothing else. So
does the step of code that calls it, and what it sent is in the report if messages are kept, behind
all messages from before. Where it fails nothing is sent, and the entry point ends: the report has a
trap, the stage that was reached before the entry point, and the messages from before. -/
theorem invoke_sends (loader : Loader Wasm.interpreter) (host : Host σ) (payload : Payload)
    (label : String) (s : σ) :
    (∀ (store : Wasm.Store) (ptr len : Int32),
      (store.debug ptr.toBitVec len.toBitVec = none ↔
        store.shared.size < ptr.toUInt32.toNat + min len.toUInt32.toNat 4096) ∧
      ∀ store', store.debug ptr.toBitVec len.toBitVec = some store' → ∃ message,
        Utf8.Reads (store.shared.peek ptr.toUInt32.toNat (min len.toUInt32.toNat 4096)) message ∧
          store'.messages.toList
            = store.messages.toList ++ (if store.captures then [message] else []) ∧
          store' = { store with messages := store'.messages }) ∧
    (∀ a ∈ loader.activations host payload label s, ∀ t ptr len,
      a.Debugs loader.config.maxCycles t ptr len →
      t.store.captures = loader.config.captureDebug ∧
      (¬ t.store.Holds ptr len →
        t.step a.inst = .failed .messageOutOfBounds (t.store.charge 1) ∧
          a.result loader.config.maxCycles = (.failed .messageOutOfBounds, t.store.charge 1)) ∧
      (t.store.Holds ptr len → ∃ message u, Utf8.Reads (t.store.kept ptr len) message ∧
        t.step a.inst = .next u ∧ u.store = (t.store.charge 1).record message ∧
        (loader.config.captureDebug = true → ∃ later,
          (loader.invoke host payload label s).1.messages
            = t.store.messages.toList ++ message :: later))) ∧
    ∀ g c, (g, c) ∈ loader.entryCalls host payload label s → ∀ t ptr len,
      (g.activation c).Debugs loader.config.maxCycles t ptr len → ¬ t.store.Holds ptr len →
      (loader.invoke host payload label s).1.Blames .messageOutOfBounds ∧
        (loader.invoke host payload label s).1.reached = c.entry.stage ∧
        (loader.invoke host payload label s).1.messages = t.store.messages.toList := by
  refine ⟨fun store ptr len => ?_, fun a hmem t ptr len h =>
    ⟨captures_of_debugs hmem h, fun hout => ?_, fun hin => ?_⟩,
    fun g c hmem t ptr len h hout => report_of_outside hmem h hout⟩
  -- The callee itself, on any store.
  · obtain ⟨hin, hdebug⟩ | ⟨hout, hdebug⟩ := store.debug_cases ptr len
    · have hfits : ¬ store.shared.size < ptr.toUInt32.toNat + min len.toUInt32.toNat 4096 :=
        Nat.not_lt.2 hin
      rw [hdebug]
      refine ⟨iff_of_false nofun hfits, fun store' hstore' => ?_⟩
      obtain rfl := Option.some.inj hstore'
      exact ⟨_, Utf8.reads_iff.2 rfl, store.messages_record _, rfl⟩
    · have hlarge : store.shared.size < ptr.toUInt32.toNat + min len.toUInt32.toNat 4096 :=
        Nat.not_le.1 hout
      rw [hdebug]
      exact ⟨iff_of_true rfl hlarge, nofun⟩
  -- A step that calls it, outside the memory and then inside.
  · obtain ⟨hin, -⟩ | ⟨-, hstep⟩ := Wasm.State.step_of_debug h.debug_eq
    · exact absurd hin hout
    · exact ⟨hstep, h.result_of_outside hout⟩
  · obtain ⟨-, u, hstep, hstore⟩ | ⟨hout, -⟩ := Wasm.State.step_of_debug h.debug_eq
    · exact ⟨_, u, Utf8.reads_iff.2 rfl, hstep, hstore, messages_of_debugs hmem h hin⟩
    · exact absurd hin hout

end Loader

/-! ## Code that sends two messages -/

/-- Code whose `construct` is given, perhaps with a data section. It imports the memory and the
function that sends messages. -/
def constructCode (body dataSection : Bytes) : Bytes :=
  [0x00, 0x61, 0x73, 0x6d, 0x01, 0x00, 0x00, 0x00,
    0x01, 0x18, 0x04, 0x60, 0x02, 0x7f, 0x7f, 0x01, 0x7f, 0x60, 0x04, 0x7f, 0x7f, 0x7f, 0x7f, 0x01,
    0x7f, 0x60, 0x01, 0x7f, 0x00, 0x60, 0x02, 0x7f, 0x7f, 0x00,
    0x02, 0x1b, 0x02, 0x03, 0x65, 0x6e, 0x76, 0x06, 0x6d, 0x65, 0x6d, 0x6f, 0x72, 0x79, 0x02, 0x00,
    0x01, 0x03, 0x65, 0x6e, 0x76, 0x05, 0x64, 0x65, 0x62, 0x75, 0x67, 0x00, 0x03,
    0x03, 0x04, 0x03, 0x00, 0x01, 0x02] ++ entryExports 1 ++
    [0x0a, UInt8.ofNat (body.length + 10), 0x03, UInt8.ofNat body.length] ++ body ++
    [0x04, 0x00, 0x41, 0x00, 0x0b, 0x02, 0x00, 0x0b] ++ dataSection

/-- A `construct` that sends the first four bytes of the label, and then tries to send the byte at
the last address. The memory does not reach so far. -/
def sendTwice : Bytes :=
  [0x00, 0x41, 0x80, 0x02, 0x41, 0x04, 0x10, 0x00, 0x41, 0x7f, 0x41, 0x01, 0x10, 0x00, 0x41, 0x00, 0x0b]

/-- Tells whether `construct` sends a message within some steps, in a state that passes a test. -/
def Loader.constructDebugs (loader : Loader Wasm.interpreter) (n : Nat) (ptr len : Int32)
    (test : Wasm.State → Bool) (job : Job Wasm.interpreter.toCompiler) : Bool :=
  (job.guest? loader.config loader.newStore).any fun g =>
    ((g.activation g.constructCall).trace loader.config.maxCycles n).any fun (visited, _) =>
      visited.any fun t =>
        t.debug? (g.activation g.constructCall).inst = some (ptr, len) && test t

/-- What the test tells is so. -/
theorem Loader.exists_debugs {σ : Type} {loader : Loader Wasm.interpreter} {host : Host σ}
    {payload : Payload} {label : String} {s : σ} {job : Job Wasm.interpreter.toCompiler}
    (hjob : loader.job? host payload label s = some job) {n : Nat} {ptr len : Int32}
    {test : Wasm.State → Bool} (h : loader.constructDebugs n ptr len test job = true) :
    ∃ g t, (g, g.constructCall) ∈ loader.entryCalls host payload label s ∧
      (g.activation g.constructCall).Debugs loader.config.maxCycles t ptr len ∧ test t = true := by
  obtain ⟨g, hguest, h⟩ := (Option.any_eq_true _ _).1 h
  obtain ⟨⟨visited, result⟩, htrace, h⟩ := (Option.any_eq_true _ _).1 h
  obtain ⟨t, ht, h⟩ := List.any_eq_true.1 h
  obtain ⟨hdebug, htest⟩ := Bool.and_eq_true_iff.1 h
  exact ⟨g, t, mem_entryCalls_of_guest hjob hguest,
    ⟨Wasm.Activation.visits_of_trace htrace ht, of_decide_eq_true hdebug⟩, htest⟩

/-- The first message is kept. The second one ends `construct`, and the first one stays. -/
theorem invoke_sends_ping :
    (∃ later, (pageLoader.invoke (pageHost (constructCode sendTwice [])) .fromArgs "ping" ()).1.messages
      = "ping" :: later) ∧
    (pageLoader.invoke (pageHost (constructCode sendTwice [])) .fromArgs "ping" ()).1.Blames
      .messageOutOfBounds ∧
    (pageLoader.invoke (pageHost (constructCode sendTwice [])) .fromArgs "ping" ()).1.reached
      = .symbolsResolved ∧
    (pageLoader.invoke (pageHost (constructCode sendTwice [])) .fromArgs "ping" ()).1.messages
      = ["ping"] := by
  have htest : (pageLoader.job? (pageHost (constructCode sendTwice [])) .fromArgs "ping" ()).any
      (fun job => pageLoader.constructDebugs 10 256 4 (fun t =>
          t.store.messages = #[] && t.store.Holds 256 4
            && t.store.kept 256 4 = Utf8.encode "ping") job &&
        pageLoader.constructDebugs 10 (-1) 1 (fun t =>
          t.store.messages = #["ping"] && !t.store.Holds (-1) 1) job) = true := by
    decide +kernel
  obtain ⟨job, hjob, htest⟩ := (Option.any_eq_true _ _).1 htest
  obtain ⟨hfirst, hsecond⟩ := Bool.and_eq_true_iff.1 htest
  have hcapture : pageLoader.config.captureDebug = true := rfl
  obtain ⟨-, hsends, hfails⟩ :=
    Loader.invoke_sends pageLoader (pageHost (constructCode sendTwice [])) .fromArgs "ping" ()
  refine ⟨?_, ?_⟩
  · obtain ⟨g, t, hmem, hdebugs, htest⟩ := Loader.exists_debugs hjob hfirst
    simp only [Bool.and_eq_true, decide_eq_true_eq] at htest
    obtain ⟨⟨hmessages, hholds⟩, hkept⟩ := htest
    obtain ⟨message, -, hreads, -, -, hreport⟩ :=
      (hsends _ (Loader.mem_activations hmem) t 256 4 hdebugs).2.2 hholds
    obtain ⟨later, hlater⟩ := hreport hcapture
    rw [Utf8.reads_iff, hkept, Utf8.lossy_encode] at hreads
    rw [hmessages, hreads] at hlater
    exact ⟨later, hlater⟩
  · obtain ⟨g, t, hmem, hdebugs, htest⟩ := Loader.exists_debugs hjob hsecond
    simp only [Bool.and_eq_true, Bool.not_eq_true', decide_eq_true_eq, decide_eq_false_iff_not] at htest
    obtain ⟨hmessages, hout⟩ := htest
    have hreport := hfails g _ hmem t (-1) 1 hdebugs hout
    rw [hmessages] at hreport
    exact hreport

end HashLoader
