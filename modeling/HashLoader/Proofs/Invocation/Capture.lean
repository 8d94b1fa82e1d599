import HashLoader.Proofs.Invocation.Classification
import HashLoader.Proofs.Invocation.Lockstep

/-!
# Keeping messages

Whether messages are kept is noted in the store, where the function that sends messages looks it up
at each call. A store that keeps none is the muted store of one that does, and the interpreter goes
on alike in both (`Engine.lockstep_mute`). So it decides about one field of the report only: nothing
else of the report depends on it, neither what is said to the host nor what is asked of the engine
(`Loader.invoke_capturing`). If messages are kept, that field lists what the calls sent
(`Wasm.Activation.sent`), in the order of the calls and also from calls that failed.
-/

namespace HashLoader

open Wasm (Store)

/-! ## Muted requests -/

namespace Request

/-- The request in a store that keeps no messages. -/
def mute : Request Wasm.interpreter → Request Wasm.interpreter
  | start budget linked store => .start budget linked store.mute
  | call budget f args store => .call budget f args store.mute

/-- The messages that are sent in a request, in order. -/
def sent (x : Request Wasm.interpreter) : List String :=
  (x.activation?.map fun a => a.sent x.budget).getD []

/-- A request does not change whether messages are kept. -/
theorem captures_left (x : Request Wasm.interpreter) : x.left.captures = x.store.captures := by
  cases ha : x.activation? with
  | none => exact (idle_of_none ha).captures
  | some a => rw [left_of_activation ha, a.captures_result, (idle_of_activation ha).captures]

/-- If messages are kept, those of a request are put behind the others. -/
theorem messages_left (x : Request Wasm.interpreter) :
    x.left.messages.toList = x.store.messages.toList ++ x.store.captured x.sent := by
  unfold sent
  cases ha : x.activation? with
  | none =>
    rw [(idle_of_none ha).messages, Option.map_none, Option.getD_none, Store.captured_nil,
      List.append_nil]
  | some a =>
    rw [left_of_activation ha, a.messages_result, (idle_of_activation ha).messages, Option.map_some,
      Option.getD_some, Store.captured_congr (idle_of_activation ha).captures]

end Request

/-- On a thread the messages of all requests are put one behind the other. -/
theorem Thread.messages_eq {first last : Wasm.interpreter.Store}
    {log : List (Request Wasm.interpreter)} (h : Thread first log last) :
    last.captures = first.captures ∧
      last.messages.toList = first.messages.toList ++ first.captured (log.flatMap Request.sent) := by
  induction h with
  | nil => exact ⟨rfl, by rw [List.flatMap_nil, Store.captured_nil, List.append_nil]⟩
  | @cons x rest last hrest ih =>
    obtain ⟨hcaptures, hmessages⟩ := ih
    have hkept := x.captures_left
    refine ⟨hcaptures.trans hkept, ?_⟩
    rw [hmessages, x.messages_left, List.flatMap_cons, Store.captured_append, List.append_assoc,
      Store.captured_congr hkept]

/-- Starting a module does not look at messages. -/
theorem Wasm.Module.run_mute (m : Wasm.Module) (budget : Nat) (s : Store) :
    m.run budget s.mute = ((m.run budget s).1, (m.run budget s).2.mute) := by
  rw [run, run, instantiate_mute]
  rcases m.instantiate budget s with ⟨inst | why, left⟩
  · rfl
  · rfl

/-- Neither does calling a function. -/
theorem Wasm.Func.call_mute (f : Wasm.Func) (budget : Nat) (args : List Wasm.Value) (s : Store) :
    f.call budget args s.mute = ((f.call budget args s).1, (f.call budget args s).2.mute) := by
  have hmute : (f.activation args s.mute).result budget
      = (((f.activation args s).result budget).1, ((f.activation args s).result budget).2.mute) :=
    (f.activation args s).result_mute budget
  rw [call_eq, call_eq, hmute]
  rcases (f.activation args s).result budget with ⟨outcome, left⟩
  cases outcome with
  | finished results => rfl
  | failed why => rfl

/-- The interpreter goes on alike in a store that keeps no messages. -/
theorem Engine.lockstep_mute (budget : Nat) :
    Wasm.interpreter.Lockstep budget budget False fun s t => t = s.mute where
  addMemory := by
    rintro memory s t rfl
    rfl
  start := by
    rintro linked s t rfl
    have hmute := linked.run_mute budget s
    exact .inl ⟨(congrArg Prod.fst hmute).symm, congrArg Prod.snd hmute⟩
  call := by
    rintro f args s t rfl
    have hmute := f.call_mute budget args s
    exact .inl ⟨(congrArg Prod.fst hmute).symm, congrArg Prod.snd hmute⟩

/-- So does the recorded interpreter, and its log is the same but for the messages. -/
theorem Engine.lockstep_mute_recorded (budget : Nat) :
    Wasm.interpreter.recorded.Lockstep budget budget False
      fun s t => t = (s.1.mute, s.2.map Request.mute) where
  addMemory := by
    rintro memory s t rfl
    rfl
  start := by
    rintro linked ⟨s, log⟩ t rfl
    have hmute := linked.run_mute budget s
    refine .inl ⟨(congrArg Prod.fst hmute).symm, ?_⟩
    dsimp only
    rw [List.map_append]
    exact Prod.ext (congrArg Prod.snd hmute) rfl
  call := by
    rintro f args ⟨s, log⟩ t rfl
    have hmute := f.call_mute budget args s
    refine .inl ⟨(congrArg Prod.fst hmute).symm, ?_⟩
    dsimp only
    rw [List.map_append]
    exact Prod.ext (congrArg Prod.snd hmute) rfl

/-! ## Invocations -/

namespace Loader

variable {σ : Type}

/-- The loader that keeps messages, or does not. -/
def capturing {E : Engine} (loader : Loader E) (capture : Bool) : Loader E :=
  ⟨{ loader.config with captureDebug := capture }, loader.valid⟩

/-- The messages of the requests of an invocation are those of its calls. -/
theorem flatMap_sent_log (loader : Loader Wasm.interpreter) (host : Host σ) (payload : Payload)
    (label : String) (s : σ) : (loader.log host payload label s).flatMap Request.sent
      = (loader.activations host payload label s).flatMap fun a => a.sent loader.config.maxCycles := by
  have hlist : ∀ l : List (Request Wasm.interpreter),
      (∀ x ∈ l, x.budget = loader.config.maxCycles) → l.flatMap Request.sent
        = (l.filterMap Request.activation?).flatMap fun a => a.sent loader.config.maxCycles := by
    intro l hbudget
    induction l with
    | nil => rfl
    | cons x rest ih =>
      have hrest := ih fun y hy => hbudget y (List.mem_cons_of_mem _ hy)
      rw [List.flatMap_cons, hrest, Request.sent, hbudget x List.mem_cons_self, List.filterMap_cons]
      cases x.activation? with
      | none => rfl
      | some a => rfl
  exact hlist _ fun x hx => budget_of_mem_log hx

/-- The messages of a report are those that the calls sent, if they are kept. -/
theorem messages_invoke (loader : Loader Wasm.interpreter) (host : Host σ) (payload : Payload)
    (label : String) (s : σ) :
    (loader.invoke host payload label s).1.messages = if loader.config.captureDebug then
      (loader.activations host payload label s).flatMap fun a => a.sent loader.config.maxCycles
      else [] := by
  obtain ⟨first, hfirst, hthread⟩ := loader.thread host payload label s
  have hstore : first.captures = loader.config.captureDebug ∧ first.messages = #[] := by
    obtain rfl | ⟨memory, rfl⟩ := hfirst
    · exact ⟨rfl, rfl⟩
    · exact ⟨rfl, rfl⟩
  have hmessages := hthread.messages_eq.2
  rw [hstore.2, Store.captured, hstore.1, flatMap_sent_log] at hmessages
  exact hmessages

/-- Whether messages are kept decides only about the messages of the report. Without them the report
is the same, and so is what is said to the host and what is asked of the engine, in stores that
differ in the messages alone. If they are kept, the report has those that the calls sent, in order.
-/
theorem invoke_capturing (loader : Loader Wasm.interpreter) (host : Host σ) (payload : Payload)
    (label : String) (s : σ) :
    let kept := loader.capturing true
    let silent := loader.capturing false
    silent.invoke host payload label s
        = ({ (kept.invoke host payload label s).1 with messages := [] },
            (kept.invoke host payload label s).2) ∧
      (kept.invoke host payload label s).1.messages
        = (kept.activations host payload label s).flatMap (fun a => a.sent loader.config.maxCycles) ∧
      silent.dialogue host payload label s = kept.dialogue host payload label s ∧
      silent.log host payload label s = (kept.log host payload label s).map Request.mute ∧
      (silent.entryCalls host payload label s).map Prod.snd
        = (kept.entryCalls host payload label s).map Prod.snd := by
  intro kept silent
  have hsizes : kept.config.SameSizes silent.config := ⟨rfl, rfl, rfl⟩
  have hcapture : kept.config.captureDebug = true := rfl
  have hmessages := kept.messages_invoke host payload label s
  rw [if_pos hcapture] at hmessages
  -- The plain interpreter gives the reports and the calls, and the recorded one gives the logs.
  obtain ⟨⟨t, rfl, hrun⟩ | ⟨hfalse, -⟩, hhost⟩ :=
    drive_alike hsizes (Engine.lockstep_mute loader.config.maxCycles) rfl host payload label s
  · have hrecorded : kept.recorded.config.SameSizes silent.recorded.config := hsizes
    obtain ⟨⟨u, rfl, hlog⟩ | ⟨hfalse, -⟩, -⟩ := drive_alike hrecorded
      (Engine.lockstep_mute_recorded loader.config.maxCycles) rfl host payload label s
    · obtain ⟨hcalls, hrun⟩ := Prod.mk.inj hrun
      refine ⟨Prod.ext ?_ hhost.symm, hmessages, (dialogue_congr hsizes).symm, ?_, hcalls⟩
      · rw [invoke_eq_report, invoke_eq_report, hrun]
        rfl
      · have hstore := congrArg (fun x => x.2.store.2) hlog
        exact hstore
    · exact hfalse.elim
  · exact hfalse.elim

end Loader

/-! ## Code that sends a message -/

/-- Code whose `construct` sends the first four bytes of the label and then traps. -/
def sendingCode : Bytes :=
  [0x00, 0x61, 0x73, 0x6d, 0x01, 0x00, 0x00, 0x00,
    0x01, 0x18, 0x04, 0x60, 0x02, 0x7f, 0x7f, 0x01, 0x7f, 0x60, 0x04, 0x7f, 0x7f, 0x7f, 0x7f, 0x01,
    0x7f, 0x60, 0x01, 0x7f, 0x00, 0x60, 0x02, 0x7f, 0x7f, 0x00,
    -- The import of the function that sends messages.
    0x02, 0x0d, 0x01, 0x03, 0x65, 0x6e, 0x76, 0x05, 0x64, 0x65, 0x62, 0x75, 0x67, 0x00, 0x03,
    0x03, 0x04, 0x03, 0x00, 0x01, 0x02] ++ entryExports 1 ++
    -- The bodies: the first one is the address, the length, the call and `unreachable`.
    [0x0a, 0x14, 0x03, 0x0a, 0x00, 0x41, 0x80, 0x02, 0x41, 0x04, 0x10, 0x00, 0x00, 0x0b,
      0x04, 0x00, 0x41, 0x00, 0x0b, 0x02, 0x00, 0x0b]

/-- A message that was sent before a trap is in the report, unless messages are not kept. The code
traps in both cases. -/
theorem invoke_capturing_ping :
    ((pageLoader.capturing true).invoke (pageHost sendingCode) .fromArgs "ping" ()).1.messages
        = ["ping"] ∧
      ((pageLoader.capturing true).invoke (pageHost sendingCode) .fromArgs "ping" ()).1.error
        = some (.trapped "unreachable code was reached") ∧
      ((pageLoader.capturing false).invoke (pageHost sendingCode) .fromArgs "ping" ()).1.messages
        = [] ∧
      ((pageLoader.capturing false).invoke (pageHost sendingCode) .fromArgs "ping" ()).1.error
        = some (.trapped "unreachable code was reached") ∧
      (pageLoader.capturing false).log (pageHost sendingCode) .fromArgs "ping" ()
        = ((pageLoader.capturing true).log (pageHost sendingCode) .fromArgs "ping" ()).map
            Request.mute ∧
      (pageLoader.capturing true).activations (pageHost sendingCode) .fromArgs "ping" () ≠ [] := by
  have htest : ((pageLoader.capturing true).job? (pageHost sendingCode) .fromArgs "ping" ()).any
      ((pageLoader.capturing true).constructFails 10 (.trap .unreachable)
        fun store => store.messages = #["ping"]) = true := by
    decide +kernel
  obtain ⟨g, store, hmem, -, hrun, hmessages⟩ := Loader.drive_of_constructFails htest
  obtain ⟨hsilent, -, -, hlog, -⟩ :=
    Loader.invoke_capturing pageLoader (pageHost sendingCode) .fromArgs "ping" ()
  have herror : ((pageLoader.capturing true).invoke (pageHost sendingCode) .fromArgs "ping" ()).1.error
      = some (.trapped "unreachable code was reached") := by
    rw [Loader.invoke_eq_report, hrun]
    rfl
  have hfields : ∀ {kept silent : Report × Unit},
      silent = ({ kept.1 with messages := [] }, kept.2) →
      silent.1.messages = [] ∧ silent.1.error = kept.1.error := by
    rintro kept _ rfl
    exact ⟨rfl, rfl⟩
  obtain ⟨hnone, hsame⟩ := hfields hsilent
  refine ⟨?_, herror, hnone, hsame.trans herror, hlog, List.ne_nil_of_mem hmem⟩
  rw [Loader.invoke_eq_report, hrun]
  exact congrArg Array.toList (of_decide_eq_true hmessages)

end HashLoader
