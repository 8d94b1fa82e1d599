import HashLoader.Proofs.Invocation.Inputs
import HashLoader.Proofs.Invocation.Sending

/-!
# How long a message is

The callee keeps so many bytes of a message, and what is in the report is the text that they are
read as. The bytes are cut before they are read, so the text can be longer than what is kept: each
byte that is no text makes a replacement character, which has three bytes, and so does a character
that the cut goes through. `Loader.invoke_truncates` says what is in the report for all messages,
and `replaced_message` is a message that is no front of the text that code sent.
-/

namespace HashLoader

namespace Wasm

/-- The front of a range. -/
theorem Memory.take_peek (m : Memory) (address : Nat) {n k : Nat} (h : n ≤ k) :
    (m.peek address k).take n = m.peek address n := by
  obtain ⟨rest, rfl⟩ := Nat.exists_eq_add_of_le h
  rw [peek_add, List.take_left' (m.length_peek address n)]

/-- A message has at most three times as many bytes as are kept. -/
theorem Store.length_message_le {s : Store} {address len : BitVec 32} {message : String}
    (h : s.message? address len = some message) :
    (Utf8.encode message).length ≤ 3 * maxMessage := by
  obtain ⟨b, hread, rfl⟩ := Option.map_eq_some_iff.1 h
  obtain ⟨-, hb⟩ := Option.ite_none_right_eq_some.1 hread
  have hlen : b.length = min len.toNat maxMessage := by
    rw [← Option.some.inj hb, Memory.length_peek]
  have hle := Utf8.length_encode_lossy_le b
  omega

/-- So it is with what code sends. -/
theorem State.length_sends_le {inst : Instance} {s : State} {message : String}
    (h : s.sends? inst = some message) : (Utf8.encode message).length ≤ 3 * maxMessage := by
  obtain ⟨⟨c, operands⟩, -, hsends⟩ := Option.bind_eq_some_iff.1 h
  have hcallee : c.sends? operands s.store = some message := hsends
  unfold Callee.sends? at hcallee
  split at hcallee
  · exact Store.length_message_le hcallee
  · cases hcallee

/-- And with all that a call sends. -/
theorem Activation.length_sent_le {a : Activation} {budget : Nat} {message : String}
    (h : message ∈ a.sent budget) : (Utf8.encode message).length ≤ 3 * maxMessage := by
  unfold sent at h
  split at h
  · obtain ⟨t, -, hsends⟩ := List.mem_filterMap.1 h
    exact State.length_sends_le hsends
  · split at h
    · exact Store.length_message_le (Option.mem_toList.1 h)
    · cases h

variable {t : Store} {ptr len : Int32} {text : String}

/-- If the whole range is a text, the kept bytes are those before the cut. -/
theorem Store.kept_of_text
    (h : t.shared.peek ptr.toUInt32.toNat len.toUInt32.toNat = Utf8.encode text) :
    t.kept ptr len = (Utf8.encode text).take maxMessage := by
  have hlen : (Utf8.encode text).length = len.toUInt32.toNat := by rw [← h, Memory.length_peek]
  calc t.kept ptr len
    _ = (t.shared.peek ptr.toUInt32.toNat len.toUInt32.toNat).take (keptLen len) :=
      (t.shared.take_peek _ (Nat.min_le_left _ _)).symm
    _ = (Utf8.encode text).take (min maxMessage (Utf8.encode text).length) := by
      rw [h, hlen, keptLen, Nat.min_comm]
    _ = (Utf8.encode text).take maxMessage := List.take_eq_take_min.symm

end Wasm

namespace Loader

variable {σ : Type}

/-- How long messages are, and what is left of texts. No message of a report is longer than three
times the bytes that are kept. The message that a call of code sends is in the report, and it has at
most three times as many bytes as were kept. It is the text that the kept bytes are, if they are
one; and if all bytes that code named are a text, it is what is left of this, which is all of it or
a front of it, but for one replacement character where the cut went through a character. -/
theorem invoke_truncates (loader : Loader Wasm.interpreter) (host : Host σ) (payload : Payload)
    (label : String) (s : σ) :
    (∀ message ∈ (loader.invoke host payload label s).1.messages,
      (Utf8.encode message).length ≤ 3 * 4096) ∧
    ∀ a ∈ loader.activations host payload label s, ∀ t ptr len,
      a.Debugs loader.config.maxCycles t ptr len → t.store.Holds ptr len →
      loader.config.captureDebug = true → ∃ message later,
        (loader.invoke host payload label s).1.messages
          = t.store.messages.toList ++ message :: later ∧
        (Utf8.encode message).length ≤ 3 * min len.toUInt32.toNat 4096 ∧
        (∀ text, t.store.kept ptr len = Utf8.encode text →
          message = text ∧ (Utf8.encode message).length ≤ 4096) ∧
        ∀ text, ptr.toUInt32.toNat + len.toUInt32.toNat ≤ t.store.shared.size →
          t.store.shared.peek ptr.toUInt32.toNat len.toUInt32.toNat = Utf8.encode text →
          Utf8.LeftOf text 4096 message := by
  refine ⟨fun message hmem => ?_, fun a ha t ptr len h hin hcapture => ?_⟩
  · rw [messages_invoke] at hmem
    split at hmem
    · obtain ⟨a, -, hsent⟩ := List.mem_flatMap.1 hmem
      exact Wasm.Activation.length_sent_le hsent
    · cases hmem
  · obtain ⟨later, hreport⟩ := messages_of_debugs ha h hin hcapture
    have hkept : (t.store.kept ptr len).length = min len.toUInt32.toNat 4096 :=
      Wasm.Memory.length_peek _ _ _
    refine ⟨_, later, hreport, ?_, fun text htext => ?_, fun text _ htext => ?_⟩
    · rw [← hkept]
      exact Utf8.length_encode_lossy_le _
    · have hread : Utf8.lossy (t.store.kept ptr len) = text := by rw [htext, Utf8.lossy_encode]
      refine ⟨hread, ?_⟩
      rw [hread, ← htext, hkept]
      exact Nat.min_le_right _ _
    · rw [Wasm.Store.kept_of_text htext]
      exact Utf8.leftOf_lossy text 4096

end Loader

/-! ## A message that is cut inside a character -/

/-- The states of a call find the input window as the call does, if the call leaves it so. -/
theorem Job.Staged.visits {config : Config} {job : Job Wasm.interpreter.toCompiler}
    {a : Wasm.Activation} {s t : Wasm.State}
    (h : job.Staged config a.store.shared) (hleaves : a.LeavesInputs config.maxCycles)
    (hstart : a.start? config.maxCycles = some s) (hvisits : s.Visits a.inst config.maxCycles t) :
    job.Staged config t.store.shared := by
  have hkeeps : ∀ address, labelOffset ≤ address → address < inputWindow →
      s.store.shared.Keeps address t.store.shared := by
    intro address hlow hhigh
    exact Wasm.State.Visits.keeps
      (fun u hu hstores => hleaves address hlow hhigh ⟨s, u, hstart, hu, hstores⟩) hvisits
  rw [Wasm.Activation.store_of_start hstart] at hkeeps
  refine ⟨Nat.le_trans h.size (Nat.mul_le_mul_right _ ?_), fun address hlow hhigh => ?_⟩
  · exact (hkeeps labelOffset (Nat.le_refl _) (by decide)).pages
  · exact (hkeeps address hlow hhigh).byte.trans (h.byte address hlow hhigh)

/-- A text of NULs and a last character of two bytes. -/
def paddedText (n : Nat) : String := String.ofList (List.replicate n '\x00' ++ ['é'])

theorem flatMap_replicate_nul (n : Nat) :
    (List.replicate n '\x00').flatMap Utf8.charBytes = List.replicate n 0 := by
  have hnul : Utf8.charBytes '\x00' = [0] := by decide
  rw [List.flatMap_replicate, hnul, List.flatten_replicate_singleton]

/-- The bytes of the text. -/
theorem encode_paddedText (n : Nat) :
    Utf8.encode (paddedText n) = List.replicate n 0 ++ [0xC3, 0xA9] := by
  have hlast : Utf8.charBytes 'é' = [0xC3, 0xA9] := by decide
  rw [paddedText, Utf8.encode_eq_flatMap, String.toList_ofList, List.flatMap_append,
    flatMap_replicate_nul, List.flatMap_singleton, hlast]

/-- These bytes by their places. -/
theorem getElem_encode_paddedText {n i : Nat} (h : i < (Utf8.encode (paddedText n)).length) :
    (Utf8.encode (paddedText n))[i]
      = if n ≤ i then [(0xC3 : UInt8), 0xA9][i - n]?.getD 0 else 0 := by
  have hlen : (List.replicate n (0 : UInt8)).length = n := List.length_replicate
  have hi : i < (List.replicate n (0 : UInt8) ++ [0xC3, 0xA9]).length := by rwa [← encode_paddedText]
  have hget : (Utf8.encode (paddedText n))[i] = (List.replicate n (0 : UInt8) ++ [0xC3, 0xA9])[i] := by
    simp only [encode_paddedText]
  rw [hget]
  split
  · next hlast =>
    have hin : i - n < [(0xC3 : UInt8), 0xA9].length := by
      rw [List.length_append, hlen] at hi
      omega
    rw [List.getElem?_eq_getElem hin, Option.getD_some, List.getElem_append_right (by rwa [hlen])]
    simp only [hlen]
  · next hbefore =>
    rw [List.getElem_append_left (by rw [hlen]; exact Nat.not_le.1 hbefore), List.getElem_replicate]

/-- With room for one byte of the last character, what fits are the NULs. -/
theorem cut_paddedText (n : Nat) :
    Utf8.cut (paddedText n) (n + 1) = String.ofList (List.replicate n '\x00') := by
  have hlen : ((List.replicate n '\x00').flatMap Utf8.charBytes).length = n := by
    rw [flatMap_replicate_nul, List.length_replicate]
  have hnothing : Utf8.fitting ['é'] 1 = [] := by decide
  rw [Utf8.cut, paddedText, String.toList_ofList, Utf8.fitting_append (by omega), hlen,
    Nat.add_sub_cancel_left, hnothing, List.append_nil]

/-- What is left of the text then has a replacement character in the place of the last one. -/
theorem leftOf_paddedText {n : Nat} {message : String}
    (h : Utf8.LeftOf (paddedText n) (n + 1) message) :
    message = String.ofList (List.replicate n '\x00' ++ [Utf8.replacement]) := by
  have hcut : Utf8.encode (Utf8.cut (paddedText n) (n + 1)) = List.replicate n 0 := by
    rw [cut_paddedText, Utf8.encode_eq_flatMap, String.toList_ofList, flatMap_replicate_nul]
  have hinside : List.replicate n 0 ≠ (Utf8.encode (paddedText n)).take (n + 1) := by
    intro heq
    have hlen := congrArg List.length heq
    rw [encode_paddedText, List.length_take, List.length_append, List.length_replicate] at hlen
    simp only [List.length_cons, List.length_nil] at hlen
    omega
  rw [h.eq_ite, hcut, if_neg hinside, cut_paddedText, String.ofList_append]
  rfl

/-- It takes three bytes. -/
theorem length_replaced (n : Nat) : (Utf8.encode
    (String.ofList (List.replicate n '\x00' ++ [Utf8.replacement]))).length = n + 3 := by
  have hlast : (Utf8.charBytes Utf8.replacement).length = 3 := by decide
  rw [Utf8.encode_eq_flatMap, String.toList_ofList, List.flatMap_append, flatMap_replicate_nul,
    List.flatMap_singleton, List.length_append, List.length_replicate, hlast]

/-- So the text does not begin with what is left of it. -/
theorem not_front_replaced (n : Nat) : ¬ ∃ rest,
    paddedText n = String.ofList (List.replicate n '\x00' ++ [Utf8.replacement]) ++ rest := by
  rintro ⟨rest, h⟩
  have hchars := congrArg String.toList h
  rw [paddedText, String.toList_append, String.toList_ofList, String.toList_ofList,
    List.append_assoc] at hchars
  have hlast : 'é' = Utf8.replacement := (List.cons.inj (List.append_cancel_left hchars)).1
  exact absurd hlast (by decide)

/-- A `construct` that sends 4097 bytes from the place of the payload on. -/
def sendLong : Bytes := [0x00, 0x41, 0x80, 0x04, 0x41, 0x81, 0x20, 0x10, 0x00, 0x41, 0x01, 0x0b]

/-- The data section with the last two of these bytes. All others are zero. -/
def lastBytes : Bytes := [0x0b, 0x09, 0x01, 0x00, 0x41, 0xff, 0x23, 0x0b, 0x02, 0xc3, 0xa9]

/-- Without a payload and a label the memory is zero from the place of the payload on. -/
theorem Job.byte_memory_of_empty {E : Engine} {config : Config} {job : Job E.toCompiler}
    (hpayload : job.payload = []) (hlabel : job.label = "") {address : Nat}
    (haddress : payloadOffset ≤ address) :
    (job.memory config).byte address = 0 := by
  have hlow : labelOffset + (Utf8.encode "").length < payloadOffset := by decide +kernel
  show (Wasm.Memory.staged _ job.payload job.label).byte address = 0
  rw [hpayload, hlabel, Wasm.Memory.byte_staged_of_outside]
  · simp [Wasm.Memory.byte, Wasm.Memory.ofLimits]
  · omega
  · rw [List.length_nil]
    omega

/-- The range that is sent is a text in the memory. -/
theorem Job.Staged.read_paddedText {config : Config} {job : Job Wasm.interpreter.toCompiler}
    {m : Wasm.Memory} (h : job.Staged config m) (hpayload : job.payload = []) (hlabel : job.label = "")
    (himports : Wasm.Module.importsMemory job.image.module = true)
    (hdata : Wasm.Module.data job.image.module = [⟨.const (.i32 4607), [0xC3, 0xA9]⟩]) :
    m.read 512 4097 = some (Utf8.encode (paddedText 4095)) := by
  have hsegment : ∀ address, Wasm.Module.segmentByte? job.image.module address
      = if 4607 ≤ address then [(0xC3 : UInt8), 0xA9][address - 4607]? else none := by
    intro address
    rw [Wasm.Module.segmentByte?, himports, if_pos rfl, hdata, Wasm.DataSegment.lastByte?,
      List.reverse_singleton, List.findSome?_singleton]
    rfl
  have hlen : (Utf8.encode (paddedText 4095)).length = 4097 := by
    rw [encode_paddedText, List.length_append, List.length_replicate]
    rfl
  have hfits : 512 + (Utf8.encode (paddedText 4095)).length ≤ m.size := by
    rw [hlen]
    exact Nat.le_trans (by decide) h.size
  rw [← hlen]
  refine Wasm.Memory.read_eq_of_bytes hfits fun i hi => ?_
  have hplace : 512 + i - 4607 = i - 4095 := by omega
  have hiff : 4607 ≤ 512 + i ↔ 4095 ≤ i := by omega
  have hwindow : 512 + i < inputWindow := by
    rw [hlen] at hi
    exact Nat.lt_of_lt_of_le (Nat.add_lt_add_left hi 512) (by decide)
  -- A byte is one of the segment, or else one that no input was put to.
  rw [h.byte _ (Nat.le_trans (by decide) (Nat.le_add_right 512 i)) hwindow, hsegment,
    byte_memory_of_empty hpayload hlabel (Nat.le_add_right 512 i), getElem_encode_paddedText]
  simp only [hiff, hplace]
  split
  · rfl
  · rfl

/-- The host that has the code that sends the text. -/
abbrev paddedTextHost : Host Unit := pageHost (constructCode sendLong lastBytes)

/-- The code sends the text, all of which lies inside the memory. -/
theorem exists_debugs_paddedText :
    ∃ a t, a ∈ pageLoader.activations paddedTextHost (.literal []) "" () ∧
      a.Debugs 100 t 512 4097 ∧ t.store.messages = #[] ∧ 512 + 4097 ≤ t.store.shared.size ∧
      t.store.shared.peek 512 4097 = Utf8.encode (paddedText 4095) := by
  have htest : (pageLoader.job? paddedTextHost (.literal []) "" ()).any
      (fun job => pageLoader.constructs 10 job &&
        pageLoader.constructDebugs 10 512 4097 (fun t => t.store.messages = #[]) job &&
        decide (job.payload = [] ∧ job.label = "" ∧
          Wasm.Module.importsMemory job.image.module = true ∧
          Wasm.Module.data job.image.module = [⟨.const (.i32 4607), [0xC3, 0xA9]⟩])) = true := by
    decide +kernel
  obtain ⟨job, hjob, htest⟩ := (Option.any_eq_true _ _).1 htest
  simp only [Bool.and_eq_true, decide_eq_true_eq] at htest
  obtain ⟨⟨hconstructs, hsends⟩, hpayload, hlabel, himports, hdata⟩ := htest
  obtain ⟨hstart, hleaves, -⟩ := Loader.constructs_spec hconstructs
  obtain ⟨g, t, hmem, hdebugs, hmessages⟩ := Loader.exists_debugs hjob hsends
  have hcall := hmem
  rw [(Loader.of_job? hjob).1] at hcall
  obtain ⟨guest, hguest, hcourse⟩ := Job.guest_of_entryCalls (List.ne_nil_of_mem hcall)
  obtain ⟨rfl, -⟩ := hcourse.constructed hcall rfl
  -- There is no start function, so the call finds the inputs as they were put, and the segment.
  have hstaged : job.Staged pageLoader.config (g.activation g.constructCall).store.shared := by
    refine Job.staged_of_guest hguest fun a ha => ?_
    cases hstart.symm.trans ha
  obtain ⟨s, hs, hvisits⟩ := hdebugs.visited
  have hthere := hstaged.visits (hleaves g _ hcall rfl) hs hvisits
  obtain ⟨hfits, hpeek⟩ := Option.ite_none_right_eq_some.1
    (hthere.read_paddedText hpayload hlabel himports hdata)
  exact ⟨_, t, Loader.mem_activations hmem, hdebugs, of_decide_eq_true hmessages,
    of_decide_eq_true hfits, Option.some.inj hpeek⟩

/-- What the report has of that text. -/
theorem invoke_truncates_paddedText :
    ∃ message later,
      (pageLoader.invoke paddedTextHost (.literal []) "" ()).1.messages = message :: later ∧
      message = String.ofList (List.replicate 4095 '\x00' ++ [Utf8.replacement]) := by
  obtain ⟨a, t, ha, hdebugs, hmessages, hfits, hpeek⟩ := exists_debugs_paddedText
  have hin : t.store.Holds 512 4097 := Nat.le_trans (by decide) hfits
  obtain ⟨-, htruncates⟩ := Loader.invoke_truncates pageLoader paddedTextHost (.literal []) "" ()
  obtain ⟨message, later, hreport, -, -, hleft⟩ := htruncates a ha t 512 4097 hdebugs hin rfl
  rw [hmessages] at hreport
  exact ⟨message, later, hreport, leftOf_paddedText (hleft _ hfits hpeek)⟩

/-- The message that is in the report is longer than what is kept of messages, and it is no front of
the text that code sent, though all of that lies inside the memory. -/
theorem replaced_message :
    ∃ a t message later,
      a ∈ pageLoader.activations paddedTextHost (.literal []) "" () ∧
      a.Debugs 100 t 512 4097 ∧ 512 + 4097 ≤ t.store.shared.size ∧
      t.store.shared.peek 512 4097 = Utf8.encode (paddedText 4095) ∧
      (pageLoader.invoke paddedTextHost (.literal []) "" ()).1.messages = message :: later ∧
      (Utf8.encode message).length = 4098 ∧ ¬ ∃ rest, paddedText 4095 = message ++ rest := by
  obtain ⟨a, t, ha, hdebugs, hmessages, hfits, hpeek⟩ := exists_debugs_paddedText
  have hin : t.store.Holds 512 4097 := Nat.le_trans (by decide) hfits
  obtain ⟨later, hreport⟩ := Loader.messages_of_debugs ha hdebugs hin rfl
  have hmessage : Utf8.lossy (t.store.kept 512 4097)
      = String.ofList (List.replicate 4095 '\x00' ++ [Utf8.replacement]) := by
    rw [Wasm.Store.kept_of_text hpeek]
    exact leftOf_paddedText (Utf8.leftOf_lossy (paddedText 4095) 4096)
  rw [hmessages, hmessage] at hreport
  exact ⟨a, t, _, later, ha, hdebugs, hfits, hpeek, hreport, length_replaced 4095,
    not_front_replaced 4095⟩

end HashLoader
