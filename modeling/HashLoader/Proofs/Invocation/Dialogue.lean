import HashLoader.Invocation
import HashLoader.Proofs.Except
import HashLoader.Proofs.Image.Resolve

/-!
# How an invocation goes, as its host sees it

A host is asked only while an invocation is prepared: once for the script, and then as often as the
resolution of the code asks. `PrepareDialogue` says all the ways in which that can go, and
`Loader.invoke_dialogue` ties the report of an invocation to the way that it went. What is true of
every report and of every sequence of calls follows by cases on them.
-/

namespace HashLoader

variable {σ τ : Type} {C : Compiler} {E : Engine}

/-! ## Loading the script -/

/-- The ways the preparation of a job can go. -/
inductive PrepareDialogue (config : Config) (payload : Payload) (label : String) :
    List Exchange → Except LoaderError (Job C) → Prop
  /-- The host refuses the script. -/
  | refused {e : HostError} {b : Bytes} :
      PrepareDialogue config payload label [.script config.maxScriptSize 0 (.error e) b]
        (.error (.syscall e))
  /-- The script is longer than the buffer that was handed out for it. -/
  | tooLarge {len : Nat} {b : Bytes} : config.maxScriptSize < len →
      PrepareDialogue config payload label [.script config.maxScriptSize 0 (.ok len) b]
        (.error (.scriptTooLarge len config.maxScriptSize))
  /-- The script does not say what to do. -/
  | unreadable {len : Nat} {b : Bytes} {e : LoaderError} : len ≤ config.maxScriptSize →
      request config payload label (b.take len) = .error e →
      PrepareDialogue config payload label [.script config.maxScriptSize 0 (.ok len) b] (.error e)
  /-- The script names code, which is resolved. -/
  | resolved {len : Nat} {b input : Bytes} {r : CodeReference} {t : List Exchange}
      {result : Except LoaderError (CodeImage C)} : len ≤ config.maxScriptSize →
      request config payload label (b.take len) = .ok (r, input) →
      ResolveDialogue r config.maxCodeSize t result →
      PrepareDialogue config payload label (.script config.maxScriptSize 0 (.ok len) b :: t)
        (result.map fun image => ⟨image, input, label⟩)

/-- A preparation on any host goes one of the ways. -/
theorem prepare_dialogue (C : Compiler) (host : Host σ) (config : Config) (payload : Payload)
    (label : String) (s : σ) :
    PrepareDialogue config payload label (prepare C host.recorded config payload label (s, [])).2.2
      (prepare C host.recorded config payload label (s, [])).1 := by
  rcases hscript : host.loadScript (Vector.replicate config.maxScriptSize 0) 0 s with
    ⟨⟨answer, buffer⟩, s'⟩
  rw [prepare, Envelope.load, host.recorded_loadScript _ 0 s [] hscript, List.nil_append]
  cases answer with
  | error e => exact .refused
  | ok len =>
    dsimp only
    by_cases hlarge : config.maxScriptSize < len
    · rw [if_pos hlarge]
      exact .tooLarge hlarge
    rw [if_neg hlarge]
    have hfits : len ≤ config.maxScriptSize := by omega
    dsimp only
    cases hrequest : request config payload label (buffer.toList.take len) with
    | error e => exact .unreadable hfits hrequest
    | ok asked =>
      obtain ⟨r, input⟩ := asked
      dsimp only
      obtain ⟨u, hu, hresolve⟩ := resolve_dialogue host r config.maxCodeSize s'
        [.script config.maxScriptSize 0 (.ok len) buffer.toList]
      rcases hresult : resolve C host.recorded r config.maxCodeSize
        (s', [.script config.maxScriptSize 0 (.ok len) buffer.toList]) with ⟨result, s'', t⟩
      rw [hresult] at hu hresolve
      obtain rfl : t = _ := hu
      -- What comes after the script is the dialogue of the resolution.
      have hall := PrepareDialogue.resolved hfits hrequest hresolve
      cases result with
      | error e => exact hall
      | ok image => exact hall

/-! ## What a script asks for -/

/-- What a script asks for was read from a well-formed script and fits the input window. -/
theorem request_eq_ok_iff {config : Config} {payload : Payload} {label : String} {raw input : Bytes}
    {r : CodeReference} :
    request config payload label raw = .ok (r, input) ↔
      ∃ envelope, Envelope.parse raw config.maxScriptSize = .ok envelope ∧
        CodeReference.decode envelope.args = .ok r ∧ input = payload.bytes envelope.args ∧
        checkInput input label = .ok () := by
  unfold request
  constructor
  · intro h
    obtain ⟨envelope, hparse, h⟩ := bind_eq_ok_iff.1 h
    obtain ⟨reference, hdecode, h⟩ := bind_eq_ok_iff.1 h
    obtain ⟨⟨⟩, hcheck, h⟩ := bind_eq_ok_iff.1 h
    obtain ⟨rfl, rfl⟩ := Prod.mk.inj (Except.ok.inj h)
    exact ⟨envelope, hparse, hdecode, rfl, hcheck⟩
  · rintro ⟨envelope, hparse, hdecode, hinput, hcheck⟩
    rw [hinput] at hcheck
    rw [hparse, ok_bind, hdecode, ok_bind, hcheck, ok_bind, hinput]
    rfl

/-- A script that is loaded, asks for code and gets it makes a job. -/
theorem prepare_of_resolve {host : Host σ} {config : Config} {payload : Payload} {label : String}
    {s s₁ s₂ : σ} {raw input : Bytes} {r : CodeReference} {image : CodeImage C}
    (hload : Envelope.load host config.maxScriptSize s = (.ok raw, s₁))
    (hrequest : request config payload label raw = .ok (r, input))
    (hresolve : resolve C host r config.maxCodeSize s₁ = (.ok image, s₂)) :
    prepare C host config payload label s = (.ok ⟨image, input, label⟩, s₂) := by
  rw [prepare, hload]
  dsimp only
  rw [hrequest]
  dsimp only
  rw [hresolve]

/-! ## Reports -/

/-- What an invocation comes to that prepared a job, or failed to. -/
def Loader.runOf (loader : Loader E) : Except LoaderError (Job E.toCompiler) → Run E
  | .error e => .failed .init e (E.newStore loader.config.captureDebug)
  | .ok job => job.run loader.config (E.newStore loader.config.captureDebug)

/-- The report of what was prepared. -/
def Loader.report (loader : Loader E) (prepared : Except LoaderError (Job E.toCompiler)) : Report :=
  (loader.runOf prepared).report loader.config

/-- An invocation prepares a job and runs it. -/
theorem Loader.drive_eq (loader : Loader E) (host : Host σ) (payload : Payload) (label : String)
    (s : σ) : loader.drive host payload label s
      = (loader.runOf (prepare E.toCompiler host loader.config payload label s).1,
        (prepare E.toCompiler host loader.config payload label s).2) := by
  rw [drive]
  rcases prepare E.toCompiler host loader.config payload label s with ⟨e | job, s'⟩
  · rfl
  · rfl

/-- Then it reports on it. -/
theorem Loader.invoke_eq (loader : Loader E) (host : Host σ) (payload : Payload) (label : String)
    (s : σ) : loader.invoke host payload label s
      = (loader.report (prepare E.toCompiler host loader.config payload label s).1,
        (prepare E.toCompiler host loader.config payload label s).2) := by
  rw [invoke, drive_eq]
  rfl

/-! ## Hosts that simulate each other -/

section Simulates

variable {host : Host σ} {other : Host τ} {related : σ → τ → Prop} {s : σ} {t : τ}

/-- Hosts that simulate each other give the same script. -/
theorem Host.Simulates.loadEnvelope (h : host.Simulates other related) (size : Nat)
    (hs : related s t) :
    (Envelope.load host size s).1 = (Envelope.load other size t).1 ∧
      related (Envelope.load host size s).2 (Envelope.load other size t).2 := by
  rw [Envelope.load, Envelope.load]
  obtain ⟨hanswer, hs'⟩ := h.loadScript (Vector.replicate size 0) 0 hs
  rcases hleft : host.loadScript (Vector.replicate size 0) 0 s with ⟨⟨answer, buffer⟩, s'⟩
  rcases hright : other.loadScript (Vector.replicate size 0) 0 t with ⟨⟨answer', buffer'⟩, t'⟩
  rw [hleft, hright] at hanswer hs'
  obtain ⟨rfl, rfl⟩ := Loaded.mk.inj hanswer
  cases answer with
  | error e => exact ⟨rfl, hs'⟩
  | ok len =>
    dsimp only
    split
    · exact ⟨rfl, hs'⟩
    · exact ⟨rfl, hs'⟩

/-- Hosts that simulate each other prepare the same job. -/
theorem Host.Simulates.prepare (C : Compiler) (h : host.Simulates other related) (config : Config)
    (payload : Payload) (label : String) (hs : related s t) :
    (prepare C host config payload label s).1 = (prepare C other config payload label t).1 ∧
      related (prepare C host config payload label s).2
        (prepare C other config payload label t).2 := by
  rw [HashLoader.prepare, HashLoader.prepare]
  -- The hosts are asked twice: for the script, and for the code that it names.
  obtain ⟨hscript, hs'⟩ := h.loadEnvelope config.maxScriptSize hs
  rcases hleft : Envelope.load host config.maxScriptSize s with ⟨script, s'⟩
  rcases hright : Envelope.load other config.maxScriptSize t with ⟨script', t'⟩
  rw [hleft, hright] at hscript hs'
  obtain rfl : script = script' := hscript
  cases script with
  | error e => exact ⟨rfl, hs'⟩
  | ok raw =>
    dsimp only
    cases request config payload label raw with
    | error e => exact ⟨rfl, hs'⟩
    | ok asked =>
      obtain ⟨r, input⟩ := asked
      dsimp only
      obtain ⟨hcode, hs''⟩ := h.agreesOnCells.resolve r config.maxCodeSize hs'
      rcases hleft' : HashLoader.resolve C host r config.maxCodeSize s' with ⟨result, s''⟩
      rcases hright' : HashLoader.resolve C other r config.maxCodeSize t' with ⟨result', t''⟩
      rw [hleft', hright'] at hcode hs''
      obtain rfl : result = result' := hcode
      cases result with
      | error e => exact ⟨rfl, hs''⟩
      | ok image => exact ⟨rfl, hs''⟩

/-- Hosts that simulate each other get the same report. -/
theorem Host.Simulates.invoke (h : host.Simulates other related) (loader : Loader E)
    (payload : Payload) (label : String) (hs : related s t) :
    (loader.invoke host payload label s).1 = (loader.invoke other payload label t).1 ∧
      related (loader.invoke host payload label s).2 (loader.invoke other payload label t).2 := by
  obtain ⟨hjob, hs'⟩ := h.prepare E.toCompiler loader.config payload label hs
  rw [Loader.invoke_eq, Loader.invoke_eq, hjob]
  exact ⟨rfl, hs'⟩

end Simulates

/-! ## Invocations -/

namespace Loader

/-- All that is said between an invocation and its host. -/
def dialogue (loader : Loader E) (host : Host σ) (payload : Payload) (label : String) (s : σ) :
    List Exchange :=
  (loader.invoke host.recorded payload label (s, [])).2.2

/-- The calls of an invocation. -/
def calls (loader : Loader E) (host : Host σ) (payload : Payload) (label : String) (s : σ) :
    List HostCall :=
  (loader.invoke host.logged payload label (s, [])).2.2

/-- The calls of an invocation are those of its dialogue. -/
theorem calls_eq (loader : Loader E) (host : Host σ) (payload : Payload) (label : String) (s : σ) :
    loader.calls host payload label s
      = (loader.dialogue host payload label s).map Exchange.call := by
  have hstart : s = s ∧ ([] : List HostCall) = ([] : List Exchange).map Exchange.call := ⟨rfl, rfl⟩
  obtain ⟨-, -, hcalls⟩ :=
    host.logged_simulates_recorded.invoke loader payload label (s := (s, [])) (t := (s, [])) hstart
  exact hcalls

/-- The report of an invocation is that of what its dialogue prepared. -/
theorem invoke_dialogue (loader : Loader E) (host : Host σ) (payload : Payload) (label : String)
    (s : σ) :
    PrepareDialogue loader.config payload label (loader.dialogue host payload label s)
        (prepare E.toCompiler host loader.config payload label s).1 ∧
      (loader.invoke host payload label s).1
        = loader.report (prepare E.toCompiler host loader.config payload label s).1 := by
  have hdialogue := prepare_dialogue E.toCompiler host loader.config payload label s
  obtain ⟨hsame, -⟩ := host.recorded_simulates.prepare E.toCompiler loader.config payload label
    (s := (s, [])) (t := s) rfl
  rw [hsame] at hdialogue
  have htranscript : loader.dialogue host payload label s
      = (prepare E.toCompiler host.recorded loader.config payload label (s, [])).2.2 := by
    rw [dialogue, invoke_eq]
  exact ⟨by rw [htranscript]; exact hdialogue, by rw [invoke_eq]⟩

end Loader

end HashLoader
