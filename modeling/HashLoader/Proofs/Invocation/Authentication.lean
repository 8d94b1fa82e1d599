import HashLoader.Proofs.Invocation.Activations
import HashLoader.Proofs.Invocation.Report
import HashLoader.Proofs.Invocation.Uninterpreted

/-!
# Only authentic code runs

An image that is resolved is authentic by the dialogue with the host, and all that is asked of the
engine in an invocation is to run the module of its image (`Job.runs_of_mem`). On the interpreter
this goes on down to instructions: a call on the instance of a module executes instructions of the
module only (`Wasm.Activation.executes_from`).
-/

namespace HashLoader

/-- A host can only bring code to run that it has authenticated. Every image that is resolved is
authentic. An invocation that gets past the first stage has resolved such an image, for the
reference that the script holds, and asks the engine for nothing but to run its module. On the
interpreter, all calls of code in the invocation execute only instructions of this module. -/
theorem Loader.invoke_runs_authentic_code {σ : Type} (host : Host σ) (s : σ) :
    (∀ C r capacity image, (resolve C host r capacity s).1 = .ok image →
      image.Authentic r capacity (resolutionDialogue C host r capacity s)) ∧
    (∀ E, ∀ (loader : Loader E) (payload : Payload) (label : String),
      (loader.invoke host payload label s).1.reached ≠ .init →
      ∃ (job : Job E.toCompiler) (n : Nat) (b : Bytes) (t : List Exchange) (r : CodeReference),
        loader.job? host payload label s = some job ∧
        loader.dialogue host payload label s
          = .script loader.config.maxScriptSize 0 (.ok n) b :: t ∧
        request loader.config payload label (b.take n) = .ok (r, job.payload) ∧
        job.image.Authentic r loader.config.maxCodeSize t ∧
        (loader.drive host payload label s).1 = job.run loader.config loader.newStore ∧
        ∀ x ∈ loader.log host payload label s, x.Runs job.image.module) ∧
    ∀ (loader : Loader Wasm.interpreter) (payload : Payload) (label : String) (job : Job _),
      loader.job? host payload label s = some job →
      ∀ a ∈ loader.activations host payload label s, ∀ i,
        a.Executes loader.config.maxCycles i → job.image.module.Contains i := by
  refine ⟨fun C r capacity image himage => ?_, fun E loader payload label hreached => ?_,
    fun loader payload label job hjob a ha i hi => ?_⟩
  · exact (resolutionDialogue_spec C host r capacity s).authentic himage
  · cases hjob : loader.job? host payload label s with
    | none =>
      obtain ⟨-, e, hrun⟩ := of_no_job hjob
      rw [invoke_eq_report, hrun] at hreached
      exact absurd rfl hreached
    | some job =>
      -- The job was prepared in a dialogue that authenticates its image, and every request is for
      -- its module.
      obtain ⟨hdialogue, -⟩ := loader.invoke_dialogue host payload label s
      obtain ⟨n, b, t, r, ht, hrequest, hauthentic, -⟩ :=
        hdialogue.authentic (job?_eq_some_iff.1 hjob)
      refine ⟨job, n, b, t, r, rfl, ht, hrequest, hauthentic, (of_job? hjob).2, fun x hx => ?_⟩
      rw [log_of_job? hjob] at hx
      exact Job.runs_of_mem hx
  · obtain ⟨x, hx, hactivation⟩ := List.mem_filterMap.1 ha
    rw [log_of_job? hjob] at hx
    exact a.executes_from ((Job.runs_of_mem hx).inst_eq hactivation) hi

/-! ## An invocation that runs code -/

/-- The page of code whose entry points do the least they have to. -/
def leastPage : Bytes := Padding.pad leastCode

/-- The reference to it by its data. -/
def leastReference : CodeReference := ⟨(0, 0), digest leastPage, .data⟩

/-- The script that asks for it. -/
def leastScript : Bytes := Record.ScriptFields.layout ⟨.zero, 0, leastReference.encode []⟩

/-- A local host with both. -/
def leastHost : LocalHost :=
  (LocalHost.empty.deployTyped .zero leastPage []).2.setScript leastScript

/-- The reference is resolved to the page. -/
theorem resolve_leastReference :
    ∃ image, resolve Wasm.interpreter.toCompiler LocalHost.host leastReference pageSize leastHost
      = (.ok image, leastHost) ∧ image.bytes = leastPage := by
  have hlength : leastPage.length = pageSize := by decide +kernel
  have hcompiles : (Wasm.interpreter.compile leastPage).toOption.isSome = true := by decide +kernel
  obtain ⟨m, hm⟩ := Option.isSome_iff_exists.1 hcompiles
  have hfirst : leastHost.FirstAt .data (digest leastPage) 0 ⟨⟨.zero, 0⟩, leastPage, some []⟩ :=
    ⟨rfl, rfl, fun _ _ hlt => absurd hlt (Nat.not_lt_zero _)⟩
  exact LocalHost.resolve_of_first (r := leastReference) (by decide) hfirst
    (Nat.le_of_eq (hlength.trans rfl)) (by rw [hlength]; rfl) ⟨m, toOption_eq_some_iff.1 hm⟩

/-- So the page is what an invocation prepares. -/
theorem exists_job_least : ∃ job, pageLoader.job? LocalHost.host .fromArgs "" leastHost = some job ∧
    job.image.bytes = leastPage := by
  have hscript : leastHost.script = leastScript := by rw [leastHost, LocalHost.setScript]
  have hlength : leastScript.length = 84 := by
    rw [leastScript, Record.ScriptFields.length_layout, CodeReference.length_encode, List.length_nil]
  have hfits : leastHost.script.length ≤ pageLoader.config.maxScriptSize := by
    rw [hscript, hlength]
    decide
  have hcarries : LocalHost.Carries leastHost.script leastReference [] := by
    rw [hscript]
    exact LocalHost.carries_layout .zero 0 leastReference (by decide)
  obtain ⟨record, hverify, hdecode, hpayload⟩ := hcarries
  obtain ⟨image, himage, hbytes⟩ := resolve_leastReference
  have hcheck : checkInput [] "" = .ok () := by decide +kernel
  have hrequest : request pageLoader.config .fromArgs "" leastHost.script
      = .ok (leastReference, []) := by
    rw [request_of_verify hfits hverify hdecode, Payload.bytes, hpayload, hcheck, Except.map]
  have hstate : (LocalHost.host.loadScript (Vector.replicate pageLoader.config.maxScriptSize 0) 0
      leastHost).2 = leastHost := by rw [LocalHost.host]
  have hload := leastHost.handsOut.load hfits
  rw [hstate] at hload
  exact ⟨⟨image, [], ""⟩,
    Loader.job?_eq_some_iff.2 (congrArg Prod.fst (prepare_of_resolve hload hrequest himage)), hbytes⟩

/-- The code of the host is resolved, has the hash that the script names, and is run. -/
theorem invoke_runs_authentic_code_least :
    (∃ image, (resolve Wasm.interpreter.toCompiler LocalHost.host leastReference pageSize
        leastHost).1 = .ok image ∧ leastReference.hashType.isData = true ∧
      digest image.bytes = leastReference.codeHash) ∧
    (pageLoader.invoke LocalHost.host .fromArgs "" leastHost).1.reached ≠ .init ∧
    ∃ job, pageLoader.job? LocalHost.host .fromArgs "" leastHost = some job ∧
      digest job.image.bytes = leastReference.codeHash ∧
      (pageLoader.drive LocalHost.host .fromArgs "" leastHost).1
        = job.run pageLoader.config pageLoader.newStore ∧
      (∀ x ∈ pageLoader.log LocalHost.host .fromArgs "" leastHost, x.Runs job.image.module) ∧
      ∀ a ∈ pageLoader.activations LocalHost.host .fromArgs "" leastHost, ∀ i,
        a.Executes 100 i → job.image.module.Contains i := by
  obtain ⟨hresolve, hinvoke, hcode⟩ := Loader.invoke_runs_authentic_code LocalHost.host leastHost
  obtain ⟨image, himage, -⟩ := resolve_leastReference
  have hresult := congrArg Prod.fst himage
  obtain ⟨job, hjob, hbytes⟩ := exists_job_least
  have hreached : (pageLoader.invoke LocalHost.host .fromArgs "" leastHost).1.reached ≠ .init :=
    (Loader.reached_ne_init_iff Wasm.interpreter_spec).2 ⟨job, hjob⟩
  refine ⟨⟨image, hresult, rfl, (hresolve _ _ _ image hresult).digest_bytes rfl⟩, hreached, ?_⟩
  obtain ⟨job', -, -, -, -, hjob', -, -, -, hrun, hruns⟩ :=
    hinvoke Wasm.interpreter pageLoader .fromArgs "" hreached
  obtain rfl := Option.some.inj (hjob.symm.trans hjob')
  exact ⟨job, hjob, congrArg digest hbytes, hrun, hruns, hcode pageLoader .fromArgs "" job hjob⟩

end HashLoader
