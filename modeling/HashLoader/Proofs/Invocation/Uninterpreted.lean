import HashLoader.Proofs.Host.Addressing
import HashLoader.Proofs.Invocation.Course

/-!
# Parts of a script that nobody reads

A script says more than an invocation uses. The code hash and the hash type of the envelope, the
reserved bytes, the payload behind the reference when another one is given, and whether the
reference is to data or to data of a later revision: none of them has any influence.
`Host.DifferInScript` relates two hosts that hand out different scripts and agree on everything
else. If both scripts name the same code, the two invocations go on alike from the script on
(`Host.DifferInScript.prepare`).

What is said to the two hosts is compared by recording it: recorded hosts differ in the script again
(`Host.DifferInScript.recorded`), now with states that hold the same calls and the same exchanges
about cells.
-/

namespace HashLoader

variable {σ τ : Type} {C : Compiler} {E : Engine}

/-! ## References to the same code -/

/-- What a resolution uses of a reference is its hash and whether that covers the data. -/
theorem CodeImage.ofArena_congr {r r' : CodeReference} (hhash : r.codeHash = r'.codeHash)
    (htype : r.hashType.isData = r'.hashType.isData) (arena : CodeArena) (len : Nat) :
    CodeImage.ofArena C r arena len = CodeImage.ofArena C r' arena len := by
  rw [ofArena, ofArena, hhash, htype]

/-- Two references with one hash that both cover the data, or both do not, are resolved alike. -/
theorem resolve_congr {host : Host σ} {r r' : CodeReference} (hhash : r.codeHash = r'.codeHash)
    (htype : r.hashType.isData = r'.hashType.isData) (capacity : Nat) (s : σ) :
    resolve C host r capacity s = resolve C host r' capacity s := by
  have hload : ∀ index s, CodeImage.load C host r capacity index s
      = CodeImage.load C host r' capacity index s := by
    intro index s
    unfold CodeImage.load
    simp only [CodeImage.ofArena_congr hhash htype]
  rw [resolve, resolve, locate, locate, HashType.field, HashType.field, hhash, htype]
  simp only [hload]

/-! ## Scripts that ask for the same -/

section Scripts

variable {config : Config} {payload : Payload} {label : String} {script script' input input' : Bytes}
  {r r' : CodeReference}

/-- A script that carries a reference asks for it, if the bytes to be evaluated fit. -/
theorem request_of_verify {record : Record.Script} (hfits : script.length ≤ config.maxScriptSize)
    (hverify : Record.Script.verify script = .ok record)
    (hdecode : CodeReference.decode record.args.bytes = .ok r) :
    request config payload label script
      = (checkInput (payload.bytes record.args.bytes) label).map
          fun _ => (r, payload.bytes record.args.bytes) := by
  have hparse : Envelope.parse script config.maxScriptSize = .ok ⟨script, record⟩ := by
    rw [Envelope.parse, if_neg (Nat.not_lt.2 hfits), hverify]
  have hargs : Envelope.args ⟨script, record⟩ = record.args.bytes := rfl
  rw [request, hparse, ok_bind, hargs, hdecode, ok_bind]
  cases checkInput (payload.bytes record.args.bytes) label with
  | error e => rfl
  | ok => rfl

/-- Two scripts ask for the same. Each fits the buffer and carries a reference to the same code, and
their payloads are the same, or another one is given. -/
structure AskAlike (limit : Nat) (payload : Payload) (script script' : Bytes) (r r' : CodeReference)
    (input input' : Bytes) : Prop where
  fits : script.length ≤ limit
  fits' : script'.length ≤ limit
  carries : LocalHost.Carries script r input
  carries' : LocalHost.Carries script' r' input'
  codeHash : r.codeHash = r'.codeHash
  /-- Both hashes cover the data, or both cover the type script. -/
  isData : r.hashType.isData = r'.hashType.isData
  input : payload = .fromArgs → input = input'

/-- Scripts that ask for the same fail with the same failure, or ask for their references with the
same bytes. -/
theorem AskAlike.request
    (h : AskAlike config.maxScriptSize payload script script' r r' input input') (label : String) :
    (∃ e, request config payload label script = .error e ∧
      request config payload label script' = .error e) ∨
    ∃ b, request config payload label script = .ok (r, b) ∧
      request config payload label script' = .ok (r', b) := by
  obtain ⟨record, hverify, hdecode, hpayload⟩ := h.carries
  obtain ⟨record', hverify', hdecode', hpayload'⟩ := h.carries'
  have hbytes : payload.bytes record.args.bytes = payload.bytes record'.args.bytes := by
    cases payload with
    | fromArgs =>
      calc CodeReference.payload record.args.bytes = input := hpayload
        _ = input' := h.input rfl
        _ = CodeReference.payload record'.args.bytes := hpayload'.symm
    | literal b => rfl
  rw [request_of_verify h.fits hverify hdecode, request_of_verify h.fits' hverify' hdecode', hbytes]
  cases checkInput (payload.bytes record'.args.bytes) label with
  | error e => exact .inl ⟨e, rfl, rfl⟩
  | ok => exact .inr ⟨_, rfl, rfl⟩

end Scripts

/-! ## Hosts that differ in the script -/

/-- An exchange is about a cell, not about the script. -/
def Exchange.isAboutCell : Exchange → Bool
  | script _ _ _ _ => false
  | data _ _ _ _ _ | hash _ _ _ => true

namespace Host

/-- A host hands out a script: it tells the length, and copies the script to the front of every
buffer that can hold it. -/
def HandsOut (host : Host σ) (script : Bytes) (s : σ) : Prop :=
  ∀ (n : Nat) (buffer : Vector UInt8 n), script.length ≤ n →
    (host.loadScript buffer 0 s).1.result = .ok script.length ∧
      (host.loadScript buffer 0 s).1.buffer.toList.take script.length = script

/-- Two hosts hand out a script each and agree on everything else. -/
structure DifferInScript (host : Host σ) (other : Host τ) (related : σ → τ → Prop)
    (script script' : Bytes) : Prop extends host.AgreesOnCells other related where
  left : ∀ {s : σ} {t : τ}, related s t → host.HandsOut script s
  right : ∀ {s : σ} {t : τ}, related s t → other.HandsOut script' t
  /-- Handing out the scripts leaves related states. -/
  loadScript : ∀ {n : Nat} (buffer : Vector UInt8 n) (offset : Nat) {s : σ} {t : τ}, related s t →
    related (host.loadScript buffer offset s).2 (other.loadScript buffer offset t).2

/-- A script that a host hands out is loaded into a buffer that can hold it. -/
theorem HandsOut.load {host : Host σ} {script : Bytes} {s : σ} {size : Nat}
    (h : host.HandsOut script s) (hfits : script.length ≤ size) :
    Envelope.load host size s
      = (.ok script, (host.loadScript (Vector.replicate size 0) 0 s).2) := by
  have hanswer := h size (Vector.replicate size 0) hfits
  rw [Envelope.load]
  rcases hcall : host.loadScript (Vector.replicate size 0) 0 s with ⟨⟨result, buffer⟩, s'⟩
  rw [hcall] at hanswer
  obtain ⟨hresult, hfront⟩ := hanswer
  obtain rfl : result = .ok script.length := hresult
  dsimp only at hfront ⊢
  rw [if_neg (Nat.not_lt.2 hfits), hfront]

namespace DifferInScript

variable {host : Host σ} {other : Host τ} {related : σ → τ → Prop} {script script' input input' : Bytes}
  {r r' : CodeReference} {s : σ} {t : τ} {payload : Payload}

/-- If the scripts ask for the same, the same is prepared. -/
theorem prepare {config : Config} (h : host.DifferInScript other related script script')
    (hs : related s t)
    (halike : AskAlike config.maxScriptSize payload script script' r r' input input')
    (label : String) :
    (prepare C host config payload label s).1 = (prepare C other config payload label t).1 ∧
      related (prepare C host config payload label s).2
        (prepare C other config payload label t).2 := by
  have hs' := h.loadScript (Vector.replicate config.maxScriptSize 0) 0 hs
  rw [HashLoader.prepare, HashLoader.prepare, (h.left hs).load halike.fits,
    (h.right hs).load halike.fits']
  -- Both scripts are refused with the same failure, or ask for the same code and bytes.
  obtain ⟨e, hrequest, hrequest'⟩ | ⟨b, hrequest, hrequest'⟩ := halike.request label
  · dsimp only
    rw [hrequest, hrequest']
    exact ⟨rfl, hs'⟩
  · dsimp only
    rw [hrequest, hrequest']
    dsimp only
    rw [resolve_congr halike.codeHash halike.isData]
    obtain ⟨hcode, hs''⟩ := h.toAgreesOnCells.resolve r' config.maxCodeSize hs'
    rcases hleft : resolve C host r' config.maxCodeSize
      (host.loadScript (Vector.replicate config.maxScriptSize 0) 0 s).2 with ⟨result, s''⟩
    rcases hright : resolve C other r' config.maxCodeSize
      (other.loadScript (Vector.replicate config.maxScriptSize 0) 0 t).2 with ⟨result', t''⟩
    rw [hleft, hright] at hcode hs''
    obtain rfl : result = result' := hcode
    cases result with
    | error e => exact ⟨rfl, hs''⟩
    | ok image => exact ⟨rfl, hs''⟩

/-- If the scripts ask for the same, the reports are the same. -/
theorem invoke {loader : Loader E} (h : host.DifferInScript other related script script')
    (hs : related s t)
    (halike : AskAlike loader.config.maxScriptSize payload script script' r r' input input')
    (label : String) :
    (loader.invoke host payload label s).1 = (loader.invoke other payload label t).1 ∧
      related (loader.invoke host payload label s).2 (loader.invoke other payload label t).2 := by
  obtain ⟨hjob, hs'⟩ := h.prepare hs halike label
  rw [loader.invoke_eq, loader.invoke_eq, hjob]
  exact ⟨rfl, hs'⟩

/-- Hosts that differ in the script still do when they are recorded. They get the same calls, and
give the same answers about cells. -/
theorem recorded (h : host.DifferInScript other related script script') :
    host.recorded.DifferInScript other.recorded
      (fun s t => related s.1 t.1 ∧ s.2.map Exchange.call = t.2.map Exchange.call ∧
        s.2.filter Exchange.isAboutCell = t.2.filter Exchange.isAboutCell) script script' where
  left hs n buffer hfits := h.left hs.1 n buffer hfits
  right hs n buffer hfits := h.right hs.1 n buffer hfits
  loadScript buffer offset s t hs := by
    obtain ⟨hstate, hcalls, hcells⟩ := hs
    refine ⟨h.loadScript buffer offset hstate, ?_, ?_⟩
    · simp [Host.recorded, hcalls, Exchange.call]
    · simp [Host.recorded, hcells, Exchange.isAboutCell]
  loadData buffer offset index s t hs := by
    obtain ⟨hstate, hcalls, hcells⟩ := hs
    obtain ⟨hanswer, hstate'⟩ := h.loadData buffer offset index hstate
    refine ⟨hanswer, hstate', ?_, ?_⟩
    · simp [Host.recorded, hcalls, Exchange.call]
    · simp [Host.recorded, hcells, hanswer]
  loadHash index field s t hs := by
    obtain ⟨hstate, hcalls, hcells⟩ := hs
    obtain ⟨hanswer, hstate'⟩ := h.loadHash index field hstate
    refine ⟨hanswer, hstate', ?_, ?_⟩
    · simp [Host.recorded, hcalls, Exchange.call]
    · simp [Host.recorded, hcells, hanswer]

end DifferInScript

end Host

/-- A local host hands out its script. -/
theorem LocalHost.handsOut (h : LocalHost) : LocalHost.host.HandsOut h.script h :=
  fun n buffer hfits => ⟨by simp [LocalHost.host, partialLoad],
    by simpa [LocalHost.host, partialLoad] using take_toList_overlay buffer hfits⟩

/-- Two local hosts with the same cells differ in the script. -/
theorem LocalHost.host_differInScript (script script' : Bytes) :
    LocalHost.host.DifferInScript LocalHost.host
      (fun h h' => h.script = script ∧ h'.script = script' ∧ h.cells = h'.cells) script script' where
  left := by
    rintro h h' ⟨rfl, -, -⟩
    exact h.handsOut
  right := by
    rintro h h' ⟨-, rfl, -⟩
    exact h'.handsOut
  loadScript _ _ _ _ hs := hs
  loadData buffer offset index h h' hs := by
    simp only [LocalHost.host, hs.2.2]
    cases h'.cells[index]? with
    | none => exact ⟨rfl, hs⟩
    | some c => exact ⟨rfl, hs⟩
  loadHash index field h h' hs := by
    simp only [LocalHost.host, hs.2.2]
    cases h'.cells[index]? with
    | none => exact ⟨rfl, hs⟩
    | some c => exact ⟨rfl, hs⟩

/-! ## The whole invocation -/

/-- What a script says besides the code and the bytes to be evaluated has no influence. Take two
hosts that differ in the script alone, and two scripts that ask for the same: the code hash and the
hash type of the envelope may differ, as may the reserved bytes, the revision of a reference to
data, and a payload that is not used. Then the reports are equal, the hosts receive the same calls,
and they are told the same about every cell. -/
theorem Loader.invoke_ignores_uninterpreted (loader : Loader E) {host : Host σ} {other : Host τ}
    {related : σ → τ → Prop} {script script' input input' : Bytes} {r r' : CodeReference}
    {payload : Payload} (label : String) {s : σ} {t : τ}
    (hdiffer : host.DifferInScript other related script script') (hs : related s t)
    (halike : AskAlike loader.config.maxScriptSize payload script script' r r' input input') :
    (loader.invoke host payload label s).1 = (loader.invoke other payload label t).1 ∧
      loader.calls host payload label s = loader.calls other payload label t ∧
      (loader.dialogue host payload label s).filter Exchange.isAboutCell
        = (loader.dialogue other payload label t).filter Exchange.isAboutCell := by
  obtain ⟨hreport, -⟩ := hdiffer.invoke hs halike label
  obtain ⟨-, -, hcalls, hcells⟩ :=
    hdiffer.recorded.invoke (s := (s, [])) (t := (t, [])) ⟨hs, rfl, rfl⟩ halike label
  refine ⟨hreport, ?_, hcells⟩
  rw [loader.calls_eq, loader.calls_eq]
  exact hcalls

namespace LocalHost

/-- A reference to the page by its data. -/
def plainReference : CodeReference := ⟨(0, 0), digest page, .data⟩

/-- The same with other reserved bytes, for a later revision. -/
def lateReference : CodeReference := ⟨(5, 6), digest page, .data1⟩

/-- A script of the loader with three bytes of payload. -/
def plainScript : Bytes := Record.ScriptFields.layout ⟨.zero, 2, plainReference.encode [1, 2, 3]⟩

/-- A script with another envelope around the same code and one byte of payload. -/
def lateScript : Bytes := Record.ScriptFields.layout ⟨.replicate 7, 9, lateReference.encode [4]⟩

/-- A local host with the page. -/
def pageDeployed : LocalHost := empty.run [.deployTyped (.replicate 1) page [0]]

/-- Both scripts run the page in the same way on other bytes. -/
theorem invoke_ignores_uninterpreted_page :
    AskAlike pageLoader.config.maxScriptSize (.literal [8]) plainScript lateScript plainReference
        lateReference [1, 2, 3] [4] ∧
      (pageLoader.invoke LocalHost.host (.literal [8]) "x" (pageDeployed.setScript plainScript)).1
        = (pageLoader.invoke LocalHost.host (.literal [8]) "x"
            (pageDeployed.setScript lateScript)).1 ∧
      pageLoader.calls LocalHost.host (.literal [8]) "x" (pageDeployed.setScript plainScript)
        = pageLoader.calls LocalHost.host (.literal [8]) "x" (pageDeployed.setScript lateScript) := by
  have hlength : ∀ (r : CodeReference) (codeHash : Hash) (t : UInt8) (input : Bytes),
      (Record.ScriptFields.layout ⟨codeHash, t, r.encode input⟩).length = input.length + 84 := by
    intro r codeHash t input
    rw [Record.ScriptFields.length_layout, CodeReference.length_encode]
  have halike : AskAlike pageLoader.config.maxScriptSize (.literal [8]) plainScript lateScript
      plainReference lateReference [1, 2, 3] [4] :=
    { fits := by rw [plainScript, hlength]; decide
      fits' := by rw [lateScript, hlength]; decide
      carries := carries_layout .zero 2 plainReference (by decide)
      carries' := carries_layout (.replicate 7) 9 lateReference (by decide)
      codeHash := rfl
      isData := rfl
      input := nofun }
  obtain ⟨hreport, hcalls, -⟩ := pageLoader.invoke_ignores_uninterpreted "x"
    (s := pageDeployed.setScript plainScript) (t := pageDeployed.setScript lateScript)
    (host_differInScript plainScript lateScript) ⟨rfl, rfl, rfl⟩ halike
  exact ⟨halike, hreport, hcalls⟩

end LocalHost

end HashLoader
