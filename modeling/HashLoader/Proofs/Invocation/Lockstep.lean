import HashLoader.Proofs.Invocation.Log

/-!
# Two invocations in lockstep

Two configurations with the same sizes (`Config.SameSizes`) make the same of what the host says, and
then ask an engine to run the same code. They can still differ in the budget and in whether messages
are kept. If the engine answers alike in related stores (`Engine.Lockstep`), then the two
invocations come to the same, in related stores again (`Loader.drive_alike`). One answer may be
excused: under different budgets, that code is broken off.

The proof goes stage by stage: one call, the course of a guest, the job.
-/

namespace HashLoader

variable {E : Engine} {budget budget' : Nat} {excused : Prop} {related : E.Store → E.Store → Prop}

/-- An engine answers alike in related stores under two budgets, and leaves related stores. Under
the first one code may be broken off instead, if that is excused. -/
structure Engine.Lockstep (E : Engine) (budget budget' : Nat) (excused : Prop)
    (related : E.Store → E.Store → Prop) : Prop where
  addMemory : ∀ memory {s t}, related s t → related (E.addMemory memory s) (E.addMemory memory t)
  start : ∀ linked {s t}, related s t →
    (E.start budget linked s).1 = (E.start budget' linked t).1 ∧
      related (E.start budget linked s).2 (E.start budget' linked t).2 ∨
    excused ∧ (E.start budget linked s).1 = .error .outOfCycles
  call : ∀ f args {s t}, related s t →
    (E.call budget f args s).1 = (E.call budget' f args t).1 ∧
      related (E.call budget f args s).2 (E.call budget' f args t).2 ∨
    excused ∧ (E.call budget f args s).1 = .error .outOfCycles

/-- Two invocations make the same calls of entry points and come to the same, in related stores, or
the first one was broken off and that is excused. -/
def Run.Alike (excused : Prop) (related : E.Store → E.Store → Prop) (x x' : List EntryCall × Run E) :
    Prop :=
  (∃ t, related x.2.store t ∧ x' = (x.1, { x.2 with store := t })) ∨
    excused ∧ x.2.error = some .exceededMaxCycles

/-- Two configurations have the same sizes. -/
structure Config.SameSizes (config config' : Config) : Prop where
  maxScriptSize : config.maxScriptSize = config'.maxScriptSize
  maxCodeSize : config.maxCodeSize = config'.maxCodeSize
  arenaSize : config.arenaSize = config'.arenaSize

/-! ## Guests -/

/-- A call of an entry point in a related store gives the same, unless it was broken off. -/
theorem Guest.call_alike (h : E.Lockstep budget budget' excused related) {g g₁ : Guest E}
    {t : E.Store} {c : EntryCall} {result : Except LoaderError Int32} (hstore : related g.store t)
    (hcall : g.call budget c = (result, g₁)) :
    (∃ t₁, related g₁.store t₁ ∧
      Guest.call budget' { g with store := t } c = (result, { g₁ with store := t₁ })) ∨
    excused ∧ result = .error .exceededMaxCycles := by
  rw [Guest.call_eq] at hcall ⊢
  obtain ⟨hresult, rfl⟩ := Prod.mk.inj hcall
  obtain ⟨hsame, hleft⟩ | ⟨hexcused, hout⟩ := h.call (g.function c.entry) c.values hstore
  · refine .inl ⟨_, hleft, ?_⟩
    dsimp only
    rw [← hsame, hresult]
  · rw [hout] at hresult
    exact .inr ⟨hexcused, hresult.symm⟩

/-- One that gives a word was not broken off. -/
theorem Guest.call_alike_of_ok (h : E.Lockstep budget budget' excused related) {g g₁ : Guest E}
    {t : E.Store} {c : EntryCall} {word : Int32} (hstore : related g.store t)
    (hcall : g.call budget c = (.ok word, g₁)) :
    ∃ t₁, related g₁.store t₁ ∧
      Guest.call budget' { g with store := t } c = (.ok word, { g₁ with store := t₁ }) := by
  obtain hsame | ⟨-, hout⟩ := Guest.call_alike h hstore hcall
  · exact hsame
  · cases hout

/-- One that fails gives the same failure, or may have been broken off. -/
theorem Guest.call_alike_of_error (h : E.Lockstep budget budget' excused related) {g g₁ : Guest E}
    {t : E.Store} {c : EntryCall} {e : LoaderError} (hstore : related g.store t)
    (hcall : g.call budget c = (.error e, g₁)) :
    (∃ t₁, related g₁.store t₁ ∧
      Guest.call budget' { g with store := t } c = (.error e, { g₁ with store := t₁ })) ∨
    excused ∧ some e = some .exceededMaxCycles := by
  obtain hsame | ⟨hexcused, hout⟩ := Guest.call_alike h hstore hcall
  · exact .inl hsame
  · exact .inr ⟨hexcused, congrArg some (Except.error.inj hout)⟩

variable {config config' : Config}

/-- A guest comes to the same in a related store, unless a call was broken off. -/
theorem Guest.Course.alike (h : E.Lockstep config.maxCycles config'.maxCycles excused related)
    {g : Guest E} {t : E.Store} {calls : List (Guest E × EntryCall)} {r : Run E}
    (hcourse : g.Course config calls r) (hstore : related g.store t) :
    Run.Alike excused related (calls.map Prod.snd, r)
      ((Guest.calls config' { g with store := t }).map Prod.snd,
        Guest.run config' { g with store := t }) := by
  -- What a guest is called with does not depend on its store.
  have hconstruct : ∀ (g : Guest E) t, constructCall { g with store := t } = g.constructCall :=
    fun _ _ => rfl
  have hevaluate : ∀ (g : Guest E) t ctx,
      evaluateCall { g with store := t } ctx = g.evaluateCall ctx := fun _ _ _ => rfl
  unfold Guest.run Guest.calls
  dsimp only
  rw [hconstruct]
  -- The second run is followed call by call. Only the last call of a course may be broken off,
  -- since the others gave a word.
  cases hcourse with
  | unconstructed hfirst =>
    obtain ⟨t₁, hstore₁, hfirst'⟩ | hout := Guest.call_alike_of_error h hstore hfirst
    · rw [hfirst']
      exact .inl ⟨t₁, hstore₁, rfl⟩
    · exact .inr hout
  | null hfirst =>
    obtain ⟨t₁, hstore₁, hfirst'⟩ := Guest.call_alike_of_ok h hstore hfirst
    rw [hfirst']
    exact .inl ⟨t₁, hstore₁, rfl⟩
  | interrupted hfirst hctx hsecond =>
    obtain ⟨t₁, hstore₁, hfirst'⟩ := Guest.call_alike_of_ok h hstore hfirst
    rw [hfirst']
    simp only [if_neg hctx, hevaluate]
    obtain ⟨t₂, hstore₂, hsecond'⟩ | hout := Guest.call_alike_of_error h hstore₁ hsecond
    · rw [hsecond']
      exact .inl ⟨t₂, hstore₂, rfl⟩
    · exact .inr hout
  | declined hfirst hctx hsecond hstatus =>
    obtain ⟨t₁, hstore₁, hfirst'⟩ := Guest.call_alike_of_ok h hstore hfirst
    obtain ⟨t₂, hstore₂, hsecond'⟩ := Guest.call_alike_of_ok h hstore₁ hsecond
    rw [hfirst']
    simp only [if_neg hctx, hevaluate, hsecond', if_pos hstatus]
    exact .inl ⟨t₂, hstore₂, rfl⟩
  | kept hfirst hctx hsecond hthird =>
    obtain ⟨t₁, hstore₁, hfirst'⟩ := Guest.call_alike_of_ok h hstore hfirst
    obtain ⟨t₂, hstore₂, hsecond'⟩ := Guest.call_alike_of_ok h hstore₁ hsecond
    rw [hfirst']
    simp only [if_neg hctx, hevaluate, hsecond', ne_eq, not_true_eq_false, if_false]
    obtain ⟨t₃, hstore₃, hthird'⟩ | hout := Guest.call_alike_of_error h hstore₂ hthird
    · rw [hthird']
      exact .inl ⟨t₃, hstore₃, rfl⟩
    · exact .inr hout
  | finished hfirst hctx hsecond hthird =>
    obtain ⟨t₁, hstore₁, hfirst'⟩ := Guest.call_alike_of_ok h hstore hfirst
    obtain ⟨t₂, hstore₂, hsecond'⟩ := Guest.call_alike_of_ok h hstore₁ hsecond
    obtain ⟨t₃, hstore₃, hthird'⟩ := Guest.call_alike_of_ok h hstore₂ hthird
    rw [hfirst']
    simp only [if_neg hctx, hevaluate, hsecond', hthird', ne_eq, not_true_eq_false, if_false]
    exact .inl ⟨t₃, hstore₃, rfl⟩

/-! ## Jobs -/

/-- Code is made ready in the same way in a related store, unless it was broken off. -/
theorem Job.instantiate_alike (h : E.Lockstep config.maxCycles config'.maxCycles excused related)
    (harena : config.arenaSize = config'.arenaSize) (job : Job E.toCompiler)
    (symbols : Symbols E.toCompiler) {s t : E.Store} (hstore : related s t) :
    (∃ e left left', related left left' ∧
      job.instantiate config symbols s = .error (e, left) ∧
      job.instantiate config' symbols t = .error (e, left')) ∨
    (∃ guest left, related guest.store left ∧
      job.instantiate config symbols s = .ok guest ∧
      job.instantiate config' symbols t = .ok { guest with store := left }) ∨
    excused ∧ ∃ left, job.instantiate config symbols s = .error (.exceededMaxCycles, left) := by
  unfold Job.instantiate
  rw [← harena]
  cases ExecutionArena.reserve config.arenaSize with
  | error e => exact .inl ⟨e, s, t, hstore, rfl, rfl⟩
  | ok arena =>
    dsimp only
    rcases stageInput arena.memory job.payload job.label with e | ⟨memory, input⟩
    · exact .inl ⟨e, s, t, hstore, rfl, rfl⟩
    dsimp only
    have hadded := h.addMemory memory hstore
    cases E.link (guestEnvironment memory) job.image.module with
    | error reason => exact .inl ⟨_, _, _, hadded, rfl, rfl⟩
    | ok linked =>
      dsimp only
      -- The start is the only step that runs code, so the only one that may be broken off.
      have halike := h.start linked hadded
      rcases hstart : E.start config.maxCycles linked (E.addMemory memory s) with ⟨answer, left⟩
      rcases hstart' : E.start config'.maxCycles linked (E.addMemory memory t) with ⟨answer', left'⟩
      rw [hstart, hstart'] at halike
      obtain ⟨hsame, hleft⟩ | ⟨hexcused, hout⟩ := halike
      · obtain rfl : answer = answer' := hsame
        cases answer with
        | error e => exact .inl ⟨_, _, _, hleft, rfl, rfl⟩
        | ok inst =>
          dsimp only
          -- Binding looks at the instance alone.
          rcases symbols.construct.bind inst with e | construct
          · exact .inl ⟨e, _, _, hleft, rfl, rfl⟩
          rcases symbols.evaluate.bind inst with e | evaluate
          · exact .inl ⟨e, _, _, hleft, rfl, rfl⟩
          rcases symbols.teardown.bind inst with e | teardown
          · exact .inl ⟨e, _, _, hleft, rfl, rfl⟩
          exact .inr (.inl ⟨_, left', hleft, rfl, rfl⟩)
      · cases hout
        exact .inr (.inr ⟨hexcused, left, rfl⟩)

/-- A job comes to the same in a related store, unless its code was broken off. -/
theorem Job.run_alike (h : E.Lockstep config.maxCycles config'.maxCycles excused related)
    (harena : config.arenaSize = config'.arenaSize) (job : Job E.toCompiler) {s t : E.Store}
    (hstore : related s t) :
    Run.Alike excused related ((job.entryCalls config s).map Prod.snd, job.run config s)
      ((job.entryCalls config' t).map Prod.snd, job.run config' t) := by
  unfold Job.run Job.entryCalls Job.guest?
  cases hsymbols : Symbols.find job.image with
  | error e => exact .inl ⟨t, hstore, rfl⟩
  | ok symbols =>
    dsimp only
    obtain ⟨e, left, left', hleft, hmade, hmade'⟩ | ⟨guest, left, hleft, hmade, hmade'⟩ |
      ⟨hexcused, left, hmade⟩ := Job.instantiate_alike h harena job symbols hstore
    · rw [hmade, hmade']
      exact .inl ⟨left', hleft, rfl⟩
    · rw [hmade, hmade']
      exact (guest.course config).alike h hleft
    · rw [hmade]
      exact .inr ⟨hexcused, rfl⟩

/-! ## Whole invocations -/

/-- What is prepared depends on the sizes alone. -/
theorem prepare_congr {σ : Type} {C : Compiler} (h : config.SameSizes config') (host : Host σ)
    (payload : Payload) (label : String) (s : σ) :
    prepare C host config payload label s = prepare C host config' payload label s := by
  have hrequest : ∀ raw, request config payload label raw = request config' payload label raw := by
    intro raw
    rw [request, request, h.maxScriptSize]
  unfold prepare
  rw [h.maxScriptSize, h.maxCodeSize]
  simp only [hrequest]

namespace Loader

variable {σ : Type} {loader loader' : Loader E} {host : Host σ} {payload : Payload} {label : String}
  {s : σ}

/-- What is said to the host depends on the sizes alone. -/
theorem dialogue_congr (h : loader.config.SameSizes loader'.config) :
    loader.dialogue host payload label s = loader'.dialogue host payload label s := by
  rw [dialogue, dialogue, invoke_eq, invoke_eq, prepare_congr h]

/-- An invocation makes the same calls and comes to the same in related stores, unless its code was
broken off. -/
theorem drive_alike (hsizes : loader.config.SameSizes loader'.config)
    (h : E.Lockstep loader.config.maxCycles loader'.config.maxCycles excused related)
    (hstore : related loader.newStore loader'.newStore) (host : Host σ) (payload : Payload)
    (label : String) (s : σ) :
    Run.Alike excused related
        ((loader.entryCalls host payload label s).map Prod.snd, (loader.drive host payload label s).1)
        ((loader'.entryCalls host payload label s).map Prod.snd,
          (loader'.drive host payload label s).1) ∧
      (loader.drive host payload label s).2 = (loader'.drive host payload label s).2 := by
  unfold entryCalls job?
  rw [drive_eq, drive_eq, ← prepare_congr hsizes]
  refine ⟨?_, rfl⟩
  cases (prepare E.toCompiler host loader.config payload label s).1 with
  | error e => exact .inl ⟨_, hstore, rfl⟩
  | ok job => exact job.run_alike h hsizes.arenaSize hstore

end Loader

end HashLoader
