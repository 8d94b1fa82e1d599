import HashLoader.Proofs.Record.Forest

/-!
# What an encoder has written

An encoder holds bytes and the places of the length headers that it has still to set. A `Draft`
holds what the steps so far have spelled out: the items at the level of the innermost open record,
and those in front of it at each level around it. `Draft.encoder` writes a draft down, with zeros
for the lengths that are not known yet.

Each step takes the encoder of a draft to the encoder of the next draft (`apply_encoder`), and so
does a run (`run_encoder`), as long as what is written fits its length headers. A draft without open
records is a forest, whose bytes hold every length where it belongs; `run_writes_forest` puts this
together.
-/

namespace HashLoader.Record

/-! ## Drafts -/

/-- What steps have spelled out. -/
structure Draft where
  /-- The items in the innermost open record, or all of them if no record is open. -/
  items : Forest
  /-- The items in front of each open record, innermost first. -/
  outer : List Forest
deriving DecidableEq, Repr

namespace Draft

/-- Nothing is spelled out. -/
def empty : Draft := ⟨.nil, []⟩

/-- Adds what a step spells out. Without an open record there is nothing to end. -/
def advance (d : Draft) : Encoder.Step → Draft
  | .scalar v => { d with items := d.items ++ .scalar v .nil }
  | .blob data => { d with items := d.items ++ .blob data .nil }
  | .beginRecord => ⟨.nil, d.items :: d.outer⟩
  | .endRecord =>
    match d.outer with
    | [] => d
    | front :: outer => ⟨front ++ .record d.items .nil, outer⟩

/-- Adds what steps spell out, one after another. -/
def run (d : Draft) (steps : List Encoder.Step) : Draft := steps.foldl advance d

/-- A run goes on where the run before it ended. -/
theorem run_append (d : Draft) (front back : List Encoder.Step) :
    d.run (front ++ back) = (d.run front).run back := List.foldl_append

/-- Every blob and every body of a finished record is short enough for its length header. -/
def Fits (d : Draft) : Prop := d.items.Fits ∧ ∀ f ∈ d.outer, f.Fits

instance : DecidablePred Fits := fun d =>
  inferInstanceAs (Decidable (d.items.Fits ∧ ∀ f ∈ d.outer, f.Fits))

/-- What fits after a step fitted before it. -/
theorem fits_of_advance {d : Draft} {step : Encoder.Step} (h : (d.advance step).Fits) : d.Fits := by
  obtain ⟨items, outer⟩ := d
  obtain ⟨hitems, houter⟩ := h
  cases step with
  | scalar v => exact ⟨(Forest.fits_append.1 hitems).1, houter⟩
  | blob data => exact ⟨(Forest.fits_append.1 hitems).1, houter⟩
  | beginRecord =>
    exact ⟨houter items List.mem_cons_self, fun f hf => houter f (List.mem_cons_of_mem _ hf)⟩
  | endRecord =>
    cases outer with
    | nil => exact ⟨hitems, houter⟩
    | cons front outer =>
      obtain ⟨hfront, -, hbody, -⟩ := Forest.fits_append.1 hitems
      exact ⟨hbody, List.forall_mem_cons.2 ⟨hfront, houter⟩⟩

/-- What fits after a run fitted before it. -/
theorem fits_of_run {d : Draft} {steps : List Encoder.Step} (h : (d.run steps).Fits) : d.Fits := by
  induction steps generalizing d with
  | nil => exact h
  | cons step rest ih => exact fits_of_advance (ih h)

/-- What fits after a run fitted after the front of it. -/
theorem fits_of_prefix {d : Draft} {front steps : List Encoder.Step} (h : (d.run steps).Fits)
    (hfront : front <+: steps) : (d.run front).Fits := by
  obtain ⟨back, rfl⟩ := hfront
  rw [run_append] at h
  exact fits_of_run h

/-! ## The encoder of a draft -/

/-- The encoder in which the records around a level have just begun. -/
def opening : List Forest → Encoder
  | [] => .empty
  | front :: outer => ((opening outer).put front.bytes).beginRecord

/-- The encoder that has written a draft. -/
def encoder (d : Draft) : Encoder := (opening d.outer).put d.items.bytes

/-- As many records are open in the encoder as in the draft. -/
theorem opened_encoder (d : Draft) : d.encoder.opened = [] ↔ d.outer = [] := by
  obtain ⟨items, outer⟩ := d
  cases outer with
  | nil => exact iff_of_true rfl rfl
  | cons front outer => exact iff_of_false (List.cons_ne_nil _ _) (List.cons_ne_nil _ _)

/-- A step takes the encoder of a draft to the encoder of the next draft. Only the end of a record
fails, and only if no record is open. -/
theorem apply_encoder {d : Draft} {step : Encoder.Step} (h : (d.advance step).Fits) :
    d.encoder.apply step = if step = .endRecord ∧ d.outer = [] then
      .error (.invalidTag Tag.record.toByte) else .ok (d.advance step).encoder := by
  obtain ⟨items, outer⟩ := d
  obtain ⟨hitems, houter⟩ := h
  cases step with
  | scalar v =>
    rw [if_neg (by simp), Encoder.apply, Encoder.scalar_eq_put, encoder, encoder,
      Encoder.put_put, advance, Forest.bytes_append]
    rfl
  | blob data =>
    obtain ⟨-, hdata, -⟩ := Forest.fits_append.1 hitems
    rw [if_neg (by simp), Encoder.apply, Encoder.blob_eq_put hdata, encoder, encoder,
      Encoder.put_put, advance, Forest.bytes_append, Forest.bytes, Forest.bytes, List.append_nil]
  | beginRecord =>
    rw [if_neg (by simp), Encoder.apply, encoder, encoder, advance, Forest.bytes,
      Encoder.put_nil, opening]
  | endRecord =>
    cases outer with
    | nil => rfl
    | cons front outer =>
      -- What was written since the record began is its body.
      obtain ⟨-, hlength, -⟩ := Forest.fits_append.1 hitems
      rw [if_neg (by simp), Encoder.apply, encoder, encoder, opening,
        Encoder.endRecord_put hlength, Encoder.put_put, advance, Forest.bytes_append, Forest.bytes,
        Forest.bytes, List.append_nil]

/-- A step that fails leaves the encoder of a draft without open records as it was. -/
theorem abandon_encoder {d : Draft} (h : d.outer = []) (step : Encoder.Step) :
    d.encoder.abandon step = d.encoder := by
  cases step with
  | scalar v | blob data | beginRecord => rfl
  | endRecord =>
    have hopened := (opened_encoder d).2 h
    rw [Encoder.abandon, hopened, List.tail_nil, ← hopened]

/-- A step that may fail takes the encoder of a draft to the encoder of the next draft. -/
theorem advance_encoder {d : Draft} {step : Encoder.Step} (h : (d.advance step).Fits) :
    d.encoder.advance step = (d.advance step).encoder := by
  by_cases hend : step = .endRecord ∧ d.outer = []
  · have hsame : d.advance step = d := by rw [hend.1, advance, hend.2]
    rw [Encoder.advance, apply_encoder h, if_pos hend, hsame]
    exact abandon_encoder hend.2 step
  · rw [Encoder.advance, apply_encoder h, if_neg hend]

/-- A run takes the encoder of a draft to the encoder of what the run spells out. -/
theorem run_encoder {d : Draft} {steps : List Encoder.Step} (h : (d.run steps).Fits) :
    d.encoder.run steps = (d.run steps).encoder := by
  induction steps generalizing d with
  | nil => rfl
  | cons step rest ih =>
    have hstep : (d.advance step).Fits := fits_of_run h
    rw [Encoder.run, List.foldl_cons, advance_encoder hstep]
    exact ih h

end Draft

/-! ## Runs of an encoder -/

namespace Encoder

/-- The steps of a run that succeed. -/
def accepted (e : Encoder) : List Step → List Step
  | [] => []
  | step :: rest =>
    match e.apply step with
    | .ok e' => step :: e'.accepted rest
    | .error _ => (e.abandon step).accepted rest

/-- A step that succeeds is one of the accepted ones. -/
theorem accepted_of_ok {e e' : Encoder} {step : Step} (h : e.apply step = .ok e') (rest : List Step) :
    e.accepted (step :: rest) = step :: e'.accepted rest := by
  rw [accepted, h]

/-- A step that fails is passed over. -/
theorem accepted_of_error {e : Encoder} {step : Step} {error : Error} (h : e.apply step = .error error)
    (rest : List Step) : e.accepted (step :: rest) = (e.abandon step).accepted rest := by
  rw [accepted, h]

/-- Records that were begun are open until they are ended. -/
theorem count_accepted {d : Draft} {steps : List Step} (h : (d.run steps).Fits) :
    d.outer.length + (d.encoder.accepted steps).count .beginRecord
      = (d.run steps).outer.length + (d.encoder.accepted steps).count .endRecord := by
  induction steps generalizing d with
  | nil => rfl
  | cons step rest ih =>
    have hrest := ih (d := d.advance step) h
    have happly := Draft.apply_encoder (Draft.fits_of_run (d := d.advance step) h)
    show _ = ((d.advance step).run rest).outer.length + _
    by_cases hend : step = .endRecord ∧ d.outer = []
    -- No record is open, so the step fails and the draft stays.
    · have hsame : d.advance step = d := by rw [hend.1, Draft.advance, hend.2]
      rw [if_pos hend] at happly
      rw [accepted_of_error happly, Draft.abandon_encoder hend.2]
      rw [hsame] at hrest ⊢
      exact hrest
    · rw [if_neg hend] at happly
      rw [accepted_of_ok happly, List.count_cons, List.count_cons]
      cases step with
      | scalar v => exact hrest
      | blob data => exact hrest
      | beginRecord =>
        have houter : (d.advance .beginRecord).outer.length = d.outer.length + 1 := List.length_cons
        simp only [beq_self_eq_true, if_true, beq_iff_eq, reduceCtorEq, if_false]
        omega
      | endRecord =>
        obtain ⟨front, outer, houter⟩ := List.exists_cons_of_ne_nil (fun hnil => hend ⟨rfl, hnil⟩)
        have hlength : (d.advance .endRecord).outer.length + 1 = d.outer.length := by
          rw [Draft.advance, houter, List.length_cons]
        simp only [beq_self_eq_true, if_true, beq_iff_eq, reduceCtorEq, if_false]
        omega

/-- As many records were ended as begun if no record is open. -/
theorem count_accepted_eq_iff {steps : List Step} (h : (Draft.empty.run steps).Fits) :
    (empty.accepted steps).count .endRecord = (empty.accepted steps).count .beginRecord ↔
      (Draft.empty.run steps).outer = [] := by
  have hcount := count_accepted h
  rw [show Draft.empty.encoder = empty from rfl, show Draft.empty.outer = [] from rfl,
    List.length_nil, Nat.zero_add] at hcount
  rw [← List.length_eq_zero_iff]
  omega

/-- Writing step by step is writing down the forest that the steps spell out. As long as every blob
and every body fits its length header, a step fails only if it ends a record where none is open, and
then it changes nothing; the bytes can be had whenever as many records were ended as begun, and they
are those of the forest, with the length of every body in front of it and all else as it was
written. -/
theorem run_writes_forest {steps : List Step} (hfits : (Draft.empty.run steps).Fits) :
    (∀ front step, front ++ [step] <+: steps →
      (∀ error, (empty.run front).apply step = .error error ↔
        step = .endRecord ∧ error = .invalidTag Tag.record.toByte ∧
          (empty.accepted front).count .endRecord = (empty.accepted front).count .beginRecord) ∧
      (∀ error, (empty.run front).apply step = .error error →
        empty.run (front ++ [step]) = empty.run front)) ∧
    ∀ front, front <+: steps →
      ((∃ b, (empty.run front).finish = .ok b) ↔
        (empty.accepted front).count .endRecord = (empty.accepted front).count .beginRecord) ∧
      ∀ b, (empty.run front).finish = .ok b →
        (Draft.empty.run front).outer = [] ∧ b = (Draft.empty.run front).items.bytes := by
  -- On steps that fit, the encoder is that of the draft, so everything is read off the draft.
  have hrun : ∀ front, front <+: steps → empty.run front = (Draft.empty.run front).encoder :=
    fun front hfront => Draft.run_encoder (Draft.fits_of_prefix hfits hfront)
  refine ⟨fun front step hprefix => ⟨fun error => ?_, fun error herror => ?_⟩,
    fun front hfront => ⟨?_, fun b hb => ?_⟩⟩
  · have hfront : front <+: steps := (List.prefix_append front [step]).trans hprefix
    have hstep := Draft.fits_of_prefix hfits hprefix
    rw [Draft.run_append] at hstep
    rw [hrun front hfront, Draft.apply_encoder hstep,
      count_accepted_eq_iff (Draft.fits_of_prefix hfits hfront)]
    split
    · next hend => simp [hend, eq_comm]
    · next hend => simpa using fun h _ => fun h' => hend ⟨h, h'⟩
  · have hfront : front <+: steps := (List.prefix_append front [step]).trans hprefix
    have hstep := Draft.fits_of_prefix hfits hprefix
    rw [Draft.run_append] at hstep
    rw [run, List.foldl_append]
    -- A step that fails ends a record where none is open, and then the draft gives nothing up.
    show advance (empty.run front) step = empty.run front
    rw [advance, herror]
    rw [hrun front hfront, Draft.apply_encoder hstep] at herror
    rw [hrun front hfront]
    split at herror
    · next hend => exact Draft.abandon_encoder hend.2 step
    · cases herror
  · rw [hrun front hfront, count_accepted_eq_iff (Draft.fits_of_prefix hfits hfront),
      ← Draft.opened_encoder, finish]
    split
    · next hclosed => simp [hclosed]
    · next hopen => simp [hopen]
  · rw [hrun front hfront, finish] at hb
    split at hb
    · next hclosed =>
      have houter := (Draft.opened_encoder _).1 hclosed
      refine ⟨houter, ?_⟩
      rw [← Except.ok.inj hb, Draft.encoder, houter]
      rfl
    · cases hb

/-- Steps that end a record too early, and then write a record inside a record and a scalar behind
it. -/
def nestedSteps : List Step :=
  [.endRecord, .beginRecord, .blob [1, 2], .beginRecord, .scalar 7, .endRecord, .endRecord, .scalar 9]

/-- Both lengths are in front of their bodies, and the step that failed has left nothing. -/
theorem run_writes_forest_nested :
    (Draft.empty.run nestedSteps).Fits ∧
      (empty.run nestedSteps).finish = .ok [0x40, 14, 0, 0, 0, 0x11, 2, 0, 0, 0, 1, 2,
        0x40, 2, 0, 0, 0, 0x03, 7, 0x03, 9] := by
  have hfits : (Draft.empty.run nestedSteps).Fits := by decide
  obtain ⟨-, hfinish⟩ := run_writes_forest hfits
  obtain ⟨hbalanced, hbytes⟩ := hfinish nestedSteps List.prefix_rfl
  obtain ⟨b, hb⟩ := hbalanced.2 (by decide)
  obtain ⟨-, rfl⟩ := hbytes b hb
  exact ⟨hfits, hb.trans (congrArg Except.ok (by decide))⟩

end Encoder

end HashLoader.Record
