import HashLoader.Proofs.Record.Failing
import HashLoader.Record.Cursors

/-!
# Cursors stay in their ranges

A cursor is a view together with the range that it was created over: the whole buffer, the body of a
record, or what a copied cursor had left. Every step moves the one cursor that it is taken with, by
a number of bytes that `Moves` gives for each way the step can go, and creates at most one other
cursor (`Step.movesIn`). So what is left of a cursor is always a suffix of its range, and a piece of
the buffer (`Pool.run_inRange`).

Steps on a stack are taken with its top. A `Pool` is a stack of cursors all of which may be moved,
also one whose record was entered or that was copied, and the stack is the case in which it is
always the newest (`Cursors.views_run`).
-/

namespace HashLoader.Record

/-! ## Pieces of a view -/

namespace View

/-- The bytes of the view stand among those of another one, where its offset says. -/
def Inside (v w : View) : Prop :=
  ∃ front behind, w.bytes = front ++ (v.bytes ++ behind) ∧ v.offset = w.offset + front.length

/-- The view is what another one has left when some bytes were taken from it. -/
def SuffixOf (v w : View) : Prop :=
  ∃ front, w.bytes = front ++ v.bytes ∧ v.offset = w.offset + front.length

theorem SuffixOf.refl (v : View) : v.SuffixOf v := ⟨[], rfl, rfl⟩

theorem SuffixOf.trans {u v w : View} (huv : u.SuffixOf v) (hvw : v.SuffixOf w) : u.SuffixOf w := by
  obtain ⟨front, hv, hu⟩ := huv
  obtain ⟨front', hw, hv'⟩ := hvw
  refine ⟨front' ++ front, by rw [hw, hv, List.append_assoc], ?_⟩
  rw [hu, hv', List.length_append, Nat.add_assoc]

theorem SuffixOf.inside {v w : View} (h : v.SuffixOf w) : v.Inside w := by
  obtain ⟨front, hw, hv⟩ := h
  exact ⟨front, [], by rw [hw, List.append_nil], hv⟩

theorem Inside.trans {u v w : View} (huv : u.Inside v) (hvw : v.Inside w) : u.Inside w := by
  obtain ⟨front, behind, hv, hu⟩ := huv
  obtain ⟨front', behind', hw, hv'⟩ := hvw
  refine ⟨front' ++ front, behind ++ behind', ?_, ?_⟩
  · rw [hw, hv]
    simp only [List.append_assoc]
  · rw [hu, hv', List.length_append, Nat.add_assoc]

/-- Taking bytes that are there leaves a suffix. -/
theorem back_suffixOf {v : View} {n : Nat} (hn : n ≤ v.remaining) : (v.back n).SuffixOf v := by
  refine ⟨v.bytes.take n, (List.take_append_drop n v.bytes).symm, ?_⟩
  rw [List.length_take_of_le hn]
  rfl

end View

/-! ## What a step does -/

namespace Cursors

/-- The kind of item that a step asks for. -/
def Step.tag? : Step → Option Tag
  | .scalar => some .scalar
  | .blob => some .blob
  | .record => some .record
  | .peek | .finish | .copy | .drop => none

/-- A step that is taken with a view gives a result, moves the view by a number of bytes, and may
create another view. -/
inductive Moves (v : View) : Step → Except Error Item → Nat → Option View → Prop
  | peek {t : Tag} {rest : Bytes} : v.bytes = t.toByte :: rest → Moves v .peek (.ok (.tag t)) 0 none
  | peekNothing : v.bytes = [] → Moves v .peek (.error .unexpectedEnd) 0 none
  | peekOther {x : UInt8} {rest : Bytes} : v.bytes = x :: rest → Tag.ofByte? x = none →
      Moves v .peek (.error (.invalidTag x)) 0 none
  | finish : v.bytes = [] → Moves v .finish (.ok .nothing) 0 none
  | finishEarly : v.bytes ≠ [] → Moves v .finish (.error (.trailingBytes v.bytes.length)) 0 none
  | copy : Moves v .copy (.ok .nothing) 0 (some v)
  | scalar {x : UInt8} {rest : Bytes} : v.bytes = Tag.scalar.toByte :: x :: rest →
      Moves v .scalar (.ok (.scalar x)) 2 none
  /-- The data stand between the length, which they have, and the new place. -/
  | blob {header data rest : Bytes} : v.bytes = Tag.blob.toByte :: (header ++ (data ++ rest)) →
      header.length = lengthWidth → data.length = Bytes.toNatLE header →
      Moves v .blob (.ok (.blob ⟨v.offset + 1 + lengthWidth, data⟩))
        (1 + lengthWidth + data.length) none
  /-- So does a body, and a cursor over it is created. -/
  | record {header body rest : Bytes} : v.bytes = Tag.record.toByte :: (header ++ (body ++ rest)) →
      header.length = lengthWidth → body.length = Bytes.toNatLE header →
      Moves v .record (.ok .nothing) (1 + lengthWidth + body.length)
        (some ⟨v.offset + 1 + lengthWidth, body⟩)
  /-- What is passed of an item that is missing is not given back. -/
  | missing {step : Step} {t : Tag} {e : Error} {n : Nat} : step.tag? = some t →
      t.Missing v.bytes e n → Moves v step (.error e) n none

/-- What a step gives, where it leaves the view that it is taken with, and the view that it creates.
-/
structure Effect where
  result : Except Error Item
  moved : View
  created : Option View

/-- What a step does on a stack of one view. -/
def Step.effect (step : Step) (v : View) : Effect :=
  match (⟨v, []⟩ : Cursors).apply step with
  | (result, ⟨moved, []⟩) => ⟨result, moved, none⟩
  | (result, ⟨created, moved :: _⟩) => ⟨result, moved, some created⟩

/-- A reading that succeeds gives its value and leaves the top behind what it took. -/
theorem read_of_ok {α : Type} {r : Reading α} {f : α → Item} {c : Cursors} {w : View} {a : α}
    (h : r c.top = .ok a w) : c.read (f <$> r) = (.ok (f a), { c with top := w }) := by
  have hmap : (f <$> r) c.top = .ok (f a) w := by
    show EStateM.map f r c.top = _
    rw [EStateM.map, h]
  rw [read, hmap]

/-- A reading that fails gives its error and leaves the top where it stopped. -/
theorem read_of_error {α : Type} {r : Reading α} {f : α → Item} {c : Cursors} {w : View} {e : Error}
    (h : r c.top = .error e w) : c.read (f <$> r) = (.error e, { c with top := w }) := by
  have hmap : (f <$> r) c.top = .error e w := by
    show EStateM.map f r c.top = _
    rw [EStateM.map, h]
  rw [read, hmap]

theorem Step.effect_of_ok {α : Type} {step : Step} {r : Reading α} {f : α → Item} {v w : View} {a : α}
    (hstep : ∀ c, apply c step = c.read (f <$> r)) (h : r v = .ok a w) :
    step.effect v = ⟨.ok (f a), w, none⟩ := by
  rw [effect, hstep, read_of_ok h]

theorem Step.effect_of_error {α : Type} {step : Step} {r : Reading α} {f : α → Item} {v w : View}
    {e : Error} (hstep : ∀ c, apply c step = c.read (f <$> r)) (h : r v = .error e w) :
    step.effect v = ⟨.error e, w, none⟩ := by
  rw [effect, hstep, read_of_error h]

/-- A record that is read is entered by a new view. -/
theorem Step.effect_record_of_ok {v w body : View} (h : View.record v = .ok body w) :
    Step.record.effect v = ⟨.ok .nothing, w, some body⟩ := by
  rw [effect, apply, read, h]
  rfl

/-- A record that cannot be read is not entered. -/
theorem Step.effect_record_of_error {v w : View} {e : Error} (h : View.record v = .error e w) :
    Step.record.effect v = ⟨.error e, w, none⟩ := by
  rw [effect, apply, read, h]

/-- Where an item with a body stands in front, its header says where it ends. -/
theorem exists_header_of_enclose {t : Tag} {v : View} {body rest : Bytes}
    (hbody : body.length ≤ maxLength) (hbytes : v.bytes = t.enclose body ++ rest) :
    ∃ header, v.bytes = t.toByte :: (header ++ (body ++ rest)) ∧ header.length = lengthWidth ∧
      body.length = Bytes.toNatLE header ∧ 1 + lengthWidth + body.length ≤ v.remaining ∧
      v.back (1 + lengthWidth + body.length) = ⟨v.offset + 1 + lengthWidth + body.length, rest⟩ := by
  refine ⟨Bytes.ofNatLE lengthWidth body.length, ?_, Bytes.length_ofNatLE _ _,
    (toNatLE_ofNatLE_length hbody).symm, ?_, ?_⟩
  · rw [hbytes, Tag.enclose, List.cons_append, List.append_assoc]
  · rw [View.remaining, hbytes, List.length_append, Tag.length_enclose]
    exact Nat.le_add_right _ _
  · rw [View.back_of_append (t.enclose body) hbytes (Tag.length_enclose t body)]
    simp only [Nat.add_assoc]

/-- The step moves the view that it is taken with as one of the ways says, and not past the end. -/
def Step.MovesIn (step : Step) (v : View) : Prop :=
  ∃ n, Moves v step (step.effect v).result n (step.effect v).created ∧ n ≤ v.remaining ∧
    (step.effect v).moved = v.back n

/-- A way by which the view stays where it is. -/
theorem Step.movesIn_of_stays {step : Step} {v : View} {result : Except Error Item}
    {created : Option View} (heffect : step.effect v = ⟨result, v, created⟩)
    (hmoves : Moves v step result 0 created) : step.MovesIn v := by
  rw [MovesIn, heffect]
  exact ⟨0, hmoves, Nat.zero_le _, rfl⟩

/-- The way of an item that is missing. -/
theorem Step.movesIn_of_missing {step : Step} {t : Tag} {v w : View} {e : Error}
    (htag : step.tag? = some t) (heffect : step.effect v = ⟨.error e, w, none⟩)
    (hmissing : ∃ n, t.Missing v.bytes e n ∧ w = v.back n) : step.MovesIn v := by
  obtain ⟨n, hmissing, rfl⟩ := hmissing
  rw [MovesIn, heffect]
  exact ⟨n, .missing htag hmissing, hmissing.le_length, rfl⟩

theorem Step.peek_movesIn (v : View) : Step.peek.MovesIn v := by
  cases h : View.peekTag v with
  | ok t w =>
    obtain ⟨rfl, rest, hbytes⟩ := View.peekTag_eq_ok_iff.1 h
    exact movesIn_of_stays (effect_of_ok (fun _ => rfl) h) (.peek hbytes)
  | error e w =>
    have heffect : Step.peek.effect v = ⟨.error e, w, none⟩ := effect_of_error (fun _ => rfl) h
    obtain ⟨rfl, ⟨hbytes, rfl⟩ | ⟨x, rest, hbytes, htag, rfl⟩⟩ := View.peekTag_eq_error_iff.1 h
    · exact movesIn_of_stays heffect (.peekNothing hbytes)
    · exact movesIn_of_stays heffect (.peekOther hbytes htag)

theorem Step.scalar_movesIn (v : View) : Step.scalar.MovesIn v := by
  cases h : View.scalar v with
  | ok x w =>
    obtain ⟨rest, hbytes, rfl⟩ := View.scalar_eq_ok_iff.1 h
    rw [MovesIn, effect_of_ok (fun _ => rfl) h]
    refine ⟨2, .scalar hbytes, ?_, (View.back_of_append [_, x] hbytes rfl).symm⟩
    rw [View.remaining, hbytes]
    exact Nat.le_add_left 2 rest.length
  | error e w =>
    exact movesIn_of_missing rfl (effect_of_error (fun _ => rfl) h) (View.scalar_eq_error_iff.1 h)

theorem Step.blob_movesIn (v : View) : Step.blob.MovesIn v := by
  cases h : View.blob v with
  | ok data w =>
    obtain ⟨offset, data⟩ := data
    obtain ⟨hlength, rest, hbytes, rfl, rfl⟩ := View.blob_eq_ok_iff.1 h
    obtain ⟨header, hsplit, hheader, hdata, hle, hback⟩ := exists_header_of_enclose hlength hbytes
    rw [MovesIn, effect_of_ok (fun _ => rfl) h]
    exact ⟨_, .blob hsplit hheader hdata, hle, hback.symm⟩
  | error e w =>
    exact movesIn_of_missing rfl (effect_of_error (fun _ => rfl) h) (View.blob_eq_error_iff.1 h)

theorem Step.record_movesIn (v : View) : Step.record.MovesIn v := by
  cases h : View.record v with
  | ok body w =>
    obtain ⟨offset, body⟩ := body
    obtain ⟨hlength, rest, hbytes, rfl, rfl⟩ := View.record_eq_ok_iff.1 h
    obtain ⟨header, hsplit, hheader, hbody, hle, hback⟩ := exists_header_of_enclose hlength hbytes
    rw [MovesIn, effect_record_of_ok h]
    exact ⟨_, .record hsplit hheader hbody, hle, hback.symm⟩
  | error e w =>
    exact movesIn_of_missing rfl (effect_record_of_error h) (View.record_eq_error_iff.1 h)

theorem Step.finish_movesIn (v : View) : Step.finish.MovesIn v := by
  cases h : View.finish v with
  | ok u w =>
    obtain ⟨hbytes, rfl⟩ := View.finish_eq_ok_iff.1 h
    exact movesIn_of_stays (effect_of_ok (fun _ => rfl) h) (.finish hbytes)
  | error e w =>
    obtain ⟨hbytes, rfl, rfl⟩ := View.finish_eq_error_iff.1 h
    exact movesIn_of_stays (effect_of_error (fun _ => rfl) h) (.finishEarly hbytes)

/-- Every step but the last moves the view that it is taken with as one of the ways says. -/
theorem Step.movesIn {step : Step} (hstep : step ≠ .drop) (v : View) : step.MovesIn v := by
  cases step with
  | peek => exact peek_movesIn v
  | scalar => exact scalar_movesIn v
  | blob => exact blob_movesIn v
  | record => exact record_movesIn v
  | finish => exact finish_movesIn v
  | copy => exact movesIn_of_stays rfl .copy
  | drop => exact absurd rfl hstep

/-- A view that is created stands inside the one that the step is taken with. -/
theorem Moves.inside {v w : View} {step : Step} {result : Except Error Item} {n : Nat}
    (h : Moves v step result n (some w)) : w.Inside v := by
  cases h with
  | copy => exact (View.SuffixOf.refl v).inside
  | @record header body rest hbytes hheader =>
    refine ⟨Tag.record.toByte :: header, rest, hbytes, ?_⟩
    rw [List.length_cons, hheader, Nat.add_assoc, Nat.add_comm 1]

/-- The step has its effect on the top of every stack, and the views below stay. -/
def Step.ActsOn (step : Step) (c : Cursors) : Prop :=
  (c.apply step).1 = (step.effect c.top).result ∧
    (c.apply step).2.views = (step.effect c.top).created.toList ++ (step.effect c.top).moved :: c.below

theorem Step.actsOn_of_reading {α : Type} {step : Step} {r : Reading α} {f : α → Item}
    (hstep : ∀ c, apply c step = c.read (f <$> r)) (c : Cursors) : step.ActsOn c := by
  unfold ActsOn
  cases h : r c.top with
  | ok a w =>
    rw [hstep, read_of_ok h, effect_of_ok hstep h]
    exact ⟨rfl, rfl⟩
  | error e w =>
    rw [hstep, read_of_error h, effect_of_error hstep h]
    exact ⟨rfl, rfl⟩

/-- What a step does with the top of a stack does not depend on the views below. -/
theorem Step.actsOn {step : Step} (hstep : step ≠ .drop) (c : Cursors) : step.ActsOn c := by
  cases step with
  | peek | scalar | blob | finish => exact actsOn_of_reading (fun _ => rfl) c
  | record =>
    unfold ActsOn
    cases h : View.record c.top with
    | ok body w =>
      rw [effect_record_of_ok h, apply, read, h]
      exact ⟨rfl, rfl⟩
    | error e w =>
      rw [effect_record_of_error h, apply, read, h]
      exact ⟨rfl, rfl⟩
  | copy => exact ⟨rfl, rfl⟩
  | drop => exact absurd rfl hstep

/-- Takes steps one after another. -/
def run (c : Cursors) (steps : List Step) : Cursors := steps.foldl (fun c step => (c.apply step).2) c

end Cursors

/-! ## Pools of cursors -/

/-- A view and the range that it was created over. -/
structure Cursor where
  range : View
  view : View
deriving DecidableEq, Repr

/-- A cursor that has not been moved. -/
def Cursor.over (v : View) : Cursor := ⟨v, v⟩

/-- Cursors over one buffer, the newest first. -/
abbrev Pool := List Cursor

namespace Pool

open Cursors (Step Moves)

/-- One cursor over a whole buffer. -/
def ofBytes (b : Bytes) : Pool := [.over (View.ofBytes b)]

/-- Takes a step with the cursor at a place. If the step drops it, the others are left, but not
none. -/
def apply (p : Pool) (i : Nat) (step : Step) : Pool :=
  match p[i]? with
  | none => p
  | some c =>
    if step = .drop then
      if p.length = 1 then p else p.eraseIdx i
    else
      (step.effect c.view).created.toList.map .over
        ++ p.set i { c with view := (step.effect c.view).moved }

/-- Takes steps one after another, each with the cursor at a place. -/
def run (p : Pool) (commands : List (Nat × Step)) : Pool :=
  commands.foldl (fun p command => p.apply command.1 command.2) p

/-- What is left of a cursor is a suffix of its range, which is a piece of the buffer. -/
structure InRange (b : Bytes) (c : Cursor) : Prop where
  range_inside : c.range.Inside (View.ofBytes b)
  view_suffixOf : c.view.SuffixOf c.range

/-- A step with a cursor changes nothing else, and moves the cursor as one of the ways says. -/
theorem apply_of_ne_drop {p : Pool} {i : Nat} {c : Cursor} {step : Step} (hc : p[i]? = some c)
    (hstep : step ≠ .drop) :
    ∃ n created, Moves c.view step (step.effect c.view).result n created ∧ n ≤ c.view.remaining ∧
      p.apply i step = created.toList.map .over ++ p.set i { c with view := c.view.back n } := by
  obtain ⟨n, hmoves, hn, hmoved⟩ := Cursors.Step.movesIn hstep c.view
  refine ⟨n, _, hmoves, hn, ?_⟩
  rw [apply, hc]
  dsimp only
  rw [if_neg hstep, hmoved]

/-- A step keeps every cursor in its range. -/
theorem apply_inRange {b : Bytes} {p : Pool} (h : ∀ c ∈ p, InRange b c) (i : Nat) (step : Step) :
    ∀ c ∈ p.apply i step, InRange b c := by
  cases hc : p[i]? with
  | none =>
    rw [apply, hc]
    exact h
  | some c =>
    by_cases hstep : step = .drop
    · rw [apply, hc]
      dsimp only
      rw [if_pos hstep]
      split
      · exact h
      · exact fun c' hc' => h c' (List.mem_of_mem_eraseIdx hc')
    · obtain ⟨n, created, hmoves, hn, hp⟩ := apply_of_ne_drop hc hstep
      have hin := h c (List.mem_of_getElem? hc)
      rw [hp]
      intro c' hc'
      -- A new cursor starts over its whole range, and the moved one has a suffix of what it had.
      rcases List.mem_append.1 hc' with hnew | hold
      · obtain ⟨w, hw, rfl⟩ := List.mem_map.1 hnew
        obtain rfl := Option.mem_toList.1 hw
        exact ⟨(hmoves.inside.trans hin.view_suffixOf.inside).trans hin.range_inside,
          View.SuffixOf.refl w⟩
      · rcases List.mem_or_eq_of_mem_set hold with hsame | rfl
        · exact h c' hsame
        · exact ⟨hin.range_inside, (View.back_suffixOf hn).trans hin.view_suffixOf⟩

/-- A run keeps every cursor in its range. -/
theorem run_inRange {b : Bytes} {p : Pool} (h : ∀ c ∈ p, InRange b c) (commands : List (Nat × Step)) :
    ∀ c ∈ p.run commands, InRange b c := by
  induction commands generalizing p with
  | nil => exact h
  | cons command rest ih => exact ih (apply_inRange h command.1 command.2)

theorem inRange_ofBytes (b : Bytes) : ∀ c ∈ ofBytes b, InRange b c := by
  intro c hc
  obtain rfl := List.mem_singleton.1 hc
  exact ⟨(View.SuffixOf.refl _).inside, View.SuffixOf.refl _⟩

end Pool

/-! ## Stacks -/

namespace Cursors

/-- A step with a stack is a step with the newest cursor of the pool that has its views. -/
theorem views_apply {c : Cursors} {p : Pool} (h : c.views = p.map Cursor.view) (step : Step) :
    (c.apply step).2.views = (p.apply 0 step).map Cursor.view := by
  obtain ⟨top, below⟩ := c
  cases p with
  | nil => cases h
  | cons d rest =>
    obtain ⟨rfl, rfl⟩ := List.cons.inj h
    by_cases hstep : step = .drop
    · -- Neither the last view of a stack nor the last cursor of a pool is dropped.
      subst hstep
      cases rest with
      | nil => rfl
      | cons d' rest => rfl
    · rw [(Step.actsOn hstep _).2, Pool.apply, List.getElem?_cons_zero]
      dsimp only
      rw [if_neg hstep, List.map_append, List.map_map,
        show Cursor.view ∘ Cursor.over = id from rfl, List.map_id]
      rfl

/-- A run of a stack is a run of a pool that always takes its newest cursor. -/
theorem views_run {c : Cursors} {p : Pool} (h : c.views = p.map Cursor.view) (steps : List Step) :
    (c.run steps).views = (p.run (steps.map (0, ·))).map Cursor.view := by
  induction steps generalizing c p with
  | nil => exact h
  | cons step rest ih => exact ih (views_apply h step)

end Cursors

namespace Pool

open Cursors (Step Moves)

/-- In every run over a buffer, what is left of a cursor is a suffix of the range that it was
created over, and both are pieces of the buffer. A step changes the one cursor that it is taken
with, which it moves as one of the ways says and never past the end, and creates at most one other;
what it gives is what it gives on top of any stack. Runs of a stack are the runs that always take
the newest cursor. -/
theorem run_stays_in_range (b : Bytes) (commands : List (Nat × Step)) :
    (∀ c ∈ (ofBytes b).run commands, c.range.Inside (View.ofBytes b) ∧
      c.view.Inside (View.ofBytes b) ∧ c.view.SuffixOf c.range) ∧
    (∀ i c step, ((ofBytes b).run commands)[i]? = some c → step ≠ .drop →
      ∃ result n created, Moves c.view step result n created ∧ n ≤ c.view.remaining ∧
        (∀ below, ((⟨c.view, below⟩ : Cursors).apply step).1 = result) ∧
        ((ofBytes b).run commands).apply i step = created.toList.map .over
          ++ ((ofBytes b).run commands).set i { c with view := c.view.back n }) ∧
    ∀ steps, ((Cursors.ofBytes b).run steps).views
      = ((ofBytes b).run (steps.map (0, ·))).map Cursor.view := by
  refine ⟨fun c hc => ?_, fun i c step hc hstep => ?_, Cursors.views_run rfl⟩
  · have hin := run_inRange (inRange_ofBytes b) commands c hc
    exact ⟨hin.range_inside, hin.view_suffixOf.inside.trans hin.range_inside, hin.view_suffixOf⟩
  · obtain ⟨n, created, hmoves, hn, hp⟩ := apply_of_ne_drop hc hstep
    exact ⟨_, n, created, hmoves, hn, fun below => (Step.actsOn hstep ⟨c.view, below⟩).1, hp⟩

/-- A record whose body is a blob that is cut short, and a scalar behind it. -/
def cutBuffer : Bytes := [0x40, 6, 0, 0, 0, 0x11, 9, 0, 0, 0, 1, 0x03, 7]

/-- The blob cannot be read, so the cursor over the body has passed five bytes; the one over the
buffer still stands where the record ends. -/
theorem run_stays_in_range_cut :
    ((ofBytes cutBuffer).run [(0, .record), (0, .blob)])[1]?
        = some ⟨⟨0, cutBuffer⟩, ⟨11, [0x03, 7]⟩⟩ ∧
      Step.scalar ≠ .drop ∧
      (∀ c ∈ (ofBytes cutBuffer).run [(0, .record), (0, .blob)], c.view.SuffixOf c.range) ∧
      ∃ result n created, Moves ⟨11, [0x03, 7]⟩ .scalar result n created ∧
        ((ofBytes cutBuffer).run [(0, .record), (0, .blob)]).apply 1 .scalar
          = created.toList.map .over ++ [⟨⟨5, [0x11, 9, 0, 0, 0, 1]⟩, ⟨10, [1]⟩⟩,
            ⟨⟨0, cutBuffer⟩, View.back ⟨11, [0x03, 7]⟩ n⟩] := by
  have hc : ((ofBytes cutBuffer).run [(0, .record), (0, .blob)])[1]?
      = some ⟨⟨0, cutBuffer⟩, ⟨11, [0x03, 7]⟩⟩ := by decide
  have hstep : Step.scalar ≠ .drop := by decide
  obtain ⟨hrange, hmoves, -⟩ := run_stays_in_range cutBuffer [(0, .record), (0, .blob)]
  obtain ⟨result, n, created, hmove, -, -, hp⟩ := hmoves 1 _ .scalar hc hstep
  exact ⟨hc, hstep, fun c hin => (hrange c hin).2.2, result, n, created, hmove, hp⟩

end Pool

end HashLoader.Record
