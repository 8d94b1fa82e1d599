import HashLoader.Proofs.Record.Forest

/-!
# Walks over a view

A walk reads a view to its end, one item after another, by the operation that the tag of each item
asks for, and walks over the body of every record it comes to. `View.Walk` says how it goes, as a
relation, so that it is a statement that a walk ends: `View.exists_walk`, by the bytes that every
item takes (`remaining_of_piece`). It ends in one way (`Walk.unique`).

On the bytes of a forest that fits a walk gives the forest (`Forest.walk_bytes`), and it gives no
forest on other bytes (`Walk.bytes_eq`). With the encoder that writes these bytes this makes reading
and writing inverse to each other (`View.walk_undoes_encode`).
-/

namespace HashLoader.Record

/-- What one turn of a walk reads. -/
inductive Piece
  | scalar (v : UInt8)
  | blob (data : View)
  | record (body : View)

namespace View

/-- Looks at the tag of the next item and reads the item with the operation for this tag. -/
def piece : Reading Piece := do
  match ← peekTag with
  | .scalar => return .scalar (← scalar)
  | .blob => return .blob (← blob)
  | .record => return .record (← record)

/-- The walk over a view ends with a result and leaves another view. -/
inductive Walk : View → Except Error Forest → View → Prop
  /-- Nothing remains. -/
  | stop {v : View} : v.remaining = 0 → Walk v (.ok .nil) v
  /-- The next item cannot be read. -/
  | refused {v w : View} {e : Error} : v.remaining ≠ 0 → piece v = .error e w → Walk v (.error e) w
  /-- A scalar is read, and the walk goes on. -/
  | scalar {v w z : View} {x : UInt8} {result : Except Error Forest} : v.remaining ≠ 0 →
      piece v = .ok (.scalar x) w → Walk w result z → Walk v (result.map (.scalar x)) z
  /-- A blob is read, and the walk goes on. -/
  | blob {v w z data : View} {result : Except Error Forest} : v.remaining ≠ 0 →
      piece v = .ok (.blob data) w → Walk w result z → Walk v (result.map (.blob data.bytes)) z
  /-- A record is entered, and the walk over its body fails. -/
  | inside {v w y body : View} {e : Error} : v.remaining ≠ 0 →
      piece v = .ok (.record body) w → Walk body (.error e) y → Walk v (.error e) w
  /-- A record is entered, its body is walked over, and the walk goes on behind it. -/
  | record {v w y z body : View} {items : Forest} {result : Except Error Forest} : v.remaining ≠ 0 →
      piece v = .ok (.record body) w → Walk body (.ok items) y → Walk w result z →
      Walk v (result.map (.record items)) z

/-! ## One turn -/

/-- A turn reads what the operation for the tag reads. -/
theorem piece_eq_ok_iff {p : Piece} {v w : View} :
    piece v = .ok p w ↔ match p with
      | .scalar x => View.scalar v = .ok x w
      | .blob data => View.blob v = .ok data w
      | .record body => View.record v = .ok body w := by
  unfold piece
  rw [bind_eq_ok_iff]
  constructor
  · rintro ⟨t, u, hpeek, h⟩
    obtain ⟨rfl, -⟩ := peekTag_eq_ok_iff.1 hpeek
    cases t with
    | scalar | blob | record =>
      obtain ⟨a, x, hread, h⟩ := bind_eq_ok_iff.1 h
      obtain ⟨rfl, rfl⟩ := pure_eq_ok_iff.1 h
      exact hread
  · intro h
    cases p with
    | scalar x =>
      obtain ⟨rest, hbytes, -⟩ := scalar_eq_ok_iff.1 h
      exact ⟨.scalar, v, peekTag_eq_ok_iff.2 ⟨rfl, _, hbytes⟩, bind_eq_ok_iff.2 ⟨x, w, h, rfl⟩⟩
    | blob data =>
      obtain ⟨-, rest, hbytes, -⟩ := blob_eq_ok_iff.1 h
      exact ⟨.blob, v, peekTag_eq_ok_iff.2 ⟨rfl, _, hbytes⟩, bind_eq_ok_iff.2 ⟨data, w, h, rfl⟩⟩
    | record body =>
      obtain ⟨-, rest, hbytes, -⟩ := record_eq_ok_iff.1 h
      exact ⟨.record, v, peekTag_eq_ok_iff.2 ⟨rfl, _, hbytes⟩, bind_eq_ok_iff.2 ⟨body, w, h, rfl⟩⟩

/-- A turn takes bytes: less remains behind an item, and in the body of a record. -/
theorem remaining_of_piece {p : Piece} {v w : View} (h : piece v = .ok p w) :
    w.remaining < v.remaining ∧ ∀ body, p = .record body → body.remaining < v.remaining := by
  have hp := piece_eq_ok_iff.1 h
  cases p with
  | scalar x =>
    obtain ⟨rest, hbytes, rfl⟩ := scalar_eq_ok_iff.1 hp
    simp only [remaining, hbytes, List.length_cons]
    exact ⟨by omega, by simp⟩
  | blob data =>
    obtain ⟨-, rest, hbytes, -, rfl⟩ := blob_eq_ok_iff.1 hp
    simp only [remaining, hbytes, List.length_append, Tag.length_enclose]
    exact ⟨by omega, by simp⟩
  | record body =>
    obtain ⟨-, rest, hbytes, -, rfl⟩ := record_eq_ok_iff.1 hp
    simp only [remaining, hbytes, List.length_append, Tag.length_enclose]
    refine ⟨by omega, ?_⟩
    rintro body' ⟨⟩
    omega

/-! ## The walk ends -/

/-- A walk ends, since less remains after each turn. -/
theorem exists_walk (v : View) : ∃ result w, Walk v result w := by
  induction hn : v.remaining using Nat.strongRecOn generalizing v with
  | ind n ih =>
    subst hn
    by_cases hstop : v.remaining = 0
    · exact ⟨_, _, .stop hstop⟩
    rcases hpiece : piece v with ⟨p, w⟩ | ⟨e, w⟩
    · obtain ⟨hbehind, hbody⟩ := remaining_of_piece hpiece
      obtain ⟨result, z, hrest⟩ := ih _ hbehind w rfl
      cases p with
      | scalar x => exact ⟨_, _, .scalar hstop hpiece hrest⟩
      | blob data => exact ⟨_, _, .blob hstop hpiece hrest⟩
      | record body =>
        obtain ⟨inner, y, hinner⟩ := ih _ (hbody body rfl) body rfl
        cases inner with
        | error e => exact ⟨_, _, .inside hstop hpiece hinner⟩
        | ok items => exact ⟨_, _, .record hstop hpiece hinner hrest⟩
    · exact ⟨_, _, .refused hstop hpiece⟩

/-- What a walk does that does not stop is decided by what its first turn reads. -/
theorem Walk.turn {v z : View} {result : Except Error Forest} (h : Walk v result z)
    (hgo : v.remaining ≠ 0) :
    match piece v with
    | .error e w => result = .error e ∧ z = w
    | .ok (.scalar x) w => ∃ rest, Walk w rest z ∧ result = rest.map (.scalar x)
    | .ok (.blob data) w => ∃ rest, Walk w rest z ∧ result = rest.map (.blob data.bytes)
    | .ok (.record body) w =>
      (∃ e y, Walk body (.error e) y ∧ result = .error e ∧ z = w) ∨
        ∃ items y rest, Walk body (.ok items) y ∧ Walk w rest z ∧
          result = rest.map (.record items) := by
  cases h with
  | stop hstop => exact absurd hstop hgo
  | refused _ hpiece =>
    rw [hpiece]
    exact ⟨rfl, rfl⟩
  | scalar _ hpiece hrest =>
    rw [hpiece]
    exact ⟨_, hrest, rfl⟩
  | blob _ hpiece hrest =>
    rw [hpiece]
    exact ⟨_, hrest, rfl⟩
  | inside _ hpiece hinner =>
    rw [hpiece]
    exact .inl ⟨_, _, hinner, rfl, rfl⟩
  | record _ hpiece hinner hrest =>
    rw [hpiece]
    exact .inr ⟨_, _, _, hinner, hrest, rfl⟩

/-- A walk ends in one way only. -/
theorem Walk.unique {v w w' : View} {result result' : Except Error Forest} (h : Walk v result w)
    (h' : Walk v result' w') : result = result' ∧ w = w' := by
  -- The first walk says what is read first, so the second takes the same turn (`Walk.turn`).
  induction h generalizing result' w' with
  | stop hstop =>
    cases h' with
    | stop => exact ⟨rfl, rfl⟩
    | refused hgo | scalar hgo | blob hgo | inside hgo | record hgo => exact absurd hstop hgo
  | refused hgo hpiece =>
    have hturn := h'.turn hgo
    rw [hpiece] at hturn
    exact ⟨hturn.1.symm, hturn.2.symm⟩
  | scalar hgo hpiece _ ih | blob hgo hpiece _ ih =>
    have hturn := h'.turn hgo
    rw [hpiece] at hturn
    obtain ⟨rest, hrest, rfl⟩ := hturn
    obtain ⟨rfl, rfl⟩ := ih hrest
    exact ⟨rfl, rfl⟩
  | inside hgo hpiece _ ih =>
    have hturn := h'.turn hgo
    rw [hpiece] at hturn
    obtain ⟨e, y, hinner, rfl, rfl⟩ | ⟨items, y, rest, hinner, -, -⟩ := hturn
    · exact ⟨(ih hinner).1, rfl⟩
    · cases (ih hinner).1
  | record hgo hpiece _ _ ihBody ih =>
    have hturn := h'.turn hgo
    rw [hpiece] at hturn
    obtain ⟨e, y, hinner, -, -⟩ | ⟨items, y, rest, hinner, hrest, rfl⟩ := hturn
    · cases (ihBody hinner).1
    · cases (ihBody hinner).1
      obtain ⟨rfl, rfl⟩ := ih hrest
      exact ⟨rfl, rfl⟩

end View

/-! ## What a walk gives -/

/-- A walk over the bytes of a forest that fits gives the forest. -/
theorem Forest.walk_bytes {f : Forest} (hf : f.Fits) (offset : Nat) :
    View.Walk ⟨offset, f.bytes⟩ (.ok f) ⟨offset + f.bytes.length, []⟩ := by
  -- The first item is read by the walk's first turn, and what is behind it is the rest of the
  -- forest.
  induction f generalizing offset with
  | nil => exact .stop rfl
  | scalar v rest ih =>
    have hread : View.scalar ⟨offset, bytes (scalar v rest)⟩ = .ok v ⟨offset + 2, rest.bytes⟩ :=
      View.scalar_eq_ok_iff.2 ⟨rest.bytes, rfl, rfl⟩
    have hend : offset + (bytes (scalar v rest)).length = offset + 2 + rest.bytes.length := by
      rw [bytes, List.length_cons, List.length_cons]
      omega
    rw [hend]
    have hpiece := View.piece_eq_ok_iff (p := .scalar _).2 hread
    exact .scalar (Nat.ne_zero_of_lt (View.remaining_of_piece hpiece).1) hpiece (ih hf _)
  | blob data rest ih =>
    obtain ⟨hdata, hrest⟩ := hf
    have hread : View.blob ⟨offset, bytes (blob data rest)⟩
        = .ok ⟨offset + 1 + lengthWidth, data⟩ ⟨offset + 1 + lengthWidth + data.length, rest.bytes⟩ :=
      View.blob_eq_ok_iff.2 ⟨hdata, rest.bytes, rfl, rfl, rfl⟩
    have hend : offset + (bytes (blob data rest)).length
        = offset + 1 + lengthWidth + data.length + rest.bytes.length := by
      rw [bytes, List.length_append, Tag.length_enclose]
      omega
    rw [hend]
    have hpiece := View.piece_eq_ok_iff (p := .blob _).2 hread
    exact .blob (Nat.ne_zero_of_lt (View.remaining_of_piece hpiece).1) hpiece (ih hrest _)
  | record body rest ihBody ih =>
    obtain ⟨hlength, hbody, hrest⟩ := hf
    have hread : View.record ⟨offset, bytes (record body rest)⟩
        = .ok ⟨offset + 1 + lengthWidth, body.bytes⟩
          ⟨offset + 1 + lengthWidth + body.bytes.length, rest.bytes⟩ :=
      View.record_eq_ok_iff.2 ⟨hlength, rest.bytes, rfl, rfl, rfl⟩
    have hend : offset + (bytes (record body rest)).length
        = offset + 1 + lengthWidth + body.bytes.length + rest.bytes.length := by
      rw [bytes, List.length_append, Tag.length_enclose]
      omega
    rw [hend]
    have hpiece := View.piece_eq_ok_iff (p := .record _).2 hread
    have hremaining := Nat.ne_zero_of_lt (View.remaining_of_piece hpiece).1
    exact .record hremaining hpiece (ihBody hbody _) (ih hrest _)

namespace View

/-- A walk that succeeds has read a forest that fits, and nothing is left. -/
theorem Walk.bytes_eq {v w : View} {f : Forest} (h : Walk v (.ok f) w) :
    v.bytes = f.bytes ∧ f.Fits ∧ w = ⟨v.offset + v.bytes.length, []⟩ := by
  generalize hresult : Except.ok f = result at h
  -- Each turn that reads an item says how its bytes look, and the rest is by induction.
  induction h generalizing f with
  | @stop v hstop =>
    obtain ⟨offset, b⟩ := v
    obtain rfl : b = [] := List.length_eq_zero_iff.1 hstop
    cases hresult
    exact ⟨rfl, trivial, rfl⟩
  | refused | inside => cases hresult
  | @scalar v w z x result _ hpiece _ ih =>
    obtain ⟨rest, rfl, rfl⟩ := map_eq_ok_iff.1 hresult.symm
    obtain ⟨behind, hbytes, rfl⟩ := scalar_eq_ok_iff.1 (piece_eq_ok_iff.1 hpiece)
    obtain ⟨hrest, hfits, rfl⟩ := ih rfl
    dsimp only at hrest
    rw [hbytes, hrest]
    refine ⟨rfl, hfits, congrArg (View.mk · []) ?_⟩
    simp only [List.length_cons]
    omega
  | @blob v w z data result _ hpiece _ ih =>
    obtain ⟨rest, rfl, rfl⟩ := map_eq_ok_iff.1 hresult.symm
    obtain ⟨hdata, behind, hbytes, -, rfl⟩ := blob_eq_ok_iff.1 (piece_eq_ok_iff.1 hpiece)
    obtain ⟨hrest, hfits, rfl⟩ := ih rfl
    dsimp only at hrest
    rw [hbytes, hrest]
    refine ⟨rfl, ⟨hdata, hfits⟩, congrArg (View.mk · []) ?_⟩
    simp only [List.length_append, Tag.length_enclose]
    omega
  | @record v w y z body items result _ hpiece _ _ ihBody ih =>
    obtain ⟨rest, rfl, rfl⟩ := map_eq_ok_iff.1 hresult.symm
    obtain ⟨hlength, behind, hbytes, -, rfl⟩ := record_eq_ok_iff.1 (piece_eq_ok_iff.1 hpiece)
    obtain ⟨hitems, hfitsItems, -⟩ := ihBody rfl
    obtain ⟨hrest, hfits, rfl⟩ := ih rfl
    dsimp only at hrest
    rw [hbytes, hrest, hitems]
    rw [hitems] at hlength
    refine ⟨rfl, ⟨hlength, hfitsItems, hfits⟩, congrArg (View.mk · []) ?_⟩
    simp only [List.length_append, Tag.length_enclose]
    omega

/-- Reading and writing undo each other. The walk over what is written of a forest that fits gives
the forest and leaves nothing; if the walk over a buffer gives a forest, the buffer is what is
written of it; and the walk over any buffer ends, in one way. -/
theorem walk_undoes_encode :
    (∀ f : Forest, f.Fits → ∃ b, f.encode = .ok b ∧ Walk (ofBytes b) (.ok f) ⟨b.length, []⟩) ∧
    (∀ b f w, Walk (ofBytes b) (.ok f) w → f.encode = .ok b ∧ f.Fits ∧ w.bytes = []) ∧
    ∀ b, ∃ result w, Walk (ofBytes b) result w ∧
      ∀ result' w', Walk (ofBytes b) result' w' → result' = result ∧ w' = w := by
  refine ⟨fun f hf => ⟨f.bytes, Forest.encode_of_fits hf, ?_⟩, fun b f w h => ?_, fun b => ?_⟩
  · have hwalk := Forest.walk_bytes hf 0
    rwa [Nat.zero_add] at hwalk
  · obtain ⟨hbytes, hfits, rfl⟩ := h.bytes_eq
    refine ⟨?_, hfits, rfl⟩
    rw [Forest.encode_of_fits hfits, ← hbytes]
    rfl
  · obtain ⟨result, w, hwalk⟩ := exists_walk (ofBytes b)
    exact ⟨result, w, hwalk, fun _ _ hother => hother.unique hwalk⟩

/-- A record in a record, with a scalar behind each, is written and read back. -/
theorem walk_undoes_encode_nested :
    Forest.Fits (.record (.record (.blob [1] .nil) (.scalar 2 .nil)) (.scalar 3 .nil)) ∧
      ∃ b, Forest.encode (.record (.record (.blob [1] .nil) (.scalar 2 .nil)) (.scalar 3 .nil))
          = .ok b ∧
        Walk (ofBytes b)
          (.ok (.record (.record (.blob [1] .nil) (.scalar 2 .nil)) (.scalar 3 .nil)))
          ⟨b.length, []⟩ :=
  ⟨by decide, walk_undoes_encode.1 _ (by decide)⟩

end View

end HashLoader.Record
