import HashLoader.Bytes

/-!
# Sequences of steps that can fail

A sequence of steps ends at the first one that fails, and succeeds if all of them do. The laws open
such a sequence step by step.
-/

namespace HashLoader

variable {ε α β : Type}

/-- A step that succeeds goes on with its value. -/
@[simp]
theorem ok_bind (a : α) (f : α → Except ε β) : (Except.ok a >>= f) = f a := rfl

/-- A step that fails ends the sequence. -/
@[simp]
theorem error_bind (e : ε) (f : α → Except ε β) : (Except.error e >>= f) = .error e := rfl

/-- A sequence of two steps succeeds if both do. -/
theorem bind_eq_ok_iff {x : Except ε α} {f : α → Except ε β} {b : β} :
    (x >>= f) = .ok b ↔ ∃ a, x = .ok a ∧ f a = .ok b := by
  cases x with
  | error e => simp
  | ok a => simp

/-- A step whose value is turned into another succeeds if the step does. -/
theorem map_eq_ok_iff {x : Except ε α} {f : α → β} {b : β} :
    x.map f = .ok b ↔ ∃ a, x = .ok a ∧ f a = b := by
  cases x with
  | error e => exact ⟨nofun, nofun⟩
  | ok a => simp [Except.map]

/-- A sequence of two steps fails if the first step fails, or the second after the first. -/
theorem bind_eq_error_iff {x : Except ε α} {f : α → Except ε β} {e : ε} :
    (x >>= f) = .error e ↔ x = .error e ∨ ∃ a, x = .ok a ∧ f a = .error e := by
  cases x with
  | error e' => simp
  | ok a => simp

/-- A step whose value is turned into another fails if the step does. -/
theorem map_eq_error_iff {x : Except ε α} {f : α → β} {e : ε} :
    x.map f = .error e ↔ x = .error e := by
  cases x with
  | error e' =>
    exact ⟨fun h => congrArg _ (Except.error.inj h), fun h => congrArg _ (Except.error.inj h)⟩
  | ok a => exact ⟨nofun, nofun⟩

/-- Steps along a list fail with the first of them that fails. -/
theorem mapM_eq_error_iff {f : α → Except ε β} {l : List α} {e : ε} :
    l.mapM f = .error e ↔ ∃ before a after, l = before ++ a :: after ∧
      (∀ a' ∈ before, ∃ b, f a' = .ok b) ∧ f a = .error e := by
  induction l with
  | nil => exact ⟨nofun, fun ⟨before, _, _, h, _⟩ => by cases before <;> cases h⟩
  | cons a rest ih =>
    rw [List.mapM_cons, bind_eq_error_iff]
    constructor
    · rintro (hfirst | ⟨b, hfirst, h⟩)
      · exact ⟨[], a, rest, rfl, nofun, hfirst⟩
      · have hrest : rest.mapM f = .error e := by
          rcases bind_eq_error_iff.1 h with h | ⟨_, -, h⟩
          · exact h
          · cases h
        obtain ⟨before, a', after, rfl, hbefore, hfailed⟩ := ih.1 hrest
        exact ⟨a :: before, a', after, rfl, List.forall_mem_cons.2 ⟨⟨b, hfirst⟩, hbefore⟩, hfailed⟩
    · rintro ⟨_ | ⟨a₀, before⟩, a', after, hsplit, hbefore, hfailed⟩
      · cases hsplit
        exact .inl hfailed
      · cases hsplit
        obtain ⟨⟨b, hfirst⟩, hrest⟩ := List.forall_mem_cons.1 hbefore
        have hlater := ih.2 ⟨before, a', after, rfl, hrest, hfailed⟩
        exact .inr ⟨b, hfirst, bind_eq_error_iff.2 (.inl hlater)⟩

/-- The value of a step that succeeds is its value as an option. -/
theorem toOption_eq_some_iff {x : Except ε α} {a : α} : x.toOption = some a ↔ x = .ok a := by
  cases x with
  | error e => exact ⟨nofun, nofun⟩
  | ok b => exact ⟨fun h => congrArg _ (Option.some.inj h), fun h => congrArg _ (Except.ok.inj h)⟩

/-- What every step keeps, a sequence of steps along a list keeps. -/
theorem foldlM_invariant {γ : Type} {f : α → β → Except ε α} {l : List β} {a a' : α} (view : α → γ)
    (hstep : ∀ a b a', f a b = .ok a' → view a' = view a) (h : l.foldlM f a = .ok a') :
    view a' = view a := by
  induction l generalizing a with
  | nil =>
    cases h
    rfl
  | cons b rest ih =>
    rw [List.foldlM_cons] at h
    obtain ⟨c, hc, hrest⟩ := bind_eq_ok_iff.1 h
    rw [ih hrest, hstep a b c hc]

/-- If every step does the same to changed values, a sequence of steps along a list does too. -/
theorem foldlM_map_ok {f : α → β → Except ε α} {g : α → α} (h : ∀ b a, f (g a) b = (f a b).map g)
    (l : List β) (a : α) : l.foldlM f (g a) = (l.foldlM f a).map g := by
  induction l generalizing a with
  | nil => rfl
  | cons b rest ih =>
    rw [List.foldlM_cons, List.foldlM_cons, h]
    cases f a b with
    | error e => rfl
    | ok c => exact ih c

end HashLoader
