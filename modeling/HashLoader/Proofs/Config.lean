import HashLoader.Config.Document
import HashLoader.Proofs.Except

/-!
# Accepted configurations

A configuration that is rejected has a field with a value that the check does not admit, and the
rejection names this field and its value (`Config.blames_of_validate`). The defaults are admitted.

A document is accepted if it sets fields only, each to a value that it can hold, and the
configuration passes the check. This then says what the document sets, and has its defaults
elsewhere (`Config.ofDocument_eq_ok_iff`). Fields are read by name (`Config.get?`), so that what is
proved of one setting is proved of all: setting a field changes that field alone.
-/

namespace HashLoader

namespace Config

variable {c c' : Config} {name : String} {value : Setting} {settings : List (String × Setting)}

/-! ## Fields by their names -/

/-- What the field with a name is set to. -/
def get? (c : Config) (name : String) : Option Setting :=
  match name with
  | "max_script_size" => some (.number c.maxScriptSize)
  | "max_code_size" => some (.number c.maxCodeSize)
  | "arena_size" => some (.number c.arenaSize)
  | "max_cycles" => some (.number c.maxCycles)
  | "capture_debug" => some (.truth c.captureDebug)
  | _ => none

/-- A configuration is known by its fields. -/
theorem ext_of_get? (h : ∀ name, c.get? name = c'.get? name) : c = c' := by
  have hscript := h "max_script_size"
  have hcode := h "max_code_size"
  have harena := h "arena_size"
  have hcycles := h "max_cycles"
  have hcapture := h "capture_debug"
  obtain ⟨script, code, arena, cycles, capture⟩ := c
  obtain ⟨script', code', arena', cycles', capture'⟩ := c'
  simp only [get?, Option.some.injEq, Setting.number.injEq, Setting.truth.injEq,
    Int.ofNat_inj] at hscript hcode harena hcycles hcapture
  rw [hscript, hcode, harena, hcycles, hcapture]

/-- A field has the name and can hold the value. -/
inductive Fits : String → Setting → Prop
  | size {name : String} (n : Nat) :
      name ∈ ["max_script_size", "max_code_size", "arena_size", "max_cycles"] → Fits name (.number n)
  | truth (b : Bool) : Fits "capture_debug" (.truth b)

/-- What is set fits. -/
theorem fits_of_get? (h : c.get? name = some value) : Fits name value := by
  unfold get? at h
  split at h
  case h_5 =>
    cases h
    exact .truth _
  case h_6 => cases h
  all_goals
    cases h
    exact .size _ (by simp)

/-- A size is said by a number that is not negative. -/
theorem size?_eq_some_iff {n : Nat} : value.size? = some n ↔ value = .number n := by
  cases value with
  | number m =>
    rw [Setting.number.injEq]
    cases m with
    | ofNat k => exact Option.some_inj.trans Int.ofNat_inj.symm
    | negSucc k => exact ⟨nofun, nofun⟩
  | truth b => simp [Setting.size?]
  | other => simp [Setting.size?]

/-- Setting a field changes it alone. -/
theorem get?_set? (h : c.set? name value = some c') (name' : String) :
    c'.get? name' = if name' = name then some value else c.get? name' := by
  unfold set? at h
  split at h
  case h_6 => cases h
  case h_5 =>
    obtain ⟨b, hb, rfl⟩ := Option.map_eq_some_iff.1 h
    cases value with
    | number | other => cases hb
    | truth b' =>
      cases hb
      unfold get?
      split <;> first | rfl | (rw [if_neg ‹_›])
  -- The four sizes: a name is that of the field, or that of another one, or of none.
  all_goals
    obtain ⟨n, hn, rfl⟩ := Option.map_eq_some_iff.1 h
    rw [size?_eq_some_iff.1 hn]
    unfold get?
    split <;> first | rfl | (rw [if_neg ‹_›])

/-- A field is set if it can hold the value. -/
theorem exists_set?_iff (c : Config) : (∃ c', c.set? name value = some c') ↔ Fits name value := by
  constructor
  · rintro ⟨c', h⟩
    have hget := get?_set? h name
    rw [if_pos rfl] at hget
    exact fits_of_get? hget
  · rintro (⟨n, hname⟩ | ⟨b⟩)
    · simp only [List.mem_cons, List.not_mem_nil, or_false] at hname
      obtain rfl | rfl | rfl | rfl := hname
      · exact ⟨_, rfl⟩
      · exact ⟨_, rfl⟩
      · exact ⟨_, rfl⟩
      · exact ⟨_, rfl⟩
    · exact ⟨_, rfl⟩

/-! ## The check -/

end Config

/-- A rejection names a field of a configuration with the value of it, and this is no multiple of
the unit or none that is not zero, or it is over the limit. -/
inductive ConfigError.Blames (c : Config) : ConfigError → Prop
  | unaligned {field : String} {unit value : Nat} : c.get? field = some (.number value) →
      value = 0 ∨ ¬ unit ∣ value → Blames c (.unaligned field unit value)
  | outOfRange {field : String} {value limit : Nat} : c.get? field = some (.number value) →
      limit < value → Blames c (.outOfRange field value limit)

namespace Config

variable {c : Config} {settings : List (String × Setting)}

/-- The defaults are accepted. -/
theorem validate_default : ({} : Config).validate = .ok () := rfl

/-- A configuration that is rejected is rejected for one of its fields. -/
theorem blames_of_validate {e : ConfigError} (h : c.validate = .error e) : e.Blames c := by
  unfold validate at h
  split at h
  · next hcode =>
    cases h
    exact .unaligned rfl (hcode.imp_right fun hmod => mt Nat.mod_eq_zero_of_dvd hmod)
  split at h
  · next harena =>
    cases h
    exact .unaligned (by rw [← harena]; rfl) (.inl rfl)
  split at h
  · next hlimit =>
    cases h
    exact .outOfRange rfl hlimit
  split at h
  · next hscript =>
    cases h
    exact .unaligned (by rw [← hscript]; rfl) (.inl rfl)
  · cases h

/-! ## Documents -/

/-- A configuration says what settings say, and has its defaults elsewhere. -/
structure Says (c : Config) (settings : List (String × Setting)) : Prop where
  get_eq : ∀ name value, (name, value) ∈ settings → c.get? name = some value
  default_eq : ∀ name, name ∉ settings.map Prod.fst → c.get? name = ({} : Config).get? name

/-- Only one configuration does. -/
theorem Says.unique {c' : Config} (h : c.Says settings) (h' : c'.Says settings) : c = c' := by
  refine ext_of_get? fun name => ?_
  by_cases hset : name ∈ settings.map Prod.fst
  · obtain ⟨⟨_, value⟩, hmem, rfl⟩ := List.mem_map.1 hset
    rw [h.get_eq _ _ hmem, h'.get_eq _ _ hmem]
  · rw [h.default_eq _ hset, h'.default_eq _ hset]

/-- Setting fields one after another, each once, leaves all others as they were. -/
theorem get?_foldlM_set? {first : Config} (hdistinct : (settings.map Prod.fst).Nodup)
    (h : settings.foldlM (fun c (name, value) => c.set? name value) first = some c) :
    (∀ name value, (name, value) ∈ settings → c.get? name = some value) ∧
      ∀ name, name ∉ settings.map Prod.fst → c.get? name = first.get? name := by
  induction settings generalizing first with
  | nil =>
    obtain rfl := Option.some.inj h
    exact ⟨nofun, fun _ _ => rfl⟩
  | cons p rest ih =>
    obtain ⟨field, setting⟩ := p
    obtain ⟨middle, hset, hrest⟩ := Option.bind_eq_some_iff.1 h
    obtain ⟨hfresh, hdistinct⟩ := List.nodup_cons.1 hdistinct
    obtain ⟨hget, hkept⟩ := ih hdistinct hrest
    refine ⟨fun name value hmem => ?_, fun name hname => ?_⟩
    · obtain heq | hmem := List.mem_cons.1 hmem
      · -- The field is not set again.
        obtain ⟨rfl, rfl⟩ := Prod.mk.inj heq
        rw [hkept _ hfresh, get?_set? hset, if_pos rfl]
      · exact hget name value hmem
    · obtain ⟨hne, hrest⟩ := not_or.1 (mt List.mem_cons.2 hname)
      rw [hkept _ hrest, get?_set? hset, if_neg hne]

/-- Settings are refused if one of them fits no field. -/
theorem ofSettings_eq_none_iff :
    ofSettings settings = none ↔ ∃ name value, (name, value) ∈ settings ∧ ¬ Fits name value := by
  -- Whether a field takes a setting does not depend on the configuration that it is made in.
  have hfold : ∀ first : Config,
      settings.foldlM (fun c (name, value) => c.set? name value) first = none ↔
        ∃ name value, (name, value) ∈ settings ∧ ¬ Fits name value := by
    induction settings with
    | nil => exact fun first => ⟨nofun, nofun⟩
    | cons p rest ih =>
      obtain ⟨field, setting⟩ := p
      intro first
      have hstep : ((field, setting) :: rest).foldlM (fun c (name, value) => c.set? name value) first
          = (first.set? field setting).bind fun c =>
            rest.foldlM (fun c (name, value) => c.set? name value) c := rfl
      rw [hstep]
      cases hset : first.set? field setting with
      | none =>
        have hunfit : ¬ Fits field setting := by
          rw [← exists_set?_iff first, hset]
          exact nofun
        exact ⟨fun _ => ⟨field, setting, List.mem_cons_self, hunfit⟩, fun _ => rfl⟩
      | some middle =>
        have hfits := (exists_set?_iff first).1 ⟨middle, hset⟩
        refine (ih middle).trans ⟨fun ⟨name, value, hmem, hunfit⟩ =>
          ⟨name, value, List.mem_cons_of_mem _ hmem, hunfit⟩, fun ⟨name, value, hmem, hunfit⟩ => ?_⟩
        obtain heq | hmem := List.mem_cons.1 hmem
        · obtain ⟨rfl, rfl⟩ := Prod.mk.inj heq
          exact absurd hfits hunfit
        · exact ⟨name, value, hmem, hunfit⟩
  exact hfold {}

/-- The settings of a document, each made once, say a configuration. -/
theorem ofSettings_eq_some_iff (hdistinct : (settings.map Prod.fst).Nodup) :
    ofSettings settings = some c ↔ c.Says settings := by
  have hmade : ∀ {c : Config}, ofSettings settings = some c → c.Says settings := by
    intro c h
    obtain ⟨hget, hdefault⟩ := get?_foldlM_set? hdistinct h
    exact ⟨hget, hdefault⟩
  refine ⟨hmade, fun h => ?_⟩
  cases hresult : ofSettings settings with
  | some c' => rw [(hmade hresult).unique h]
  | none =>
    obtain ⟨name, value, hmem, hunfit⟩ := ofSettings_eq_none_iff.1 hresult
    exact absurd (fits_of_get? (h.get_eq name value hmem)) hunfit

variable {read : String → Except String (List (String × Setting))} {text : String}

/-- A document is accepted as a configuration if this says what the document sets, and has its
defaults elsewhere, and passes the check. -/
theorem ofDocument_eq_ok_iff
    (hread : ∀ settings, read text = .ok settings → (settings.map Prod.fst).Nodup) :
    ofDocument read text = .ok c ↔
      ∃ settings, read text = .ok settings ∧ c.Says settings ∧ c.validate = .ok () := by
  unfold ofDocument
  cases hsettings : read text with
  | error reason => simp
  | ok settings =>
    have hsome := fun c => ofSettings_eq_some_iff (c := c) (hread settings hsettings)
    simp only [Except.ok.injEq, exists_eq_left', ← hsome]
    cases ofSettings settings with
    | none => simp
    | some c' =>
      dsimp only
      rw [map_eq_ok_iff, Option.some.injEq]
      constructor
      · rintro ⟨_, hvalid, rfl⟩
        exact ⟨rfl, hvalid⟩
      · rintro ⟨rfl, hvalid⟩
        exact ⟨(), hvalid, rfl⟩

/-- A document that is not accepted is no text of settings, or sets what is no field or holds no
such value, or says a configuration that is rejected for one of its fields. -/
theorem cases_of_ofDocument {e : ConfigError} (h : ofDocument read text = .error e) :
    (∃ reason, read text = .error reason ∧ e = .parse reason) ∨
      ∃ settings, read text = .ok settings ∧
        ((∃ name value, (name, value) ∈ settings ∧ ¬ Fits name value) ∧ (∃ reason, e = .parse reason) ∨
          ∃ c, ofSettings settings = some c ∧ e.Blames c) := by
  unfold ofDocument at h
  split at h
  · next reason hread =>
    cases h
    exact .inl ⟨reason, hread, rfl⟩
  · next settings hread =>
    refine .inr ⟨settings, hread, ?_⟩
    split at h
    · next hnone =>
      cases h
      exact .inl ⟨ofSettings_eq_none_iff.1 hnone, _, rfl⟩
    · next c hsome => exact .inr ⟨c, hsome, blames_of_validate (map_eq_error_iff.1 h)⟩

end Config

end HashLoader
