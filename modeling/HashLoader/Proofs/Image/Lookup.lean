import HashLoader.Proofs.Wasm.Interpreter
import HashLoader.Symbol

/-!
# Looking entry points up

An entry point is tested twice, when it is looked up in an image and when it is bound to an
instance. The first test counts parameters and results and looks at each of them, the second
compares types. Both accept the same functions: those of the one type that `EntryPoint.Fits`
describes (`accepts_iff_fits`, `eq_callType_iff_fits`).

A lookup ends in one of three ways by the type of what the module exports under the name
(`find_finding`), and an instance gives out what its module exports. So it is settled for every
engine, image and entry point when the lookup succeeds, with what it fails, and that binding agrees
with it (`Symbols.find_agrees`). For a module of the interpreter, the type of an export is said by
the list of its exports alone (`Module.Gives`).
-/

namespace HashLoader

/-! ## What a module gives out -/

namespace Wasm.Module

variable {m : Module} {name : String} {item : ExportItem} {index : Nat} {t : FuncType}

/-- A module gives something out under a name: its first export of that name. -/
def Gives (m : Module) (name : String) (item : ExportItem) : Prop :=
  ∃ before after, m.exports = before ++ ⟨name, item⟩ :: after ∧ ∀ e ∈ before, e.name ≠ name

theorem exported?_eq_some_iff : m.exported? name = some item ↔ m.Gives name item := by
  simp only [exported?, Option.map_eq_some_iff, List.find?_eq_some_iff_append, beq_iff_eq]
  constructor
  · rintro ⟨e, ⟨rfl, before, after, hexports, hbefore⟩, rfl⟩
    exact ⟨before, after, hexports, by simpa using hbefore⟩
  · rintro ⟨before, after, hexports, hbefore⟩
    exact ⟨⟨name, item⟩, ⟨rfl, before, after, hexports, by simpa using hbefore⟩, rfl⟩

/-- Nothing is given out twice. -/
theorem Gives.unique {item' : ExportItem} (h : m.Gives name item) (h' : m.Gives name item') :
    item = item' :=
  Option.some.inj ((exported?_eq_some_iff.2 h).symm.trans (exported?_eq_some_iff.2 h'))

/-- Texts none of which occurs twice have no duplicates. -/
theorem allDistinct_iff {texts : List String} : allDistinct texts = true ↔ texts.Nodup := by
  induction texts with
  | nil => simp [allDistinct]
  | cons s rest ih => simp [allDistinct, ih]

/-- The exports of a valid module have distinct names, and all of them exist. -/
theorem exports_of_isValid (hvalid : m.isValid = true) :
    (m.exports.map (·.name)).Nodup ∧ ∀ e ∈ m.exports, hasItem m.context e.item = true := by
  simp only [isValid, Bool.and_eq_true] at hvalid
  obtain ⟨⟨⟨⟨⟨⟨-, hdistinct⟩, hitems⟩, -⟩, -⟩, -⟩, -⟩ := hvalid
  exact ⟨allDistinct_iff.1 hdistinct, List.all_eq_true.1 hitems⟩

/-- A valid module gives out all that it exports. -/
theorem gives_iff_mem (hvalid : m.isValid = true) :
    m.Gives name item ↔ ⟨name, item⟩ ∈ m.exports := by
  constructor
  · rintro ⟨before, after, hexports, -⟩
    rw [hexports]
    exact List.mem_append_right _ List.mem_cons_self
  · intro hmem
    obtain ⟨before, after, hexports⟩ := List.append_of_mem hmem
    refine ⟨before, after, hexports, fun e he hname => ?_⟩
    have hdistinct := (exports_of_isValid hvalid).1
    rw [hexports, List.map_append, List.map_cons, List.nodup_append] at hdistinct
    obtain ⟨-, -, hapart⟩ := hdistinct
    exact hapart e.name (List.mem_map_of_mem he) name List.mem_cons_self hname

/-- A module gives out a function of a type. -/
def GivesFunction (m : Module) (name : String) (index : Nat) (t : FuncType) : Prop :=
  m.Gives name (.function index) ∧ m.functionTypes[index]? = some t

theorem exportedFunction?_eq_some_iff :
    m.exportedFunction? name = some (index, t) ↔ m.GivesFunction name index t := by
  rw [exportedFunction?, GivesFunction, ← exported?_eq_some_iff]
  split
  · next i hitem =>
    rw [hitem, Option.some.injEq, ExportItem.function.injEq, Option.map_eq_some_iff]
    constructor
    · rintro ⟨t', htype, heq⟩
      cases heq
      exact ⟨rfl, htype⟩
    · rintro ⟨rfl, htype⟩
      exact ⟨t, htype, rfl⟩
  · next hother =>
    refine ⟨fun h => ?_, fun h => absurd h.1 (hother index)⟩
    cases h

/-- Every function that a valid module exports has a type. -/
theorem exists_givesFunction (hvalid : m.isValid = true)
    (hmem : ⟨name, .function index⟩ ∈ m.exports) : ∃ t, m.GivesFunction name index t := by
  have hitem := (exports_of_isValid hvalid).2 _ hmem
  have hindex : index < m.functionTypes.length := by simpa [hasItem, context] using hitem
  exact ⟨_, (gives_iff_mem hvalid).2 hmem, List.getElem?_eq_getElem hindex⟩

end Wasm.Module

/-! ## The two tests -/

namespace EntryPoint

variable {C : Compiler} {e : EntryPoint} {m : C.Module} {t : Wasm.FuncType}

/-- A function type is that of an entry point: it has as many parameters and results, and all of
them are 32-bit integers. -/
structure Fits (e : EntryPoint) (t : Wasm.FuncType) : Prop where
  length_params : t.params.length = e.params
  length_results : t.results.length = e.results
  params_eq : ∀ p ∈ t.params, p = .i32
  results_eq : ∀ r ∈ t.results, r = .i32

/-- The type of the function of an entry point. -/
def type (e : EntryPoint) : Wasm.FuncType :=
  ⟨List.replicate e.params .i32, List.replicate e.results .i32⟩

/-- It is the only one that fits. -/
theorem fits_iff : e.Fits t ↔ t = e.type := by
  obtain ⟨params, results⟩ := t
  rw [type, Wasm.FuncType.mk.injEq, List.eq_replicate_iff, List.eq_replicate_iff]
  exact ⟨fun h => ⟨⟨h.length_params, h.params_eq⟩, h.length_results, h.results_eq⟩,
    fun h => ⟨h.1.1, h.2.1, h.1.2, h.2.2⟩⟩

/-- The lookup tests a type one by one. -/
theorem accepts_iff_fits : e.accepts t = true ↔ e.Fits t := by
  simp only [accepts, areWords, Bool.and_eq_true, beq_iff_eq, List.all_eq_true]
  exact ⟨fun h => ⟨h.1.1, h.2.1, h.1.2, h.2.2⟩, fun h =>
    ⟨⟨h.length_params, h.params_eq⟩, h.length_results, h.results_eq⟩⟩

/-- Binding tests it as a whole. -/
theorem eq_callType_iff_fits : t = e.callType ↔ e.Fits t := by
  have htype : e.callType = e.type := by cases e <;> rfl
  rw [htype, fits_iff]

/-- How looking an entry point up in a module may end. -/
inductive Finding (C : Compiler) (e : EntryPoint) (m : C.Module) : Except LoaderError Unit → Prop
  /-- The module exports a function of the right type. -/
  | found {t : Wasm.FuncType} :
      C.export? m e.name = some (.function t) → e.Fits t → Finding C e m (.ok ())
  /-- It exports no function. -/
  | missing : (∀ t, C.export? m e.name ≠ some (.function t)) →
      Finding C e m (.error (.symbolNotFound e.name))
  /-- It exports a function of another type. -/
  | mismatched {t : Wasm.FuncType} : C.export? m e.name = some (.function t) → ¬ e.Fits t →
      Finding C e m (.error (.signatureMismatch e.name))

/-- Every lookup ends in one of these ways. -/
theorem find_finding (e : EntryPoint) (m : C.Module) : e.Finding C m (e.find C m) := by
  unfold find
  split
  · next t hexport =>
    split
    · next haccepts => exact .found hexport (accepts_iff_fits.1 haccepts)
    · next haccepts => exact .mismatched hexport (mt accepts_iff_fits.2 haccepts)
  · next hother => exact .missing hother

/-- An entry point is found if the module exports a function with its name and just its type. -/
theorem find_eq_ok_iff : e.find C m = .ok () ↔ C.export? m e.name = some (.function e.type) := by
  have hends := e.find_finding m
  generalize e.find C m = result at hends
  cases hends with
  | found hexport hfits =>
    rw [hexport, fits_iff.1 hfits]
    exact ⟨fun _ => rfl, fun _ => rfl⟩
  | missing hnone => exact ⟨nofun, fun h => absurd h (hnone _)⟩
  | @mismatched t hexport hfits =>
    refine ⟨nofun, fun h => absurd (fits_iff.2 ?_) hfits⟩
    exact Wasm.ExternType.function.inj (Option.some.inj (hexport.symm.trans h))

end EntryPoint

/-! ## Symbols -/

namespace Symbol

section Find

variable {C : Compiler} {image : CodeImage C} {entry : EntryPoint} {s : Symbol C} {err : LoaderError}

/-- A symbol is found if its entry point is. -/
theorem find_eq_ok_iff :
    Symbol.find image entry = .ok s ↔
      s = ⟨image, entry⟩ ∧ C.export? image.module entry.name = some (.function entry.type) := by
  rw [← EntryPoint.find_eq_ok_iff]
  unfold Symbol.find
  cases entry.find C image.module with
  | error e => exact ⟨nofun, nofun⟩
  | ok found => exact ⟨fun h => ⟨(Except.ok.inj h).symm, rfl⟩, fun h => h.1 ▸ rfl⟩

/-- A symbol is not found for want of its entry point. -/
theorem find_eq_error_iff :
    Symbol.find image entry = .error err ↔ entry.find C image.module = .error err :=
  map_eq_error_iff

/-- There is a symbol if the image exports a function of the right type. -/
theorem exists_find_iff : (∃ s, Symbol.find image entry = .ok s) ↔
    ∃ t, C.export? image.module entry.name = some (.function t) ∧ entry.Fits t := by
  simp only [find_eq_ok_iff, exists_eq_left, EntryPoint.fits_iff, exists_eq_right]

/-- There is none for want of a function. -/
theorem find_eq_symbolNotFound_iff :
    Symbol.find image entry = .error (.symbolNotFound entry.name) ↔
      ∀ t, C.export? image.module entry.name ≠ some (.function t) := by
  rw [find_eq_error_iff]
  have hends := entry.find_finding image.module
  generalize entry.find C image.module = result at hends
  cases hends with
  | found hexport => exact ⟨nofun, fun hnone => absurd hexport (hnone _)⟩
  | missing hnone => exact ⟨fun _ => hnone, fun _ => rfl⟩
  | mismatched hexport => exact ⟨nofun, fun hnone => absurd hexport (hnone _)⟩

/-- All else is a function of another type. -/
theorem find_eq_signatureMismatch_iff :
    Symbol.find image entry = .error (.signatureMismatch entry.name) ↔
      (¬ ∃ s, Symbol.find image entry = .ok s) ∧
        Symbol.find image entry ≠ .error (.symbolNotFound entry.name) := by
  rw [exists_find_iff, Ne, find_eq_symbolNotFound_iff, find_eq_error_iff]
  have hends := entry.find_finding image.module
  generalize entry.find C image.module = result at hends
  cases hends with
  | found hexport hfits => exact ⟨nofun, fun h => (h.1 ⟨_, hexport, hfits⟩).elim⟩
  | missing hnone => exact ⟨nofun, fun h => absurd hnone h.2⟩
  | @mismatched t hexport hfits =>
    refine ⟨fun _ => ⟨?_, fun hnone => hnone t hexport⟩, fun _ => rfl⟩
    rintro ⟨t', hexport', hfits'⟩
    cases hexport.symm.trans hexport'
    exact hfits hfits'

end Find

section Bind

variable {E : Engine} {s : Symbol E.toCompiler} {inst : E.Instance} {f : E.Func} {err : LoaderError}

/-- A symbol is bound to the function of its name if that has the right type. -/
theorem bind_eq_ok_iff : s.bind inst = .ok f ↔
    E.function? inst s.entry.name = some f ∧ s.entry.Fits (E.typeOf f) := by
  unfold bind
  rw [← EntryPoint.eq_callType_iff_fits]
  split
  · next hnone =>
    rw [hnone]
    exact ⟨nofun, nofun⟩
  · next g hg =>
    rw [hg]
    split
    · next htype =>
      constructor
      · intro h
        cases h
        exact ⟨rfl, htype⟩
      · rintro ⟨h, -⟩
        cases h
        rfl
    · next htype =>
      refine ⟨nofun, ?_⟩
      rintro ⟨h, htype'⟩
      cases h
      exact absurd htype' htype

/-- A symbol that is not bound is one of another type. -/
theorem error_of_bind (h : s.bind inst = .error err) : err = .signatureMismatch s.entry.name := by
  unfold bind at h
  split at h
  · exact (Except.error.inj h).symm
  · split at h
    · cases h
    · exact (Except.error.inj h).symm

/-- A symbol is bound to an instance if the module of that passes the test by which it was found. -/
theorem exists_bind_iff (hE : E.Spec) {env : Wasm.Environment} {m : E.Module} {linked : E.Linked}
    {budget : Nat} {store left : E.Store} (hlink : E.link env m = .ok linked)
    (hstart : E.start budget linked store = (.ok inst, left)) :
    (∃ f, s.bind inst = .ok f) ↔
      ∃ t, E.export? m s.entry.name = some (.function t) ∧ s.entry.Fits t := by
  simp only [bind_eq_ok_iff, ← hE.function_iff hlink hstart]
  constructor
  · rintro ⟨f, hf, hfits⟩
    exact ⟨_, ⟨f, hf, rfl⟩, hfits⟩
  · rintro ⟨t, ⟨f, hf, rfl⟩, hfits⟩
    exact ⟨f, hf, hfits⟩

end Bind

/-- How an entry point is looked up in an image, and what then is bound. -/
structure Agrees {E : Engine} (image : CodeImage E.toCompiler) (entry : EntryPoint) : Prop where
  found_iff : (∃ s, Symbol.find image entry = .ok s) ↔
    ∃ t, E.export? image.module entry.name = some (.function t) ∧ entry.Fits t
  /-- Nothing has the name, or what has it is no function. -/
  missing_iff : Symbol.find image entry = .error (.symbolNotFound entry.name) ↔
    E.export? image.module entry.name = none ∨
      ∃ type, E.export? image.module entry.name = some type ∧ ∀ t, type ≠ .function t
  /-- All else is a function of another type. -/
  mismatched_iff : Symbol.find image entry = .error (.signatureMismatch entry.name) ↔
    (¬ ∃ s, Symbol.find image entry = .ok s) ∧
      Symbol.find image entry ≠ .error (.symbolNotFound entry.name)
  /-- What is found is bound to an instance of each module that passes the same test. -/
  bound_iff : ∀ s, Symbol.find image entry = .ok s → ∀ {env m linked budget store inst left},
    E.link env m = .ok linked → E.start budget linked store = (.ok inst, left) →
    ((∃ f, s.bind inst = .ok f) ↔
      ∃ t, E.export? m entry.name = some (.function t) ∧ entry.Fits t)
  /-- It is bound to each instance of the module that it was found in. -/
  bound_own : ∀ s, Symbol.find image entry = .ok s → ∀ {env linked budget store inst left},
    E.link env image.module = .ok linked → E.start budget linked store = (.ok inst, left) →
    ∃ f, s.bind inst = .ok f

/-- Lookup and binding agree on every entry point of every image. -/
theorem agrees {E : Engine} (hE : E.Spec) (image : CodeImage E.toCompiler) (entry : EntryPoint) :
    Agrees image entry where
  found_iff := exists_find_iff
  missing_iff := by
    rw [find_eq_symbolNotFound_iff]
    cases E.export? image.module entry.name with
    | none => simp
    | some type => simp
  mismatched_iff := find_eq_signatureMismatch_iff
  bound_iff s hs _ _ _ _ _ _ _ hlink hstart := by
    obtain ⟨rfl, -⟩ := find_eq_ok_iff.1 hs
    exact exists_bind_iff hE hlink hstart
  bound_own s hs _ _ _ _ _ _ hlink hstart := by
    obtain ⟨rfl, -⟩ := find_eq_ok_iff.1 hs
    exact (exists_bind_iff hE hlink hstart).2 (exists_find_iff.1 ⟨_, hs⟩)

/-- How an entry point is looked up in a module of the interpreter, by the list of its exports. -/
structure Listed (image : CodeImage Wasm.interpreter.toCompiler) (entry : EntryPoint) : Prop where
  found_iff : (∃ s, Symbol.find image entry = .ok s) ↔
    ∃ index t, image.module.GivesFunction entry.name index t ∧ entry.Fits t
  /-- Nothing has the name, or what has it is no function. -/
  missing_iff : Symbol.find image entry = .error (.symbolNotFound entry.name) ↔
    (∀ item, ¬ image.module.Gives entry.name item) ∨
      ∃ item, image.module.Gives entry.name item ∧
        ∀ index t, item = .function index → image.module.functionTypes[index]? ≠ some t
  /-- What is found is bound to each module that passes the same test. -/
  bound_iff : ∀ s, Symbol.find image entry = .ok s → ∀ m : Wasm.Module,
    (∃ f, Symbol.bind (E := Wasm.interpreter) s m = .ok f) ↔
      ∃ index t, m.GivesFunction entry.name index t ∧ entry.Fits t
  /-- It is bound to the module that it was found in. -/
  bound_own : ∀ s, Symbol.find image entry = .ok s →
    ∃ f, Symbol.bind (E := Wasm.interpreter) s image.module = .ok f
  /-- What a valid module gives out under the name is what it exports. -/
  gives_iff : image.module.isValid = true → ∀ item,
    image.module.Gives entry.name item ↔ ⟨entry.name, item⟩ ∈ image.module.exports
  /-- A function that a valid module exports under the name has a type. -/
  typed : image.module.isValid = true → ∀ index,
    ⟨entry.name, .function index⟩ ∈ image.module.exports →
    ∃ t, image.module.GivesFunction entry.name index t

/-- A module gives out no function under a name if it gives out nothing or something else. -/
theorem not_givesFunction_iff {m : Wasm.Module} {name : String} :
    (∀ index t, ¬ m.GivesFunction name index t) ↔ (∀ item, ¬ m.Gives name item) ∨
      ∃ item, m.Gives name item ∧
        ∀ index t, item = .function index → m.functionTypes[index]? ≠ some t := by
  constructor
  · intro hnone
    by_cases hgives : ∃ item, m.Gives name item
    · obtain ⟨item, hitem⟩ := hgives
      refine .inr ⟨item, hitem, ?_⟩
      rintro index t rfl htype
      exact hnone index t ⟨hitem, htype⟩
    · exact .inl fun item hitem => hgives ⟨item, hitem⟩
  · rintro (hnothing | ⟨item, hitem, hother⟩) index t ⟨hfunction, htype⟩
    · exact hnothing _ hfunction
    · exact hother index t (hitem.unique hfunction) htype

/-- The test of the lookup, by the exports. -/
theorem exists_export_iff {m : Wasm.Module} {entry : EntryPoint} :
    (∃ t, m.exportType? entry.name = some (.function t) ∧ entry.Fits t) ↔
      ∃ index t, m.GivesFunction entry.name index t ∧ entry.Fits t := by
  simp only [Wasm.Module.exportType?_eq_function_iff, Wasm.Module.exportedFunction?_eq_some_iff]
  exact ⟨fun ⟨t, ⟨index, h⟩, hfits⟩ => ⟨index, t, h, hfits⟩,
    fun ⟨index, t, h, hfits⟩ => ⟨t, ⟨index, h⟩, hfits⟩⟩

/-- A symbol is bound to a module of the interpreter that passes the test. -/
theorem exists_bind_module_iff {s : Symbol Wasm.interpreter.toCompiler} {m : Wasm.Module} :
    (∃ f, Symbol.bind (E := Wasm.interpreter) s m = .ok f) ↔
      ∃ index t, m.GivesFunction s.entry.name index t ∧ s.entry.Fits t := by
  have hbind : ∀ f, Symbol.bind (E := Wasm.interpreter) s m = .ok f ↔
      m.function? s.entry.name = some f ∧ s.entry.Fits f.type := fun _ => bind_eq_ok_iff
  constructor
  · rintro ⟨f, hf⟩
    obtain ⟨hfunction, hfits⟩ := (hbind f).1 hf
    obtain ⟨⟨index, t⟩, hfound, rfl⟩ := Option.map_eq_some_iff.1 hfunction
    exact ⟨index, t, Wasm.Module.exportedFunction?_eq_some_iff.1 hfound, hfits⟩
  · rintro ⟨index, t, hgives, hfits⟩
    refine ⟨⟨m.toInstance, index, t⟩, (hbind _).2 ⟨?_, hfits⟩⟩
    rw [Wasm.Module.function?, Wasm.Module.exportedFunction?_eq_some_iff.2 hgives, Option.map_some]

/-- What the list of its exports says of a module of the interpreter. -/
theorem listed (image : CodeImage Wasm.interpreter.toCompiler) (entry : EntryPoint) :
    Listed image entry where
  found_iff := exists_find_iff.trans exists_export_iff
  missing_iff := by
    rw [find_eq_symbolNotFound_iff, ← not_givesFunction_iff]
    constructor
    · exact fun h index t hgives => h t (Wasm.Module.exportType?_eq_function_iff.2
        ⟨index, Wasm.Module.exportedFunction?_eq_some_iff.2 hgives⟩)
    · intro h t hexport
      obtain ⟨index, hindex⟩ := Wasm.Module.exportType?_eq_function_iff.1 hexport
      exact h index t (Wasm.Module.exportedFunction?_eq_some_iff.1 hindex)
  bound_iff s hs m := by
    obtain ⟨rfl, -⟩ := find_eq_ok_iff.1 hs
    exact exists_bind_module_iff
  bound_own s hs := by
    obtain ⟨rfl, -⟩ := find_eq_ok_iff.1 hs
    exact exists_bind_module_iff.2 (exists_export_iff.1 (exists_find_iff.1 ⟨_, hs⟩))
  gives_iff hvalid _ := Wasm.Module.gives_iff_mem hvalid
  typed hvalid _ := Wasm.Module.exists_givesFunction hvalid

end Symbol

/-! ## The three symbols of an image -/

/-- The entry points in the order in which they are looked up. -/
def EntryPoint.order : List EntryPoint := [.construct, .evaluate, .teardown]

namespace Symbols

variable {C : Compiler} {image : CodeImage C} {symbols : Symbols C} {err : LoaderError}

/-- The three symbols are found if each of them is. -/
theorem find_eq_ok_iff :
    Symbols.find image = .ok symbols ↔
      Symbol.find image .construct = .ok symbols.construct ∧
        Symbol.find image .evaluate = .ok symbols.evaluate ∧
        Symbol.find image .teardown = .ok symbols.teardown := by
  unfold Symbols.find
  constructor
  · intro h
    obtain ⟨construct, hconstruct, h⟩ := bind_eq_ok_iff.1 h
    obtain ⟨evaluate, hevaluate, h⟩ := bind_eq_ok_iff.1 h
    obtain ⟨teardown, hteardown, h⟩ := bind_eq_ok_iff.1 h
    cases h
    exact ⟨hconstruct, hevaluate, hteardown⟩
  · rintro ⟨hconstruct, hevaluate, hteardown⟩
    rw [hconstruct, ok_bind, hevaluate, ok_bind, hteardown, ok_bind]
    rfl

/-- Where all three are found, each is. -/
theorem exists_find (h : Symbols.find image = .ok symbols) (entry : EntryPoint) :
    ∃ s, Symbol.find image entry = .ok s := by
  obtain ⟨hconstruct, hevaluate, hteardown⟩ := find_eq_ok_iff.1 h
  cases entry with
  | construct => exact ⟨_, hconstruct⟩
  | evaluate => exact ⟨_, hevaluate⟩
  | teardown => exact ⟨_, hteardown⟩

/-- They are looked up one after the other. -/
theorem find_eq_mapM (image : CodeImage C) :
    (Symbols.find image).map (fun s => [s.construct, s.evaluate, s.teardown])
      = EntryPoint.order.mapM (Symbol.find image) := by
  simp only [Symbols.find, EntryPoint.order, List.mapM_cons, List.mapM_nil]
  cases Symbol.find image .construct with
  | error e => rfl
  | ok construct =>
    cases Symbol.find image .evaluate with
    | error e => rfl
    | ok evaluate => cases Symbol.find image .teardown <;> rfl

/-- The search fails with the first entry point that is not found. -/
theorem find_eq_error_iff :
    Symbols.find image = .error err ↔ ∃ before entry after,
      EntryPoint.order = before ++ entry :: after ∧
        (∀ e ∈ before, ∃ s, Symbol.find image e = .ok s) ∧ Symbol.find image entry = .error err := by
  rw [← mapM_eq_error_iff, ← find_eq_mapM, map_eq_error_iff]

/-- The three are found if each entry point is, and else the first that is not is their failure. -/
structure Together (image : CodeImage C) : Prop where
  found_iff : (∃ symbols, Symbols.find image = .ok symbols) ↔
    ∀ entry, ∃ s, Symbol.find image entry = .ok s
  failed_iff : ∀ err, Symbols.find image = .error err ↔ ∃ before entry after,
    EntryPoint.order = before ++ entry :: after ∧
      (∀ e ∈ before, ∃ s, Symbol.find image e = .ok s) ∧ Symbol.find image entry = .error err

theorem together (image : CodeImage C) : Together image where
  found_iff := by
    refine ⟨fun ⟨_, hsymbols⟩ => exists_find hsymbols, fun hall => ?_⟩
    obtain ⟨construct, hconstruct⟩ := hall .construct
    obtain ⟨evaluate, hevaluate⟩ := hall .evaluate
    obtain ⟨teardown, hteardown⟩ := hall .teardown
    exact ⟨⟨construct, evaluate, teardown⟩, find_eq_ok_iff.2 ⟨hconstruct, hevaluate, hteardown⟩⟩
  failed_iff _ := find_eq_error_iff

/-- For every engine and image, each entry point is found if the image exports a function of its
name and type, binding agrees with that, and the first entry point that is not found is the failure
of all three. For the interpreter, what an image exports is settled by the list of its exports. -/
theorem find_agrees :
    (∀ (E : Engine), E.Spec → ∀ (image : CodeImage E.toCompiler),
      (∀ entry, Symbol.Agrees image entry) ∧ Together image) ∧
    ∀ (image : CodeImage Wasm.interpreter.toCompiler) (entry : EntryPoint),
      Symbol.Listed image entry :=
  ⟨fun _ hE image => ⟨Symbol.agrees hE image, together image⟩, Symbol.listed⟩

/-- At the interpreter all of it holds. -/
theorem find_agrees_interpreter :
    Wasm.interpreter.Spec ∧ ∀ (image : CodeImage Wasm.interpreter.toCompiler),
      (∀ entry, Symbol.Agrees image entry ∧ Symbol.Listed image entry) ∧ Together image := by
  obtain ⟨hengines, hlisted⟩ := find_agrees
  refine ⟨Wasm.interpreter_spec, fun image => ?_⟩
  obtain ⟨hagrees, htogether⟩ := hengines Wasm.interpreter Wasm.interpreter_spec image
  exact ⟨fun entry => ⟨hagrees entry, hlisted image entry⟩, htogether⟩

end Symbols

end HashLoader
