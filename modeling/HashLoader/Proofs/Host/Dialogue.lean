import HashLoader.Host

/-!
# What is said to a host

An exchange is a call together with its answer. `Host.recorded` is the host that also keeps its
exchanges, so a statement about all that was said to a host, and in which order, is a statement
about the list that a recorded host ends with.

Recording changes no answer. This is one case of `Host.Simulates`: two hosts that give the same
answers as long as their states are related. A procedure that only calls its host gives the same
result on both and leaves related states, which is shown where the procedure is. A procedure that
does not ask for the script needs no more than `Host.AgreesOnCells`.
-/

namespace HashLoader

/-- A call with its answer. A call that copies also answers with what it left in the buffer. -/
inductive Exchange
  | script (bufferLen offset : Nat) (result : Except HostError Nat) (buffer : Bytes)
  | data (bufferLen offset index : Nat) (result : Except HostError Nat) (buffer : Bytes)
  | hash (index : Nat) (field : HashField) (answer : Except HostError (Option Hash))

/-- The call of an exchange. -/
def Exchange.call : Exchange → HostCall
  | script bufferLen offset _ _ => .script bufferLen offset
  | data bufferLen offset index _ _ => .data bufferLen offset index
  | hash index field _ => .hash index field

namespace Host

variable {σ τ : Type}

/-- The host that also keeps the list of its exchanges, in order. -/
def recorded (host : Host σ) : Host (σ × List Exchange) where
  loadScript {n} buffer offset s :=
    let (answer, s') := host.loadScript buffer offset s.1
    (answer, s', s.2 ++ [.script n offset answer.result answer.buffer.toList])
  loadData {n} buffer offset index s :=
    let (answer, s') := host.loadData buffer offset index s.1
    (answer, s', s.2 ++ [.data n offset index answer.result answer.buffer.toList])
  loadHash index field s :=
    let (answer, s') := host.loadHash index field s.1
    (answer, s', s.2 ++ [.hash index field answer])

/-- A recorded host answers a call for the script like the host, and keeps the exchange. -/
theorem recorded_loadScript (host : Host σ) {n : Nat} (buffer : Vector UInt8 n) (offset : Nat)
    (s : σ) (t : List Exchange) {answer : Loaded n} {s' : σ}
    (h : host.loadScript buffer offset s = (answer, s')) :
    host.recorded.loadScript buffer offset (s, t)
      = (answer, s', t ++ [.script n offset answer.result answer.buffer.toList]) := by
  simp only [recorded, h]

/-- A recorded host answers a call for data like the host, and keeps the exchange. -/
theorem recorded_loadData (host : Host σ) {n : Nat} (buffer : Vector UInt8 n) (offset index : Nat)
    (s : σ) (t : List Exchange) {answer : Loaded n} {s' : σ}
    (h : host.loadData buffer offset index s = (answer, s')) :
    host.recorded.loadData buffer offset index (s, t)
      = (answer, s', t ++ [.data n offset index answer.result answer.buffer.toList]) := by
  simp only [recorded, h]

/-- A recorded host answers a call for a hash like the host, and keeps the exchange. -/
theorem recorded_loadHash (host : Host σ) (index : Nat) (field : HashField) (s : σ)
    (t : List Exchange) {answer : Except HostError (Option Hash)} {s' : σ}
    (h : host.loadHash index field s = (answer, s')) :
    host.recorded.loadHash index field (s, t) = (answer, s', t ++ [.hash index field answer]) := by
  simp only [recorded, h]

/-- Two hosts give the same answers in related states, and are in related states after them. -/
structure Simulates (host : Host σ) (other : Host τ) (related : σ → τ → Prop) : Prop where
  /-- They copy the same of the script. -/
  loadScript : ∀ {n : Nat} (buffer : Vector UInt8 n) (offset : Nat) {s : σ} {t : τ}, related s t →
    (host.loadScript buffer offset s).1 = (other.loadScript buffer offset t).1 ∧
      related (host.loadScript buffer offset s).2 (other.loadScript buffer offset t).2
  /-- They copy the same of the data of a dependency. -/
  loadData : ∀ {n : Nat} (buffer : Vector UInt8 n) (offset index : Nat) {s : σ} {t : τ},
    related s t →
    (host.loadData buffer offset index s).1 = (other.loadData buffer offset index t).1 ∧
      related (host.loadData buffer offset index s).2 (other.loadData buffer offset index t).2
  /-- They give the same hashes. -/
  loadHash : ∀ (index : Nat) (field : HashField) {s : σ} {t : τ}, related s t →
    (host.loadHash index field s).1 = (other.loadHash index field t).1 ∧
      related (host.loadHash index field s).2 (other.loadHash index field t).2

/-- Two hosts give the same answers about cells in related states, and are in related states after
them. -/
structure AgreesOnCells (host : Host σ) (other : Host τ) (related : σ → τ → Prop) : Prop where
  /-- They copy the same of the data of a dependency. -/
  loadData : ∀ {n : Nat} (buffer : Vector UInt8 n) (offset index : Nat) {s : σ} {t : τ},
    related s t →
    (host.loadData buffer offset index s).1 = (other.loadData buffer offset index t).1 ∧
      related (host.loadData buffer offset index s).2 (other.loadData buffer offset index t).2
  /-- They give the same hashes. -/
  loadHash : ∀ (index : Nat) (field : HashField) {s : σ} {t : τ}, related s t →
    (host.loadHash index field s).1 = (other.loadHash index field t).1 ∧
      related (host.loadHash index field s).2 (other.loadHash index field t).2

/-- Hosts that simulate each other agree on cells. -/
theorem Simulates.agreesOnCells {host : Host σ} {other : Host τ} {related : σ → τ → Prop}
    (h : host.Simulates other related) : host.AgreesOnCells other related where
  loadData := h.loadData
  loadHash := h.loadHash

/-- Recording changes no answer. -/
theorem recorded_simulates (host : Host σ) :
    host.recorded.Simulates host fun s t => s.1 = t where
  loadScript _ _ _ _ h := by subst h; exact ⟨rfl, rfl⟩
  loadData _ _ _ _ _ h := by subst h; exact ⟨rfl, rfl⟩
  loadHash _ _ _ _ h := by subst h; exact ⟨rfl, rfl⟩

/-- The calls that a host logs are those of the exchanges that it records. -/
theorem logged_simulates_recorded (host : Host σ) :
    host.logged.Simulates host.recorded fun s t => s.1 = t.1 ∧ s.2 = t.2.map Exchange.call where
  loadScript _ _ _ _ h := by
    obtain ⟨hstate, hlog⟩ := h
    simp [logged, recorded, hstate, hlog, Exchange.call]
  loadData _ _ _ _ _ h := by
    obtain ⟨hstate, hlog⟩ := h
    simp [logged, recorded, hstate, hlog, Exchange.call]
  loadHash _ _ _ _ h := by
    obtain ⟨hstate, hlog⟩ := h
    simp [logged, recorded, hstate, hlog, Exchange.call]

end Host

end HashLoader
