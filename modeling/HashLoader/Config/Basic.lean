import HashLoader.Arena.Execution

/-!
# Configurations

A configuration holds the limits of an invocation. `validate` says which configurations a loader
accepts: the code arena has whole pages, and the execution arena is addressed with 32 bits.
-/

namespace HashLoader

/-- Why a configuration is rejected. -/
inductive ConfigError
  /-- A size is zero or not a whole number of units. -/
  | unaligned (field : String) (unit value : Nat)
  /-- A size is over its limit. -/
  | outOfRange (field : String) (value limit : Nat)
  /-- A document does not say a configuration. -/
  | parse (reason : String)
  /-- Nothing can run code. -/
  | engine (reason : String)
deriving DecidableEq, Repr

/-- The text of a rejection. -/
def ConfigError.message : ConfigError → String
  | unaligned field unit value =>
    field ++ " must be a non-zero multiple of " ++ toString unit ++ ", got " ++ toString value
  | outOfRange field value limit =>
    field ++ " of " ++ toString value ++ " exceeds the limit of " ++ toString limit
  | parse reason => "invalid config: " ++ reason
  | engine reason => "engine setup failed: " ++ reason

/-- The limits of an invocation. -/
structure Config where
  /-- The longest script in bytes. -/
  maxScriptSize : Nat := 32 * 1024
  /-- The capacity of the code arena in bytes. -/
  maxCodeSize : Nat := 1024 * 1024
  /-- The length of the execution arena in bytes. -/
  arenaSize : Nat := 512 * 1024
  /-- The cycles that all running code of an invocation may use up together. -/
  maxCycles : Nat := 70000000
  /-- Whether the report keeps the messages of the code. -/
  captureDebug : Bool := true
deriving DecidableEq, Repr

namespace Config

/-- The longest execution arena: with the input window in front of it, its end is still an
address of 32 bits. -/
def maxArenaSize : Nat := UInt32.size - 1 - inputWindow

/-- Checks the limits. -/
def validate (c : Config) : Except ConfigError Unit :=
  if c.maxCodeSize = 0 ∨ c.maxCodeSize % pageSize ≠ 0 then
    .error (.unaligned "max_code_size" pageSize c.maxCodeSize)
  else if c.arenaSize = 0 then .error (.unaligned "arena_size" 1 0)
  else if maxArenaSize < c.arenaSize then
    .error (.outOfRange "arena_size" c.arenaSize maxArenaSize)
  else if c.maxScriptSize = 0 then .error (.unaligned "max_script_size" 1 0)
  else .ok ()

/-- The limits are accepted if the code arena has pages and only whole ones, the end of the
execution arena is an address, and neither that arena nor the script is empty. -/
theorem validate_eq_ok_iff {c : Config} :
    c.validate = .ok () ↔ (c.maxCodeSize ≠ 0 ∧ pageSize ∣ c.maxCodeSize) ∧
      (0 < c.arenaSize ∧ c.arenaSize ≤ maxArenaSize) ∧ 0 < c.maxScriptSize := by
  rw [Nat.dvd_iff_mod_eq_zero, validate]
  split
  · exact ⟨nofun, fun h => by omega⟩
  split
  · exact ⟨nofun, fun h => by omega⟩
  split
  · exact ⟨nofun, fun h => by omega⟩
  split
  · exact ⟨nofun, fun h => by omega⟩
  · exact ⟨fun _ => by omega, fun _ => rfl⟩

/-- Under a configuration that is accepted the arena ends at an address of 32 bits. -/
theorem limit_le_of_validate {c : Config} (h : c.validate = .ok ()) :
    inputWindow + c.arenaSize ≤ UInt32.size - 1 := by
  obtain ⟨-, ⟨-, hmax⟩, -⟩ := validate_eq_ok_iff.1 h
  simp only [maxArenaSize, inputWindow, UInt32.size] at hmax ⊢
  omega

end Config

end HashLoader
