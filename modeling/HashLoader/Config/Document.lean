import HashLoader.Config.Basic

/-!
# Configuration documents

A document sets fields of a configuration by their names and leaves the others at their defaults.
The text is read by a reader of TOML, which is given; what it gives are the settings, none of them
twice. A name that no field has and a value that the field cannot hold are refused like any fault of
the text.
-/

namespace HashLoader

/-- What a field is set to. -/
inductive Setting
  | number (n : Int)
  | truth (b : Bool)
  /-- A text, a list, a table, or another value that no field holds. -/
  | other
deriving DecidableEq, Repr

namespace Setting

/-- The size that a setting says. -/
def size? : Setting → Option Nat
  | number n => n.toNat?
  | truth _ | other => none

/-- The truth value that a setting says. -/
def truth? : Setting → Option Bool
  | truth b => some b
  | number _ | other => none

end Setting

namespace Config

/-- Sets the field with a name. -/
def set? (c : Config) (name : String) (value : Setting) : Option Config :=
  match name with
  | "max_script_size" => value.size?.map fun n => { c with maxScriptSize := n }
  | "max_code_size" => value.size?.map fun n => { c with maxCodeSize := n }
  | "arena_size" => value.size?.map fun n => { c with arenaSize := n }
  | "max_cycles" => value.size?.map fun n => { c with maxCycles := n }
  | "capture_debug" => value.truth?.map fun b => { c with captureDebug := b }
  | _ => none

/-- The configuration that settings say. -/
def ofSettings (settings : List (String × Setting)) : Option Config :=
  settings.foldlM (fun c (name, value) => c.set? name value) {}

/-- Reads a configuration and checks it. -/
def ofDocument (read : String → Except String (List (String × Setting))) (text : String) :
    Except ConfigError Config :=
  match read text with
  | .error reason => .error (.parse reason)
  | .ok settings =>
    match ofSettings settings with
    | none => .error (.parse "a setting is unknown or has no fitting value")
    | some c => c.validate.map fun _ => c

end Config

end HashLoader
