import HashLoader.Wasm.Module

/-!
# Typing of code

Code is checked against a stack of operand types, from the first instruction to the last. After an
instruction that never goes on, the rest is unreachable: below the operands that are known, any
operands may be taken.
-/

namespace HashLoader.Wasm

/-- What code may refer to. -/
structure Context where
  functions : Array FuncType
  tables : Array TableType
  hasMemory : Bool
  globals : Array GlobalType
  locals : Array ValType
  /-- The results of the function. -/
  results : List ValType

/-- The types of the operands at a place in code. -/
structure Operands where
  /-- The known operands, top first; a type may be unknown in unreachable code. -/
  known : List (Option ValType)
  /-- Whether any operands may be taken below the known ones. -/
  unreachable : Bool

namespace Operands

/-- The operands that stand for the values of some types, last type on top. -/
def ofTypes (ts : List ValType) : Operands := ⟨ts.reverse.map some, false⟩

/-- Where no code gets. -/
def nowhere : Operands := ⟨[], true⟩

/-- Takes an operand of any type. -/
def popAny (s : Operands) : Option (Option ValType × Operands) :=
  match s.known with
  | t :: rest => some (t, { s with known := rest })
  | [] => if s.unreachable then some (none, s) else none

/-- Takes an operand of a type. -/
def pop (s : Operands) (t : ValType) : Option Operands :=
  match s.popAny with
  | some (some u, rest) => if u = t then some rest else none
  | some (none, rest) => some rest
  | none => none

/-- Adds an operand. -/
def push (s : Operands) (t : ValType) : Operands := { s with known := some t :: s.known }

/-- Takes operands of some types, last type first. -/
def pops (s : Operands) (ts : List ValType) : Option Operands := ts.reverse.foldlM pop s

/-- Adds operands of some types, last type on top. -/
def pushes (s : Operands) (ts : List ValType) : Operands := ts.foldl push s

/-- Takes the results of a construct, which have to be all that is left. -/
def closes (s : Operands) (results : List ValType) : Bool :=
  match s.pops results with
  | some rest => rest.known.isEmpty
  | none => false

end Operands

/-- What a basic instruction takes and gives, where that does not hang on the operands. -/
def Basic.signature? (c : Context) : Basic → Option FuncType
  | nop => some ⟨[], []⟩
  | drop | select _ | isNull => none
  | const v => some ⟨[], [v.type]⟩
  | test w => some ⟨[w.type], [.i32]⟩
  | unary w _ => some ⟨[w.type], [w.type]⟩
  | binary w _ => some ⟨[w.type, w.type], [w.type]⟩
  | compare w _ => some ⟨[w.type, w.type], [.i32]⟩
  | wrap => some ⟨[.i64], [.i32]⟩
  | extend _ => some ⟨[.i32], [.i64]⟩
  | localGet i => (c.locals[i]?).map fun t => ⟨[], [t]⟩
  | localSet i => (c.locals[i]?).map fun t => ⟨[t], []⟩
  | localTee i => (c.locals[i]?).map fun t => ⟨[t], [t]⟩
  | globalGet i => (c.globals[i]?).map fun g => ⟨[], [g.type]⟩
  | globalSet i => (c.globals[i]?).bind fun g => if g.mutable then some ⟨[g.type], []⟩ else none
  | load w _ _ _ => if c.hasMemory then some ⟨[.i32], [w.type]⟩ else none
  | store w _ _ => if c.hasMemory then some ⟨[.i32, w.type], []⟩ else none
  | memorySize => if c.hasMemory then some ⟨[], [.i32]⟩ else none
  | memoryGrow => if c.hasMemory then some ⟨[.i32], [.i32]⟩ else none

/-- The common type of two operands that have to be numbers. -/
def numeric? (a b : Option ValType) : Option (Option ValType) :=
  let number (t : Option ValType) : Bool := t.all fun t => !t.isReference
  if number a && number b then
    match a, b with
    | none, t | t, none => some t
    | some t, some u => if t = u then some (some t) else none
  else none

/-- Takes what an instruction takes and adds what it gives. -/
def Operands.apply (s : Operands) (t : FuncType) : Option Operands :=
  (s.pops t.params).map fun rest => rest.pushes t.results

/-- Checks a basic instruction. -/
def Basic.check (c : Context) (op : Basic) (s : Operands) : Option Operands :=
  match op with
  | drop => s.popAny.map (·.2)
  | select none => do
    let s ← s.pop .i32
    let (b, s) ← s.popAny
    let (a, s) ← s.popAny
    let t ← numeric? a b
    return { s with known := t :: s.known }
  | select (some t) => s.apply ⟨[t, t, .i32], [t]⟩
  | isNull => do
    let (t, s) ← s.popAny
    if t.all ValType.isReference then some (s.push .i32) else none
  | op => (op.signature? c).bind s.apply

mutual
/-- Checks an instruction. `labels` holds what a branch to each enclosing construct carries,
innermost first. -/
def Instr.check (c : Context) (labels : List (List ValType)) : Instr → Operands → Option Operands
  | .basic op, s => op.check c s
  | .unreachable, _ => some .nowhere
  | .block t body, s =>
    match s.pops t.params, Code.check c (t.results :: labels) body (.ofTypes t.params) with
    | some below, some inside =>
      if inside.closes t.results then some (below.pushes t.results) else none
    | _, _ => none
  | .loop t body, s =>
    match s.pops t.params, Code.check c (t.params :: labels) body (.ofTypes t.params) with
    | some below, some inside =>
      if inside.closes t.results then some (below.pushes t.results) else none
    | _, _ => none
  | .cond t yes no, s =>
    match (s.pop .i32).bind fun s => s.pops t.params,
      Code.check c (t.results :: labels) yes (.ofTypes t.params),
      Code.check c (t.results :: labels) no (.ofTypes t.params) with
    | some below, some one, some other =>
      if one.closes t.results && other.closes t.results then some (below.pushes t.results)
      else none
    | _, _, _ => none
  | .br l, s => do
    let ts ← labels[l]?
    let _ ← s.pops ts
    return .nowhere
  | .brIf l, s => do
    let ts ← labels[l]?
    (← s.pop .i32).apply ⟨ts, ts⟩
  | .brTable ls d, s => do
    let ts ← labels[d]?
    let s ← s.pop .i32
    let fits (l : Nat) : Bool := (labels[l]?).any fun us =>
      us.length == ts.length && (s.pops us).isSome
    if ls.all fits && (s.pops ts).isSome then some .nowhere else none
  | .ret, s => (s.pops c.results).map fun _ => .nowhere
  | .call f, s => (c.functions[f]?).bind s.apply
  | .callIndirect table t, s => do
    let holder ← c.tables[table]?
    if holder.element = .functionRef then (← s.pop .i32).apply t else none

/-- Checks code. -/
def Code.check (c : Context) (labels : List (List ValType)) :
    List Instr → Operands → Option Operands
  | [], s => some s
  | i :: rest, s =>
    match i.check c labels s with
    | some s => Code.check c labels rest s
    | none => none
end

/-- Checks a function. Its body is a construct of its own, so a branch out of it returns. -/
def Function.check (c : Context) (f : Function) : Bool :=
  let c := { c with
    locals := (f.type.params ++ f.locals).toArray
    results := f.type.results }
  match Code.check c [f.type.results] f.body (.ofTypes []) with
  | some s => s.closes f.type.results
  | none => false

end HashLoader.Wasm
