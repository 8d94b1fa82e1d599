import HashLoader.Engine
import HashLoader.Wasm.Store

/-!
# Running code

The machine takes one instruction at a time. Its state is the store and a stack of frames, one for
each function that was entered; a frame has its operands, its variables, the code that is still to
be run and a stack of labels, one for each construct that was entered. A label keeps the operands
below its construct, so a branch only has to put those it carries on top of them.

A step does not know the budget of a run. Wherever code may come back to itself, on entering a
function and on reaching the start of a loop, the step says so, and only there `run` compares what
was consumed with the budget. This is also why `run` ends: between two such places the code that is
left gets smaller, and from one to the next the budget does.
-/

namespace HashLoader.Wasm

/-- Why running code stops before its end. -/
inductive Trap
  | unreachable
  | memoryOutOfBounds
  | tableOutOfBounds
  | nullFunction
  | functionTypeMismatch
  /-- Too many functions wait for one another. -/
  | stackOverflow
  | arithmetic (fault : ArithFault)
deriving DecidableEq, Repr

/-- How a run fails. -/
inductive Failure
  | trap (cause : Trap)
  /-- A message lies outside the shared memory. -/
  | messageOutOfBounds
  /-- The budget is used up. -/
  | outOfCycles
  /-- An operand or an index is missing, which checked code never meets. -/
  | stuck
deriving DecidableEq, Repr

/-- What a failure is called. -/
def Failure.describe : Failure → String
  | trap .unreachable => "unreachable code was reached"
  | trap .memoryOutOfBounds => "memory access out of bounds"
  | trap .tableOutOfBounds => "table access out of bounds"
  | trap .nullFunction => "call of a missing table entry"
  | trap .functionTypeMismatch => "indirect call of a function of another type"
  | trap .stackOverflow => "call stack exhausted"
  | trap (.arithmetic .divideByZero) => "integer division by zero"
  | trap (.arithmetic .overflow) => "integer overflow"
  | messageOutOfBounds => "debug: out of bounds memory access"
  | outOfCycles => "out of cycles"
  | stuck => "code is stuck"

/-- What a function index stands for. -/
inductive Callee
  /-- Sends a message. -/
  | debug
  | code (f : Function)
deriving Repr

/-- The type of what a function index stands for. -/
def Callee.type : Callee → FuncType
  | debug => debugType
  | code f => f.type

/-- A module whose imports are settled. -/
structure Instance where
  functions : Array Callee
  /-- Whether memory instructions go to the shared memory. -/
  usesShared : Bool

/-- An entered construct. -/
structure Label where
  /-- How many operands a branch to it carries. -/
  arity : Nat
  /-- What a branch to it runs, if it is a loop. -/
  again : Option Code
  /-- What runs after it. -/
  next : Code
  /-- The operands below it. -/
  below : List Value

/-- An entered function. -/
structure Frame where
  locals : Array Value
  /-- The operands above the innermost label, top first. -/
  operands : List Value
  code : Code
  /-- The entered constructs, innermost first. -/
  labels : List Label
  /-- How many results the function has. -/
  arity : Nat

/-- What a basic instruction acts on. -/
structure Workspace where
  locals : Array Value
  /-- Top first. -/
  operands : List Value
  store : Store

/-- What a basic instruction leads to. -/
inductive Effect
  | ok (w : Workspace)
  | failed (why : Failure) (store : Store)

/-- The number that `size` bytes spell, with or without sign, as an integer of `w` bits. -/
def extendTo (w : Nat) (size : Nat) (isSigned : Bool) (n : Nat) : BitVec w :=
  if isSigned then (BitVec.ofNat (8 * size) n).signExtend w else BitVec.ofNat w n

namespace Basic

/-- Loads an integer. -/
def load? (m : Memory) (width : Width) (size : Nat) (isSigned : Bool) (address : Nat) :
    Option Value :=
  (m.read address size).map fun b =>
    match width with
    | .w32 => .i32 (extendTo 32 size isSigned b.toNatLE)
    | .w64 => .i64 (extendTo 64 size isSigned b.toNatLE)

/-- The bits of an integer of the width. -/
def bits? : Width → Value → Option Nat
  | .w32, .i32 v => some v.toNat
  | .w64, .i64 v => some v.toNat
  | _, _ => none

/-- Runs a basic instruction. -/
def exec (inst : Instance) (op : Basic) (w : Workspace) : Effect :=
  match w with
  | ⟨locals, operands, s⟩ =>
    match op, operands with
    | nop, operands => .ok ⟨locals, operands, s⟩
    | drop, _ :: rest => .ok ⟨locals, rest, s⟩
    | select _, .i32 c :: b :: a :: rest => .ok ⟨locals, (if c = 0 then b else a) :: rest, s⟩
    | const v, operands => .ok ⟨locals, v :: operands, s⟩
    | test .w32, .i32 a :: rest => .ok ⟨locals, ofBool (a == 0) :: rest, s⟩
    | test .w64, .i64 a :: rest => .ok ⟨locals, ofBool (a == 0) :: rest, s⟩
    | unary .w32 o, .i32 a :: rest => .ok ⟨locals, .i32 (o.eval a) :: rest, s⟩
    | unary .w64 o, .i64 a :: rest => .ok ⟨locals, .i64 (o.eval a) :: rest, s⟩
    | binary .w32 o, .i32 b :: .i32 a :: rest =>
      match o.eval a b with
      | .ok v => .ok ⟨locals, .i32 v :: rest, s⟩
      | .error e => .failed (.trap (.arithmetic e)) s
    | binary .w64 o, .i64 b :: .i64 a :: rest =>
      match o.eval a b with
      | .ok v => .ok ⟨locals, .i64 v :: rest, s⟩
      | .error e => .failed (.trap (.arithmetic e)) s
    | compare .w32 o, .i32 b :: .i32 a :: rest => .ok ⟨locals, ofBool (o.eval a b) :: rest, s⟩
    | compare .w64 o, .i64 b :: .i64 a :: rest => .ok ⟨locals, ofBool (o.eval a b) :: rest, s⟩
    | wrap, .i64 a :: rest => .ok ⟨locals, .i32 (a.setWidth 32) :: rest, s⟩
    | extend true, .i32 a :: rest => .ok ⟨locals, .i64 (a.signExtend 64) :: rest, s⟩
    | extend false, .i32 a :: rest => .ok ⟨locals, .i64 (a.setWidth 64) :: rest, s⟩
    | isNull, .null _ :: rest => .ok ⟨locals, .i32 1 :: rest, s⟩
    | localGet i, operands =>
      match locals[i]? with
      | some v => .ok ⟨locals, v :: operands, s⟩
      | none => .failed .stuck s
    | localSet i, v :: rest => .ok ⟨locals.setIfInBounds i v, rest, s⟩
    | localTee i, v :: rest => .ok ⟨locals.setIfInBounds i v, v :: rest, s⟩
    | globalGet i, operands =>
      match s.globals[i]? with
      | some v => .ok ⟨locals, v :: operands, s⟩
      | none => .failed .stuck s
    | globalSet i, v :: rest => .ok ⟨locals, rest, s.setGlobal i v⟩
    | load width size isSigned offset, .i32 a :: rest =>
      match load? (s.memory inst.usesShared) width size isSigned (a.toNat + offset) with
      | some v => .ok ⟨locals, v :: rest, s⟩
      | none => .failed (.trap .memoryOutOfBounds) s
    | store width size offset, v :: .i32 a :: rest =>
      match bits? width v with
      | none => .failed .stuck s
      | some bits =>
        if (s.memory inst.usesShared).contains (a.toNat + offset) size then
          .ok ⟨locals, rest, s.mapMemory inst.usesShared fun m =>
            m.put (a.toNat + offset) (Bytes.ofNatLE size bits)⟩
        else .failed (.trap .memoryOutOfBounds) s
    | memorySize, operands =>
      .ok ⟨locals, .i32 (BitVec.ofNat 32 (s.memory inst.usesShared).pages) :: operands, s⟩
    | memoryGrow, .i32 n :: rest =>
      match (s.memory inst.usesShared).grow n.toNat with
      | some grown =>
        .ok ⟨locals, .i32 (BitVec.ofNat 32 (s.memory inst.usesShared).pages) :: rest,
          s.mapMemory inst.usesShared fun _ => grown⟩
      | none => .ok ⟨locals, .i32 (BitVec.allOnes 32) :: rest, s⟩
    | _, _ => .failed .stuck s

end Basic

/-- How many functions may be entered at a time. What is bounded in an engine is the bytes of the
native stack, half a mebibyte; so many frames fit if each needs only 32 of them. -/
def maxFrames : Nat := 524288 / 32

/-- Where a run is. -/
structure State where
  /-- The function that is running. -/
  frame : Frame
  /-- The functions that wait for it, innermost first. -/
  callers : List Frame
  store : Store

/-- What one step leads to. -/
inductive Step
  | next (s : State)
  /-- A function was entered or the start of a loop was reached. -/
  | checkpoint (s : State)
  | done (results : List Value) (store : Store)
  | failed (why : Failure) (store : Store)

namespace State

/-- Leaves the running function. -/
def leave (s : State) : Step :=
  let results := s.frame.operands.take s.frame.arity
  match s.callers with
  | [] => .done results s.store
  | c :: rest => .next ⟨{ c with operands := results ++ c.operands }, rest, s.store⟩

/-- Branches to the construct with a number, or out of the function. -/
def branch (s : State) (l : Nat) : Step :=
  match s.frame.labels.drop l with
  | [] => s.leave
  | label :: outer =>
    let carried := s.frame.operands.take label.arity
    match label.again with
    | some body =>
      .checkpoint { s with
        frame := { s.frame with code := body, labels := label :: outer, operands := carried } }
    | none =>
      .next { s with
        frame := { s.frame with
          code := label.next, labels := outer, operands := carried ++ label.below } }

/-- Enters a construct: its body runs on `params` operands, and the code of the frame after it. -/
def enter (s : State) (params arity : Nat) (again : Option Code) (body : Code) : State :=
  let label : Label :=
    { arity, again, next := s.frame.code, below := s.frame.operands.drop params }
  { s with
    frame := { s.frame with
      code := body, labels := label :: s.frame.labels
      operands := s.frame.operands.take params } }

/-- The frame of a function on entering it, last argument first. -/
def frameOf (f : Function) (args : List Value) : Frame where
  locals := (args.reverse ++ f.locals.map ValType.zero).toArray
  operands := []
  code := f.body
  labels := []
  arity := f.type.results.length

/-- Calls a function. Entering a function of the module costs one cycle, and takes one of the frames
that a run may have. -/
def call (inst : Instance) (index : Nat) (s : State) : Step :=
  match inst.functions[index]? with
  | some (.code f) =>
    if maxFrames ≤ s.callers.length + 1 then .failed (.trap .stackOverflow) s.store
    else
      let n := f.type.params.length
      .checkpoint
        { frame := frameOf f (s.frame.operands.take n)
          callers := { s.frame with operands := s.frame.operands.drop n } :: s.callers
          store := s.store.charge 1 }
  | some .debug =>
    match s.frame.operands with
    | .i32 len :: .i32 address :: rest =>
      match s.store.debug address len with
      | some store => .next { s with store, frame := { s.frame with operands := rest } }
      | none => .failed .messageOutOfBounds s.store
    | _ => .failed .stuck s.store
  | none => .failed .stuck s.store

/-- Calls the function in an entry of a table, which has to have the expected type. -/
def callIndirect (inst : Instance) (table : Nat) (type : FuncType) (s : State) : Step :=
  match s.frame.operands, s.store.tables[table]? with
  | .i32 entry :: rest, some entries =>
    match entries.get? entry.toNat with
    | none => .failed (.trap .tableOutOfBounds) s.store
    | some none => .failed (.trap .nullFunction) s.store
    | some (some index) =>
      match inst.functions[index]? with
      | none => .failed .stuck s.store
      | some callee =>
        if callee.type = type then
          call inst index { s with frame := { s.frame with operands := rest } }
        else .failed (.trap .functionTypeMismatch) s.store
  | _, _ => .failed .stuck s.store

/-- Takes a condition from the operands and goes on with it. -/
def withCondition (s : State) (f : BitVec 32 → State → Step) : Step :=
  match s.frame.operands with
  | .i32 c :: rest => f c { s with frame := { s.frame with operands := rest } }
  | _ => .failed .stuck s.store

/-- One step. -/
def step (inst : Instance) (s : State) : Step :=
  match s with
  | ⟨⟨locals, operands, code, labels, arity⟩, callers, store⟩ =>
    match code with
    | [] =>
      match labels with
      | [] => leave ⟨⟨locals, operands, [], [], arity⟩, callers, store⟩
      | label :: outer =>
        .next ⟨⟨locals, operands ++ label.below, label.next, outer, arity⟩, callers, store⟩
    | i :: rest =>
      let here : State := ⟨⟨locals, operands, rest, labels, arity⟩, callers, store⟩
      let paid : State := ⟨⟨locals, operands, rest, labels, arity⟩, callers, store.charge 1⟩
      match i with
      | .basic op =>
        match op.exec inst ⟨locals, operands, store.charge op.cost⟩ with
        | .ok w => .next ⟨⟨w.locals, w.operands, rest, labels, arity⟩, callers, w.store⟩
        | .failed why store => .failed why store
      | .unreachable => .failed (.trap .unreachable) store
      | .block t body => .next (here.enter t.params.length t.results.length none body)
      | .loop t body => .checkpoint (here.enter t.params.length t.params.length (some body) body)
      | .cond t yes no =>
        paid.withCondition fun c s =>
          .next (s.enter t.params.length t.results.length none (if c = 0 then no else yes))
      | .br l => paid.branch l
      | .brIf l => paid.withCondition fun c s => if c = 0 then .next s else s.branch l
      | .brTable targets default =>
        paid.withCondition fun c s => s.branch (targets.getD c.toNat default)
      | .ret => here.leave
      | .call f => paid.call inst f
      | .callIndirect table t => paid.callIndirect inst table t

end State

end HashLoader.Wasm
