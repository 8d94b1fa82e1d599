import HashLoader.Args
import HashLoader.Record.Script

/-!
# Local hosts

A local host keeps its state in memory: the script in execution and the deployed cells, in the order
in which they were deployed. A cell is named by an out point. Deploying the same data twice without
a type script gives the cell that is already there; which cell was the first with some data is kept
in an index by data hash.

The names of transactions come from outside, as they are picked at random.
-/

namespace HashLoader

/-- The name of a cell. -/
structure OutPoint where
  txHash : Hash
  index : Nat
deriving DecidableEq

/-- Deployed code. -/
structure Cell where
  outPoint : OutPoint
  data : Bytes
  typeScript : Option Bytes
deriving DecidableEq

namespace Cell

/-- The hash of a cell in a field, if the cell has the field. -/
def hash? (c : Cell) : HashField → Option Hash
  | .data => some (digest c.data)
  | .typeScript => c.typeScript.map digest

end Cell

/-- The state of a local host. -/
structure LocalHost where
  script : Bytes
  cells : List Cell
  /-- The first cell with data of a hash. -/
  byDataHash : List (Hash × OutPoint)
deriving DecidableEq

namespace LocalHost

/-- Nothing is deployed and the script is empty. -/
def empty : LocalHost := ⟨[], [], []⟩

/-- The first cell whose data has a hash. -/
def findByDataHash (h : LocalHost) (hash : Hash) : Option OutPoint := h.byDataHash.lookup hash

/-- Deploys data in a transaction. Data that is already there is not deployed again. -/
def deploy (h : LocalHost) (txHash : Hash) (data : Bytes) : OutPoint × LocalHost :=
  let dataHash := digest data
  match h.findByDataHash dataHash with
  | some outPoint => (outPoint, h)
  | none =>
    let outPoint : OutPoint := ⟨txHash, 0⟩
    (outPoint, { h with
      cells := h.cells ++ [⟨outPoint, data, none⟩]
      byDataHash := h.byDataHash ++ [(dataHash, outPoint)] })

/-- Deploys data with a type script in a transaction. This always makes a cell. -/
def deployTyped (h : LocalHost) (txHash : Hash) (data typeScript : Bytes) : OutPoint × LocalHost :=
  let dataHash := digest data
  let outPoint : OutPoint := ⟨txHash, 0⟩
  (outPoint, { h with
    cells := h.cells ++ [⟨outPoint, data, some typeScript⟩]
    byDataHash :=
      if (h.findByDataHash dataHash).isSome then h.byDataHash
      else h.byDataHash ++ [(dataHash, outPoint)] })

/-- Sets the script in execution. -/
def setScript (h : LocalHost) (script : Bytes) : LocalHost := { h with script }

/-- The cell with a name. -/
def cell? (h : LocalHost) (outPoint : OutPoint) : Option Cell :=
  h.cells.find? fun c => c.outPoint == outPoint

/-- The data of the cell with a name. -/
def data? (h : LocalHost) (outPoint : OutPoint) : Option Bytes := (h.cell? outPoint).map (·.data)

/-- The code hash by which references of a type name a cell. -/
def codeHash? (h : LocalHost) (outPoint : OutPoint) (t : HashType) : Option Hash :=
  (h.cell? outPoint).bind fun c => c.hash? t.field

/-- The code hash of the loader itself, a placeholder. -/
def loaderCodeHash : Hash := Hash.zero

/-- Makes a script of the loader with some arguments. -/
def scriptWithArgs (args : Bytes) : Except Record.Error Bytes :=
  Record.ScriptFields.encode
    { codeHash := loaderCodeHash, hashType := HashType.data1.toByte, args }

/-- Makes a script of the loader that names code by hash. -/
def scriptWithCodeHash (codeHash : Hash) (hashType : HashType) (payload : Bytes) :
    Except Record.Error Bytes :=
  scriptWithArgs (CodeReference.encode { reserved := (0, 0), codeHash, hashType } payload)

/-- Makes a script of the loader that names a cell; there is none if the cell does not exist or has
no such code hash. -/
def scriptFor (h : LocalHost) (outPoint : OutPoint) (hashType : HashType) (payload : Bytes) :
    Except Record.Error (Option Bytes) :=
  match h.codeHash? outPoint hashType with
  | some codeHash => (scriptWithCodeHash codeHash hashType payload).map some
  | none => .ok none

/-- Something done to a local host. -/
inductive Command
  | deploy (txHash : Hash) (data : Bytes)
  | deployTyped (txHash : Hash) (data typeScript : Bytes)
  | setScript (script : Bytes)
deriving DecidableEq

/-- The host after a command. -/
def apply (h : LocalHost) : Command → LocalHost
  | .deploy txHash data => (h.deploy txHash data).2
  | .deployTyped txHash data typeScript => (h.deployTyped txHash data typeScript).2
  | .setScript script => h.setScript script

/-- The host after commands, one after another. -/
def run (h : LocalHost) (commands : List Command) : LocalHost := commands.foldl apply h

/-- The calls of a local host. They change nothing. -/
def host : Host LocalHost where
  loadScript buffer offset h := (partialLoad h.script buffer offset, h)
  loadData buffer offset index h :=
    match h.cells[index]? with
    | some c => (partialLoad c.data buffer offset, h)
    | none => (⟨.error .indexOutOfBound, buffer⟩, h)
  loadHash index field h :=
    match h.cells[index]? with
    | some c => (.ok (c.hash? field), h)
    | none => (.error .indexOutOfBound, h)

end LocalHost

end HashLoader
