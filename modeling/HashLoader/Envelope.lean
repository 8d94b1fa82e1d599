import HashLoader.Error
import HashLoader.Record.Script

/-!
# Envelopes

An envelope is the script of an invocation as the host hands it out: raw bytes that were verified to
be one script. Size is checked before content, and a script that does not fit the buffer it is
loaded into is refused, not cut.
-/

namespace HashLoader

/-- A verified script together with its bytes. -/
structure Envelope where
  raw : Bytes
  script : Record.Script
deriving DecidableEq

namespace Envelope

/-- The arguments of the script. -/
def args (e : Envelope) : Bytes := e.script.args.bytes

/-- Verifies a script of at most `limit` bytes. -/
def parse (raw : Bytes) (limit : Nat) : Except LoaderError Envelope :=
  if limit < raw.length then
    .error (.scriptTooLarge raw.length limit)
  else
    match Record.Script.verify raw with
    | .ok script => .ok { raw, script }
    | .error e => .error (.encoding e)

/-- Loads the script in execution into a zeroed buffer of `size` bytes and gives the part that the
host says it filled. -/
def load {σ : Type} (host : Host σ) (size : Nat) (s : σ) : Except LoaderError Bytes × σ :=
  match host.loadScript (Vector.replicate size 0) 0 s with
  | (⟨.error e, _⟩, s) => (.error (.syscall e), s)
  | (⟨.ok len, buffer⟩, s) =>
    if size < len then (.error (.scriptTooLarge len size), s)
    else (.ok (buffer.toList.take len), s)

end Envelope

end HashLoader
