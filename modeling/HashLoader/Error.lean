import HashLoader.Host
import HashLoader.Record.Error

/-!
# Errors of the loader

Every failure of an invocation is a `LoaderError`. It belongs to one `ErrorKind`, has a text, and
has the exit code that the host observes.
-/

namespace HashLoader

/-- Coarse classes of failures. -/
inductive ErrorKind
  | encoding
  | argumentFormat
  | sizeLimit
  | loadFailure
  | imageIntegrity
  | symbolResolution
  | syscall
  | execution
deriving DecidableEq, Repr

/-- Why an invocation failed. -/
inductive LoaderError
  /-- The script is no well-formed record. -/
  | encoding (cause : Record.Error)
  /-- The script is longer than the limit. -/
  | scriptTooLarge (len limit : Nat)
  /-- The arguments are too short for a code reference. -/
  | invalidArgsFormat (len min : Nat)
  /-- The code reference has a hash type that is not known. -/
  | unknownHashType (byte : UInt8)
  /-- Payload and label do not fit the input window. -/
  | argumentsLen (payload label : Nat)
  /-- The host refused a call. -/
  | syscall (cause : HostError)
  /-- No dependency has the code hash. -/
  | codeNotFound (hash : Hash)
  /-- The loaded data is not what the code hash names. -/
  | hashMismatch (hash : Hash)
  /-- The code does not fit the arena. -/
  | codeTooLarge (len capacity : Nat)
  /-- The code does not compile or does not link. -/
  | cannotLoad (reason : String)
  /-- The length of the code is not a whole number of pages. -/
  | malformedImage (len : Nat)
  /-- The code does not export the entry point. -/
  | symbolNotFound (name : String)
  /-- The exported entry point has another type. -/
  | signatureMismatch (name : String)
  /-- The first entry point gave no context. -/
  | constructFailed
  /-- The second entry point gave a status other than zero. -/
  | evaluateFailed (status : Int32)
  /-- Running code trapped. -/
  | trapped (reason : String)
  /-- Running code used up its budget. -/
  | exceededMaxCycles
deriving DecidableEq

namespace LoaderError

/-- The text of a failure. -/
def message : LoaderError → String
  | encoding cause => "script envelope is malformed: " ++ cause.message
  | scriptTooLarge len limit =>
    "script is " ++ toString len ++ " bytes; limit is " ++ toString limit
  | invalidArgsFormat len min =>
    "arguments are " ++ toString len ++ " bytes; at least " ++ toString min ++ " required"
  | unknownHashType byte => "unknown hash type " ++ Record.byteText byte
  | argumentsLen payload label =>
    "payload of " ++ toString payload ++ " bytes with label of " ++ toString label
      ++ " bytes does not fit the input window"
  | syscall cause => "syscall failed: " ++ cause.message
  | codeNotFound hash => "no code dependency matches hash " ++ hash.toHex
  | hashMismatch hash => "code blob does not authenticate against " ++ hash.toHex
  | codeTooLarge len capacity =>
    "code is " ++ toString len ++ " bytes; arena capacity is " ++ toString capacity
  | cannotLoad reason => "cannot load code image: " ++ reason
  | malformedImage len => "code image of " ++ toString len ++ " bytes is not page aligned"
  | symbolNotFound name => "symbol `" ++ name ++ "` not found"
  | signatureMismatch name => "symbol `" ++ name ++ "` does not have the expected signature"
  | constructFailed => "construct returned a null context"
  | evaluateFailed status => "evaluate returned " ++ toString status
  | trapped reason => "entry point trapped: " ++ reason
  | exceededMaxCycles => "exceeded maximum cycles"

/-- The class of a failure. -/
def kind : LoaderError → ErrorKind
  | encoding _ => .encoding
  | invalidArgsFormat _ _ | unknownHashType _ | argumentsLen _ _ => .argumentFormat
  | scriptTooLarge _ _ | codeTooLarge _ _ => .sizeLimit
  | codeNotFound _ | hashMismatch _ | cannotLoad _ => .loadFailure
  | malformedImage _ => .imageIntegrity
  | symbolNotFound _ | signatureMismatch _ => .symbolResolution
  | syscall _ => .syscall
  | constructFailed | evaluateFailed _ | trapped _ | exceededMaxCycles => .execution

/-- The exit code of a failure. Codes below zero are shared with other programs of the host, the
loader's own start at 40, and the status of `evaluate` is passed on as it is. -/
def exitCode : LoaderError → Int32
  | argumentsLen _ _ => -1
  | encoding _ => -2
  | syscall _ => -3
  | scriptTooLarge _ _ | codeTooLarge _ _ => -21
  | codeNotFound _ | hashMismatch _ | cannotLoad _ => 40
  | malformedImage _ => 41
  | symbolNotFound _ | signatureMismatch _ => 42
  | invalidArgsFormat _ _ | unknownHashType _ => 43
  | constructFailed => 44
  | trapped _ => 45
  | exceededMaxCycles => 46
  | evaluateFailed status => status

end LoaderError

end HashLoader
