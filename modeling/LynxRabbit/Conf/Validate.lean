/-
# Errors and the name validators

`errors.go`: the package error variables, `ErrorWithContext`, `WrapError`,
`IsError`; `utils.go`: `validateExchange`, `validateQueue`,
`validateExchangeType`, `validateVirtualHost`.

The three name validators run the same three checks in the same order with their
own error variables, noun and list of forbidden characters, so they are
`validateName` at three sets of arguments.  A Go string is its bytes: `len` is
`utf8ByteSize`, and `strings.Contains` of a one-character string is membership.
-/

import LynxRabbit.Conf.Config

namespace LynxRabbit

/-- The error variables of `errors.go` that the client returns. -/
inductive ErrVar
  | producerNotReady
  | producerNotFound
  | consumerNotReady
  | consumerNotFound
  | subscribeFailed
  | publishMessageFailed
  | emptyExchange
  | emptyQueue
  | emptyMessage
  | invalidExchange
  | invalidQueue
  | invalidExchangeType
  | invalidVirtualHost
deriving DecidableEq, Repr

/-- The text of an error variable. -/
def ErrVar.text : ErrVar → String
  | .producerNotReady => "producer is not ready"
  | .producerNotFound => "producer not found"
  | .consumerNotReady => "consumer is not ready"
  | .consumerNotFound => "consumer not found"
  | .subscribeFailed => "failed to subscribe to queue"
  | .publishMessageFailed => "failed to publish message"
  | .emptyExchange => "exchange cannot be empty"
  | .emptyQueue => "queue cannot be empty"
  | .emptyMessage => "message cannot be empty"
  | .invalidExchange => "invalid exchange"
  | .invalidQueue => "invalid queue"
  | .invalidExchangeType => "invalid exchange type"
  | .invalidVirtualHost => "invalid virtual host"

/-- A non-nil Go `error`: a package variable, an `ErrorWithContext` around one,
an `fmt.Errorf` with or without a `%w` at its end, or a value that came from
outside the package (the broker library, a context, the runtime). -/
inductive GoError
  | var (v : ErrVar)
  | withContext (err : GoError) (context : String)
  | errorf (text : String)
  | wrapf (text : String) (err : GoError)
  | library (text : String)
deriving DecidableEq, Repr

/-- `Error()`. -/
def GoError.text : GoError → String
  | .var v => v.text
  | .withContext err context => if context ≠ "" then context ++ ": " ++ err.text else err.text
  | .errorf text => text
  | .wrapf text err => text ++ ": " ++ err.text
  | .library text => text

/-- `WrapError`. -/
def wrapError (err : GoError) (context : String) : GoError := .withContext err context

/-- `IsError` against a package variable: `errors.Is` along `Unwrap`. -/
def GoError.isError : GoError → ErrVar → Bool
  | .var v, target => v == target
  | .withContext err _, target => err.isError target
  | .errorf _, _ => false
  | .wrapf _ err, target => err.isError target
  | .library _, _ => false

/-- `invalidNameChars`. -/
def invalidNameChars : List Char := ['%', '&', '*', '+', '/', '\\', ':', '|', '<', '>', '?', ' ']

/-- `invalidVHostChars`: as `invalidNameChars`, with the slash allowed. -/
def invalidVHostChars : List Char := ['%', '&', '*', '+', '\\', ':', '|', '<', '>', '?', ' ']

/-- The checks the name validators share: not empty, at most 255 bytes, no
forbidden character; the first forbidden one in list order is reported. -/
def validateName (empty invalid : ErrVar) (noun : String) (chars : List Char) (name : String) :
    Option GoError :=
  if name = "" then some (.var empty)
  else if name.utf8ByteSize > 255 then some (wrapError (.var invalid) (noun ++ " name too long"))
  else (chars.find? fun c => name.toList.contains c).map fun c =>
    wrapError (.var invalid) (noun ++ " contains invalid character: " ++ c.toString)

def validateExchange : String → Option GoError :=
  validateName .emptyExchange .invalidExchange "exchange" invalidNameChars

def validateQueue : String → Option GoError :=
  validateName .emptyQueue .invalidQueue "queue" invalidNameChars

def validateVirtualHost : String → Option GoError :=
  validateName .invalidVirtualHost .invalidVirtualHost "virtual host" invalidVHostChars

def validateExchangeType (exchangeType : String) : Option GoError :=
  if exchangeType ∈ exchangeTypes then none
  else some (wrapError (.var .invalidExchangeType) ("invalid exchange type: " ++ exchangeType))

/-! ### The kind of an error -/

/-- The error is of this kind and of no other. -/
def GoError.OfKind (e : GoError) (kind : ErrVar) : Prop := ∀ v, e.isError v = true ↔ v = kind

theorem ofKind_var (v : ErrVar) : (GoError.var v).OfKind v := by
  intro w
  rw [GoError.isError, beq_iff_eq]
  exact eq_comm

theorem GoError.OfKind.wrapError {e : GoError} {v : ErrVar} (h : e.OfKind v) (context : String) :
    (wrapError e context).OfKind v := h

theorem GoError.OfKind.wrapf {e : GoError} {v : ErrVar} (h : e.OfKind v) (text : String) :
    (GoError.wrapf text e).OfKind v := h

/-- A name that is not empty is refused with a context. -/
theorem eq_wrapError_of_validateName {empty invalid : ErrVar} {noun name : String}
    {chars : List Char} {e : GoError} (hname : name ≠ "")
    (h : validateName empty invalid noun chars name = some e) :
    ∃ context, e = wrapError (.var invalid) context := by
  rw [validateName, if_neg hname] at h
  split_ifs at h
  · exact ⟨_, (Option.some.inj h).symm⟩
  · obtain ⟨c, -, rfl⟩ := Option.map_eq_some_iff.1 h
    exact ⟨_, rfl⟩

/-- A name that is not empty is refused with the validator's own kind. -/
theorem validateName_ofKind {empty invalid : ErrVar} {noun name : String} {chars : List Char}
    {e : GoError} (hname : name ≠ "")
    (h : validateName empty invalid noun chars name = some e) : e.OfKind invalid := by
  obtain ⟨context, rfl⟩ := eq_wrapError_of_validateName hname h
  exact (ofKind_var invalid).wrapError context

end LynxRabbit
