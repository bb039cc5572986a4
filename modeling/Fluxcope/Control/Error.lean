import Mathlib.Data.List.Basic
/-!
# Errors of the control interface

The details of an error are a JSON object: the name of the field at fault, where
there is one, and numbers.
-/

namespace Fluxcope.Control

inductive ControlErrorCode
  | invalidArgument
  | noInstances
  | instanceRequired
  | instanceNotFound
  | instanceGenerationConflict
  | instanceUnavailable
  | rpcVersionMismatch
  | rpcFrameTooLarge
  | resourceLimit
  | captureNotFound
  | captureRevisionConflict
  | settingsRevisionConflict
  | mappingValidationFailed
  | tuiDraftConflict
  | serviceUnavailable
  | unsupportedBodyEncoding
  | deadlineExceeded
  | cancelled
  | undecodableBody
  | bodyNotTextual
  | notFound
  | malformedJson
  | jsonDepthLimit
  | jsonSizeLimit
  | internalError
  deriving DecidableEq, Repr

structure ControlError where
  code : ControlErrorCode
  message : String
  retryable : Bool
  field : Option String := none
  details : List (String × Nat) := []
  deriving DecidableEq, Repr

namespace ControlError

def invalidArgument (message : String) : ControlError :=
  { code := .invalidArgument, message, retryable := false }

def deadlineExceeded (message : String) : ControlError :=
  { code := .deadlineExceeded, message, retryable := true }

def cancelled (message : String) : ControlError :=
  { code := .cancelled, message, retryable := true }

def internal (message : String) : ControlError :=
  { code := .internalError, message, retryable := false }

end ControlError

end Fluxcope.Control
