import Mathlib.Logic.Basic

/-
  The error taxonomy of the handler.

  Main declarations:
    * `ApiError`
    * `ApiError.display`
    * `Halt`
-/

------------------------------------------------------------
-- Errors
------------------------------------------------------------

namespace IcpHandler

namespace Model

/- `ApiError`, one constructor for each category. -/
inductive ApiError where
  | invalidRequest (message : String)
  | authenticationFailed (message : String)
  | mandateInvalid (message : String)
  | mandateOutOfScope (message : String)
  | mandateBudgetExceeded (message : String)
  | intentNotSupported (message : String)
  | resourceNotFound (message : String)
  | conflict (message : String)
  | idempotencyConflict (message : String)
  | preconditionFailed (message : String)
  | rateLimited
  | engineUnavailable (message : String)
  | processingError (message : String)
  deriving DecidableEq, Repr

namespace ApiError

/- The `Display` text of an error. -/
def display : ApiError → String
  | .invalidRequest m => "invalid_request: " ++ m
  | .authenticationFailed m => "authentication_failed: " ++ m
  | .mandateInvalid m => "mandate_invalid: " ++ m
  | .mandateOutOfScope m => "mandate_out_of_scope: " ++ m
  | .mandateBudgetExceeded m => "mandate_budget_exceeded: " ++ m
  | .intentNotSupported m => "intent_not_supported: " ++ m
  | .resourceNotFound m => "resource_not_found: " ++ m
  | .conflict m => "conflict: " ++ m
  | .idempotencyConflict m => "idempotency_conflict: " ++ m
  | .preconditionFailed m => "precondition_failed: " ++ m
  | .rateLimited => "rate_limited"
  | .engineUnavailable m => "engine_unavailable: " ++ m
  | .processingError m => "processing_error: " ++ m

end ApiError

/-
  How an operation can stop early: it returns an error to its
  caller, or it panics, which aborts the process in the
  release profile.
-/
inductive Halt where
  | error (error : ApiError)
  | panicked (message : String)
  deriving DecidableEq, Repr

end Model

end IcpHandler
