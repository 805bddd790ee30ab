/-
  CustomDbms.Common.ErrorContract
  ───────────────────────────────
  **ERRORS AS TEXT** (`src/common/error_contract.cpp`).
-/
import CustomDbms.Common.Types

namespace CustomDbms.Common

/-- `ErrorCodeName`. -/
def errorCodeName : ErrorCode → Str
  | .ok => str "OK"
  | .parseError => str "PARSE_ERROR"
  | .semanticError => str "SEMANTIC_ERROR"
  | .validationError => str "VALIDATION_ERROR"
  | .storageError => str "STORAGE_ERROR"
  | .authorizationError => str "AUTHORIZATION_ERROR"
  | .networkError => str "NETWORK_ERROR"
  | .notFound => str "NOT_FOUND"
  | .alreadyExists => str "ALREADY_EXISTS"
  | .constraintViolation => str "CONSTRAINT_VIOLATION"
  | .typeMismatch => str "TYPE_MISMATCH"
  | .notImplemented => str "NOT_IMPLEMENTED"

/-- `static_cast<int>(code)`. -/
def errorCodeNumber : ErrorCode → Nat
  | .ok => 0
  | .parseError => 1
  | .semanticError => 2
  | .validationError => 3
  | .storageError => 4
  | .authorizationError => 5
  | .networkError => 6
  | .notFound => 7
  | .alreadyExists => 8
  | .constraintViolation => 9
  | .typeMismatch => 10
  | .notImplemented => 11

/-- `EscapeJsonText`. -/
def escapeJsonText : Str → Str
  | [] => []
  | c :: cs =>
      if c = byte '"' ∨ c = byte '\\' then byte '\\' :: c :: escapeJsonText cs
      else c :: escapeJsonText cs

/-- `FormatErrorContract`. -/
def formatErrorContract (error : Error) (sql : Str) : Str :=
  str "type=" ++ errorCodeName error.code ++ str " code="
    ++ natToString (errorCodeNumber error.code) ++ str " message=" ++ error.message
    ++ str " sql=\"" ++ escapeJsonText sql ++ str "\""

/-- A refusal the server words itself: `FormatErrorContract` without a
statement. -/
def contractText (code : ErrorCode) (message : Str) : Str :=
  formatErrorContract ⟨code, message⟩ []

example : contractText .authorizationError (str "admin required")
    = str "type=AUTHORIZATION_ERROR code=5 message=admin required sql=\"\"" := by decide

end CustomDbms.Common
