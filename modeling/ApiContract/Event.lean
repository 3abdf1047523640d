import ApiContract.Fault
import ApiContract.Text.Quoted

/-!
Log events, in the order in which they happen.
-/

namespace ApiContract

inductive Level where
  | debug
  | warn
  | error
deriving DecidableEq

def Level.text : Level → String
  | debug => "DEBUG"
  | warn => "WARN"
  | error => "ERROR"

/-- Something worth a line in the log. -/
inductive Event where
  | numberAccepted (path : Path) (value : Binary64)
  | unknownFormat (path : Path) (format : String)
  | undeclaredStripped (path : Path) (keys : List String)
  | branchRejected (path : Path) (branch : Nat) (failure : Failure)
  | branchSelected (path : Path) (branch : Nat)
  | unsupportedShape (path : Path) (raw : Json)
  | bodySchemaChosen (name : String)
  | undeclaredContent (status : Nat) (contentType : String)
  | responseMismatch (status : Nat) (error : CheckError)

namespace Event

def level : Event → Level
  | numberAccepted .. => .debug
  | unknownFormat .. => .warn
  | undeclaredStripped .. => .warn
  | branchRejected .. => .debug
  | branchSelected .. => .debug
  | unsupportedShape .. => .warn
  | bodySchemaChosen .. => .debug
  | undeclaredContent .. => .error
  | responseMismatch .. => .error

def message : Event → String
  | numberAccepted .. => "number accepted"
  | unknownFormat .. => "unknown string format; value accepted as-is"
  | undeclaredStripped .. => "unexpected additional properties stripped"
  | branchRejected .. => "oneOf branch rejected"
  | branchSelected .. => "oneOf branch selected"
  | unsupportedShape .. => "unsupported schema shape; value accepted without validation"
  | bodySchemaChosen .. => "body schema chosen by discriminator"
  | undeclaredContent .. => "undeclared response content type"
  | responseMismatch .. => "response does not match its schema"

def fields : Event → List (String × String)
  | numberAccepted path value => [("field", path.text), ("value", value.text)]
  | unknownFormat path format => [("field", path.text), ("format", format)]
  | undeclaredStripped path keys => [("field", path.text), ("keys", Text.quotedList keys)]
  | branchRejected path branch failure =>
    [("field", path.text), ("branch", toString branch), ("reason", failure.text)]
  | branchSelected path branch => [("field", path.text), ("branch", toString branch)]
  | unsupportedShape path raw => [("field", path.text), ("schema", raw.render)]
  | bodySchemaChosen name => [("schema", name)]
  | undeclaredContent status contentType =>
    [("status", toString status), ("content_type", contentType)]
  | responseMismatch status error => [("status", toString status), ("error", error.text)]

end Event

end ApiContract
