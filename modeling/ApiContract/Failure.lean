import ApiContract.Number.Decimal
import ApiContract.Value.Path

/-!
Why a value does not fit its schema, and where.
-/

namespace ApiContract

/-- A reason for which a value, a parameter or a payload is turned down. -/
inductive Reason where
  | notNullable
  | notText
  | textTooShort (least : Nat)
  | textTooLong (most : Nat)
  | textNotListed (allowed : List String)
  | patternMismatch (source : String)
  | notDate
  | notInteger
  | notNumber
  | belowMinimum (minimum : Binary64)
  | aboveMaximum (maximum : Binary64)
  | numberNotListed (allowed : List Binary64)
  | notBoolean
  | notArray
  | tooFewItems (least : Nat)
  | tooManyItems (most : Nat)
  | notObject
  | propertyMissing (property : String)
  | undeclaredKeys (keys : List String)
  | noBranch
  | missingParameter
  | parameterRequired
  | contentTypeNotAllowed
  | stated (text : String)
deriving DecidableEq

def commaList (items : List String) : String := ", ".intercalate items

namespace Reason

def message : Reason → String
  | notNullable => "not nullable"
  | notText => "invalid string value"
  | textTooShort least => "must be at least " ++ toString least ++ " characters long"
  | textTooLong most => "must be at most " ++ toString most ++ " characters long"
  | textNotListed allowed =>
    "should be one of the following; [" ++ commaList allowed ++ "]"
  | patternMismatch source => "must match the pattern " ++ source
  | notDate => "must be a valid date"
  | notInteger => "invalid integer number"
  | notNumber => "invalid number value"
  | belowMinimum minimum => "This property must be >= " ++ minimum.text
  | aboveMaximum maximum => "This property must be <= " ++ maximum.text
  | numberNotListed allowed =>
    "should be one of the following; [" ++ commaList (allowed.map Binary64.text) ++ "]"
  | notBoolean => "must be a boolean"
  | notArray => "invalid array"
  | tooFewItems least => "must contain at least " ++ toString least ++ " items"
  | tooManyItems most => "must contain at most " ++ toString most ++ " items"
  | notObject => "invalid object"
  | propertyMissing property => property ++ " is required"
  | undeclaredKeys keys =>
    "\"" ++ commaList keys ++ "\" is an excess property and therefore is not allowed"
  | noBranch => "no matching schema for provided value"
  | missingParameter => "Missing parameter"
  | parameterRequired => "Param is required"
  | contentTypeNotAllowed => "content-type is not allowed"
  | stated text => text

def unlessHolds (holds : Bool) (r : Reason) : Option Reason := if holds then none else some r

end Reason

/-- A place in the value, the reason, and the value found there if there is one. -/
structure Failure where
  path : Path
  reason : Reason
  value : Option Value := none

namespace Failure

def echoing (path : Path) (reason : Reason) (value : Value) : Failure :=
  { path, reason, value := some value }

def text (f : Failure) : String := f.path.text ++ ": " ++ f.reason.message

end Failure

end ApiContract
