import ApiContract.Calendar.Reader
import ApiContract.Validation.Basic

/-!
Texts, numbers and booleans: what is accepted and what it is coerced to.

The rules are pure and give a value or a reason; a check adds the place, the echo and the events.
-/

namespace ApiContract

abbrev Coercion := Except Reason Value

namespace StringRule

def isDate (rule : StringRule) : Bool :=
  rule.format = some "date" || rule.format = some "date-time"

def isBinary (rule : StringRule) : Bool :=
  rule.format = some "binary" || rule.format = some "byte"

/-- The formats that put no condition on a text. -/
def isPlainFormat (format : String) : Bool :=
  format = "binary" || format = "byte" || format = "password"

/-- The first condition that a text violates: length, list, pattern. -/
def violation? (rule : StringRule) (s : String) : Option Reason :=
  (rule.minLength.bind fun n => Reason.unlessHolds (n ≤ s.length) (.textTooShort n)) <|>
  (rule.maxLength.bind fun n => Reason.unlessHolds (s.length ≤ n) (.textTooLong n)) <|>
  (rule.allowed.bind fun texts => Reason.unlessHolds (texts.contains s) (.textNotListed texts)) <|>
  (rule.pattern.bind fun p => Reason.unlessHolds (p.isMatch s) (.patternMismatch p.source))

/-- Texts of a date format become instants. Instants and binary content that were decoded before
are accepted by their formats. -/
def coerce (rule : StringRule) : Value → Coercion
  | .date t => if rule.isDate then .ok (.date t) else .error .notText
  | .binary bytes => if rule.isBinary then .ok (.binary bytes) else .error .notText
  | .string s =>
    match rule.violation? s with
    | some reason => .error reason
    | none =>
      if rule.isDate then
        match Calendar.Instant.ofText? s with
        | some t => .ok (.date t)
        | none => .error .notDate
      else .ok (.string s)
  | _ => .error .notText

/-- A text with a format that is not known is accepted with a warning. -/
def events (rule : StringRule) (path : Path) : Value → List Event
  | .string _ =>
    match rule.format with
    | some format => if isPlainFormat format then [] else [.unknownFormat path format]
    | none => []
  | _ => []

end StringRule

def bodyRoot : String := "body"

/-- Whether a path lies in a request body. -/
def Path.isBody (p : Path) : Bool :=
  p.root = bodyRoot || (bodyRoot.toList ++ ['.']).isPrefixOf p.root.toList

namespace NumberRule

def mismatch (rule : NumberRule) : Reason := if rule.integer then .notInteger else .notNumber

/-- The number that a value is or, where texts are read, says. -/
def read? (readsText : Bool) : Value → Option Binary64
  | .number x => some x
  | .string s =>
    if readsText then Binary64.ofText? (String.ofList (Text.trim s.toList)) else none
  | _ => none

/-- The first condition that a number violates: range, list. -/
def violation? (rule : NumberRule) (x : Binary64) : Option Reason :=
  (rule.minimum.bind fun m => Reason.unlessHolds (!x.less m) (.belowMinimum m)) <|>
  (rule.maximum.bind fun m => Reason.unlessHolds (!m.less x) (.aboveMaximum m)) <|>
  (rule.allowed.bind fun xs => Reason.unlessHolds (xs.any x.equals) (.numberNotListed xs))

/-- Only finite numbers are accepted, and for integers only whole ones. -/
def coerce (rule : NumberRule) (readsText : Bool) (v : Value) : Except Reason Binary64 :=
  match read? readsText v with
  | none => .error rule.mismatch
  | some x =>
    if !x.isFinite || (rule.integer && !x.isWhole) then .error rule.mismatch
    else
      match rule.violation? x with
      | some reason => .error reason
      | none => .ok x

end NumberRule

/-- Booleans, the words and digits for them, and the numbers one and zero. -/
def Value.toBool? : Value → Option Bool
  | .bool b => some b
  | .string s =>
    if s = "true" ∨ s = "1" then some true
    else if s = "false" ∨ s = "0" then some false
    else none
  | .number x =>
    if x.equals (Binary64.ofNat 1) then some true
    else if x.equals Binary64.zero then some false
    else none
  | _ => none

namespace Validator

def checkString (path : Path) (v : Value) (rule : StringRule) : Validation :=
  match rule.coerce v with
  | .ok w => ⟨rule.events path w, .ok w⟩
  | .error reason => Validation.refuse path reason v

def readsText (d : Validator) (path : Path) : Bool := !d.typedPayload && !path.isBody

def checkNumber (d : Validator) (path : Path) (v : Value) (rule : NumberRule) : Validation :=
  match rule.coerce (d.readsText path) v with
  | .ok x => ⟨[.numberAccepted path x], .ok (.number x)⟩
  | .error reason => Validation.refuse path reason v

def checkBoolean (path : Path) (v : Value) : Validation :=
  match v.toBool? with
  | some b => Report.ok (.bool b)
  | none => Validation.refuse path .notBoolean v

end Validator

end ApiContract
