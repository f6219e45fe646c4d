import UriRouting.Number.Decimal
/-!
# Typed values

A value is what a variable is handed back as, what a rule takes as an argument, and what a route
carries as an attribute. A text becomes a value in two ways: a literal in a rule's argument list
shows its type by its form, and a captured text takes the type that its variable's rules imply.
-/

namespace UriRouting

open Number

/-- A typed value. -/
inductive Value where
  /-- A 64-bit integer. -/
  | int (i : Int64)
  /-- A double-precision number. -/
  | float (x : Binary64)
  /-- A truth value. -/
  | bool (b : Bool)
  /-- A text. -/
  | string (s : String)
deriving DecidableEq

/-- The type that a captured text is given. -/
inductive ValueType where
  | int
  | float
  | string
deriving DecidableEq

namespace Value

/-- Whether a text can only be meant as a number: after an optional minus sign it starts with a digit
or a point. -/
def looksNumeric (cs : List Char) : Bool :=
  let body := match cs with
    | '-' :: more => more
    | _ => cs
  match body with
  | c :: _ => c.isDigit || c == '.'
  | [] => false

/-- The value of an unquoted literal: an integer if it reads as one, else a finite number, else a
truth value, else the text itself. -/
def ofLiteral (text : String) : Value :=
  match readInteger text.toList with
  | some i => .int i
  | none =>
    match (Binary64.ofText? text.toList).filter fun x => looksNumeric text.toList && x.isFinite with
    | some x => .float x
    | none =>
      if text == "true" then .bool true
      else if text == "false" then .bool false
      else .string text

/-- A captured text as a value of the given type; a text that does not read as a number stays a
text. -/
def coerce (type : ValueType) (text : String) : Value :=
  match type with
  | .int => ((readInteger text.toList).map .int).getD (.string text)
  | .float => ((Binary64.ofText? text.toList).map .float).getD (.string text)
  | .string => .string text

/-- The value as a number, if it is one. -/
def toNumber? : Value → Option Binary64
  | .int i => some (Binary64.ofInt i.toInt)
  | .float x => some x
  | _ => none

/-- The value as a truth value, if it is one. -/
def toBool? : Value → Option Bool
  | .bool b => some b
  | _ => none

/-- The value as a text, if it is one. -/
def toText? : Value → Option String
  | .string s => some s
  | _ => none

/-- Equality of values: of the same type, and numbers by their numeric value. What is no number
differs from itself. -/
def agrees : Value → Value → Bool
  | .int i, .int j => i == j
  | .float x, .float y => x.equals y
  | .bool a, .bool b => a == b
  | .string s, .string t => s == t
  | _, _ => false

instance : BEq Value := ⟨agrees⟩

/-- Whether a captured text equals the value when it is read in the value's own type. -/
def matchesText (value : Value) (text : String) : Bool :=
  match value with
  | .int i => readInteger text.toList == some i
  | .float x => (Binary64.ofText? text.toList).any (·.equals x)
  | .bool b => text == if b then "true" else "false"
  | .string s => s == text

/-- The value as it appears inside a URI: a text stands for itself. -/
def text : Value → String
  | .int i => String.ofList (writeInteger i)
  | .float x => String.ofList (x.write Binary64.plainStyle)
  | .bool b => if b then "true" else "false"
  | .string s => s

end Value

end UriRouting
