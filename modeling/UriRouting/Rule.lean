import UriRouting.Value
import UriRouting.Pattern
import UriRouting.Text.Uuid
/-!
# Rules

A rule is a condition on the text of a variable. The built-in rules are a closed set; an application
adds rules of its own, which are a name and a predicate.
-/

namespace UriRouting

open Number

/-- A rule that an application adds. -/
structure CustomRule where
  /-- The name that the rule gives itself. -/
  slug : String
  /-- Whether a text satisfies the rule. -/
  passes : String → Bool

/-- A rule with its arguments. -/
inductive Rule where
  /-- The text is a 64-bit integer. -/
  | int
  /-- The text is a finite number. -/
  | float
  /-- The text is a unique identifier of version 4. -/
  | uuid4
  /-- The text is one or more ASCII letters and digits. -/
  | alphanumeric
  /-- The pattern matches somewhere in the text. -/
  | pattern (p : Pattern)
  /-- The text equals one of the values, read in the value's type. -/
  | oneOf (values : List Value)
  /-- The text is a number above a bound. -/
  | min (bound : Binary64) (inclusive : Bool)
  /-- The text is a number below a bound. -/
  | max (bound : Binary64) (inclusive : Bool)
  /-- The text is a number between two bounds. -/
  | between (lower upper : Binary64) (inclusive : Bool)
  /-- A rule of the application. -/
  | custom (rule : CustomRule)

namespace Rule

/-- The name of a rule. -/
def slug : Rule → String
  | .int => "int"
  | .float => "float"
  | .uuid4 => "uuidv4"
  | .alphanumeric => "alphanumeric"
  | .pattern _ => "regex"
  | .oneOf _ => "in"
  | .min _ _ => "min"
  | .max _ _ => "max"
  | .between _ _ _ => "between"
  | .custom rule => rule.slug

/-- A text as a finite number. -/
def finiteNumber? (text : String) : Option Binary64 :=
  (Binary64.ofText? text.toList).filter (·.isFinite)

/-- Whether the first number does not exceed the second, or is less than it. -/
def ordered (inclusive : Bool) (x y : Binary64) : Bool :=
  if inclusive then x.atMost y else x.below y

/-- Whether a text satisfies the rule. -/
def passes (rule : Rule) (text : String) : Bool :=
  match rule with
  | .int => (readInteger text.toList).isSome
  | .float => (finiteNumber? text).isSome
  | .uuid4 => Text.isUuidVersion4 text.toList
  | .alphanumeric => !text.isEmpty && text.toList.all Char.isAlphanum
  | .pattern p => p.matchesIn text
  | .oneOf values => values.any (·.matchesText text)
  | .min bound inclusive => (finiteNumber? text).any (ordered inclusive bound)
  | .max bound inclusive => (finiteNumber? text).any (ordered inclusive · bound)
  | .between lower upper inclusive =>
    (finiteNumber? text).any fun x => ordered inclusive lower x && ordered inclusive x upper
  | .custom rule => rule.passes text

/-- The type of a text that satisfies the rule, if the rule implies one. -/
def valueType? : Rule → Option ValueType
  | .int => some .int
  | .float => some .float
  | _ => none

end Rule

end UriRouting
