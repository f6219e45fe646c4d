import UriRouting.Rule
import UriRouting.SortedMap
import UriRouting.Text.Quoted
import UriRouting.Template.Tree
/-!
# Rule books

A rule book gives a meaning to the names of rules. The built-in names are always known; a rule of
the application takes precedence over a built-in one of the same name.
-/

namespace UriRouting

/-! ## Faults -/

/-- Why arguments do not fit a rule. -/
inductive ArgumentFault where
  /-- There are too few or too many arguments. -/
  | count (least most given : Nat)
  /-- There is no argument where at least one is needed. -/
  | noMembers
  /-- An argument is not a number. -/
  | notNumber (value : Value)
  /-- An argument is not a truth value. -/
  | notTruthValue (value : Value)
  /-- The lower bound exceeds the upper one. -/
  | crossedBounds (lower upper : Binary64)
  /-- An argument is no pattern. -/
  | pattern (fault : Pattern.PatternFault)
  /-- A rule of the application refuses its arguments. -/
  | refused (reason : String)

/-- The fault in words. -/
def ArgumentFault.message : ArgumentFault → String
  | .count least most given =>
    let expected := if least = most then toString least else s!"{least} or {most}"
    s!"expected {expected} arguments, got {given}"
  | .noMembers => "expected at least 1 argument, got 0"
  | .notNumber value => s!"expected a number, got '{value.text}'"
  | .notTruthValue value => s!"expected true or false, got '{value.text}'"
  | .crossedBounds lower upper =>
    s!"minimum {(Value.float lower).text} exceeds maximum {(Value.float upper).text}"
  | .pattern fault => fault.message
  | .refused reason => reason

/-- Why a rule cannot be made. -/
inductive RuleFault where
  /-- No rule has the name. -/
  | unknown (slug : String)
  /-- The arguments do not fit the rule. -/
  | arguments (slug : String) (fault : ArgumentFault)

/-! ## Built-in rules -/

namespace Rule

/-- The names of the built-in rules. -/
def builtInSlugs : List String :=
  ["int", "float", "uuidv4", "alphanumeric", "regex", "in", "min", "max", "between"]

/-- A rule without arguments. -/
def plain (rule : Rule) : List Value → Except ArgumentFault Rule
  | [] => .ok rule
  | arguments => .error (.count 0 0 arguments.length)

/-- An argument as a number. -/
def numberArgument (value : Value) : Except ArgumentFault Binary64 :=
  match value.toNumber? with
  | some x => .ok x
  | none => .error (.notNumber value)

/-- The flag that says whether a bound belongs to the range; it does unless the flag denies it. -/
def inclusiveArgument : Option Value → Except ArgumentFault Bool
  | none => .ok true
  | some value =>
    match value.toBool? with
    | some b => .ok b
    | none => .error (.notTruthValue value)

/-- A rule with one bound and perhaps a flag. -/
def bounded (make : Binary64 → Bool → Rule) : List Value → Except ArgumentFault Rule
  | bound :: flag =>
    if flag.length ≤ 1 then do
      let bound ← numberArgument bound
      let inclusive ← inclusiveArgument flag.head?
      return make bound inclusive
    else .error (.count 1 2 (flag.length + 1))
  | [] => .error (.count 1 2 0)

/-- A rule with two bounds and perhaps a flag. -/
def ranged : List Value → Except ArgumentFault Rule
  | lower :: upper :: flag =>
    if flag.length ≤ 1 then do
      let lower ← numberArgument lower
      let upper ← numberArgument upper
      if upper.below lower then .error (.crossedBounds lower upper)
      else do
        let inclusive ← inclusiveArgument flag.head?
        return .between lower upper inclusive
    else .error (.count 2 3 (flag.length + 2))
  | arguments => .error (.count 2 3 arguments.length)

/-- A rule with a pattern; an argument of any type is taken as its text. -/
def patterned : List Value → Except ArgumentFault Rule
  | [value] =>
    match Pattern.ofSource value.text with
    | .ok p => .ok (.pattern p)
    | .error fault => .error (.pattern fault)
  | arguments => .error (.count 1 1 arguments.length)

/-- A rule with members. -/
def membered : List Value → Except ArgumentFault Rule
  | [] => .error .noMembers
  | values => .ok (.oneOf values)

/-- How the built-in rule of a name is made from its arguments. -/
def builtIn? (slug : String) : Option (List Value → Except ArgumentFault Rule) :=
  match slug with
  | "int" => some (plain .int)
  | "float" => some (plain .float)
  | "uuidv4" => some (plain .uuid4)
  | "alphanumeric" => some (plain .alphanumeric)
  | "regex" => some patterned
  | "in" => some membered
  | "min" => some (bounded .min)
  | "max" => some (bounded .max)
  | "between" => some ranged
  | _ => none

end Rule

/-! ## Rule books -/

/-- How an application makes a rule from its arguments, or its reason not to. -/
abbrev RuleMaker := List Value → Except String CustomRule

/-- The rules of an application, by name. -/
structure RuleBook where
  /-- The rules beside the built-in ones. -/
  custom : SortedMap RuleMaker := .empty

namespace RuleBook

/-- The book of the built-in rules. -/
def standard : RuleBook := {}

/-- The book with a rule added under a name; an earlier rule of that name is replaced. -/
def add (book : RuleBook) (slug : String) (maker : RuleMaker) : RuleBook :=
  ⟨book.custom.insert slug maker⟩

/-- Whether a name has a meaning. -/
def contains (book : RuleBook) (slug : String) : Bool :=
  book.custom.contains slug || Rule.builtInSlugs.contains slug

/-- How the rule of a name is made, if the name has a meaning. -/
def maker? (book : RuleBook) (slug : String) : Option (List Value → Except ArgumentFault Rule) :=
  match book.custom.get? slug with
  | some make => some fun arguments => ((make arguments).map .custom).mapError .refused
  | none => Rule.builtIn? slug

/-- The rule of a name with its arguments. -/
def rule (book : RuleBook) (slug : String) (arguments : List Value) : Except RuleFault Rule :=
  match book.maker? slug with
  | none => .error (.unknown slug)
  | some make => (make arguments).mapError (.arguments slug)

/-- The rule that a template calls for. -/
def resolve (book : RuleBook) (call : RuleCall) : Except RuleFault Rule :=
  book.rule call.slug call.arguments

/-- The names that the book knows, for diagnostics. -/
def description (book : RuleBook) : String :=
  "RuleRegistry \x7b builtin: " ++ Text.quotedList Rule.builtInSlugs ++ ", custom: "
    ++ Text.quotedList book.custom.names ++ " \x7d"

end RuleBook

end UriRouting
