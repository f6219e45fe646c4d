import UriRouting.Value
/-!
# Template trees

A template is a sequence of literal texts, variables and optional segments. A variable has a list of
rules and may have a default. The tree is written back in template syntax, strings among a rule's
arguments always in quotes.
-/

namespace UriRouting

/-- A rule as a template names it, with its arguments. -/
structure RuleCall where
  /-- The name of the rule. -/
  slug : String
  /-- The arguments, in order. -/
  arguments : List Value

namespace RuleCall

/-- Equality of calls, their arguments compared as values. -/
def agrees (a b : RuleCall) : Bool :=
  a.slug == b.slug && a.arguments == b.arguments

instance : BEq RuleCall := ⟨agrees⟩

end RuleCall

/-- A template, or a part of one. -/
inductive Tree where
  /-- Parts one after another. -/
  | sequence (parts : List Tree)
  /-- A text that stands for itself. -/
  | literal (text : String)
  /-- A variable with its rules and its default. -/
  | variable (name : String) (calls : List RuleCall) (default : Option String)
  /-- Parts that may be left out together. -/
  | optional (parts : List Tree)
deriving Inhabited

namespace Tree

/-- The parts of a sequence or of an optional segment. -/
def parts : Tree → List Tree
  | .sequence parts => parts
  | .optional parts => parts
  | _ => []

/-! ## Equality -/

mutual

/-- Equality of trees, arguments compared as values. -/
def agrees : Tree → Tree → Bool
  | .sequence a, .sequence b => agreeAll a b
  | .literal a, .literal b => a == b
  | .variable n c d, .variable n' c' d' => n == n' && c == c' && d == d'
  | .optional a, .optional b => agreeAll a b
  | _, _ => false

/-- Equality of lists of trees. -/
def agreeAll : List Tree → List Tree → Bool
  | [], [] => true
  | a :: as, b :: bs => agrees a b && agreeAll as bs
  | _, _ => false

end

instance : BEq Tree := ⟨agrees⟩

/-! ## Variables -/

mutual

/-- The names of all variables, in template order. -/
def variableNames : Tree → List String
  | .sequence parts => variableNamesOf parts
  | .literal _ => []
  | .variable name _ _ => [name]
  | .optional parts => variableNamesOf parts

/-- The names of all variables of some parts, in template order. -/
def variableNamesOf : List Tree → List String
  | [] => []
  | part :: parts => variableNames part ++ variableNamesOf parts

end

end Tree

/-! ## Written form -/

namespace Text

/-- A text in double quotes; a backslash goes before each quote and backslash. -/
def quoteArgument (cs : List Char) : List Char :=
  '"' :: cs.flatMap (fun c => if c == '"' || c == '\\' then ['\\', c] else [c]) ++ ['"']

/-- Texts one after another with a comma between two of them. -/
def joinCommas : List (List Char) → List Char
  | [] => []
  | [cs] => cs
  | cs :: more => cs ++ ',' :: joinCommas more

end Text

namespace Value

/-- The value as a rule argument: strings are quoted and numbers keep their fraction, so that each
reads back as a value of the same type. -/
def argumentChars : Value → List Char
  | .string s => Text.quoteArgument s.toList
  | .float x => x.write Binary64.argumentStyle
  | value => value.text.toList

end Value

namespace RuleCall

/-- A rule with its arguments in parentheses, or its bare name when it has none. -/
def chars (call : RuleCall) : List Char :=
  match call.arguments with
  | [] => call.slug.toList
  | arguments =>
    call.slug.toList ++ '(' :: Text.joinCommas (arguments.map Value.argumentChars) ++ [')']

/-- A rule call in template syntax. -/
def text (call : RuleCall) : String :=
  String.ofList call.chars

/-- The rule list of a variable in parentheses, or nothing when it is empty. -/
def listChars : List RuleCall → List Char
  | [] => []
  | calls => '(' :: Text.joinCommas (calls.map chars) ++ [')']

end RuleCall

namespace Tree

/-- The default of a variable, behind an equals sign. -/
def defaultChars : Option String → List Char
  | none => []
  | some text => '=' :: text.toList

mutual

/-- The characters of a tree in template syntax. -/
def chars : Tree → List Char
  | .sequence parts => charsOf parts
  | .literal text => text.toList
  | .variable name calls default =>
    ':' :: name.toList ++ RuleCall.listChars calls ++ defaultChars default
  | .optional parts => '[' :: charsOf parts ++ [']']

/-- The characters of some parts in template syntax. -/
def charsOf : List Tree → List Char
  | [] => []
  | part :: parts => chars part ++ charsOf parts

end

/-- The tree in template syntax. -/
def text (tree : Tree) : String :=
  String.ofList tree.chars

end Tree

end UriRouting
