import UriRouting.Template.Basic
/-!
# Generating paths and hosts

A path is made from a template by putting values in the place of variables. A value that is not
supplied is replaced by the variable's default. An optional segment is written only if every variable
directly inside it has a supplied value, and there is such a variable. A text that would not stay
inside its own segment is refused.
-/

namespace UriRouting

/-- Why no path or host is made. -/
inductive GenerationError where
  /-- No route has the name. -/
  | unknownRoute (name : String)
  /-- A variable has neither a value nor a default. -/
  | missingVariable (name : String)
  /-- The text of a variable is empty, or holds a character that ends a segment. -/
  | unfitValue (name value : String)
deriving DecidableEq

/-- The error in words. -/
def GenerationError.message : GenerationError → String
  | .unknownRoute name => s!"no route named '{name}'"
  | .missingVariable name => s!"no value supplied for required variable '{name}'"
  | .unfitValue name value => s!"value '{value}' of variable '{name}' does not fit in one segment"

namespace Template

/-- Values by the names of variables. -/
abbrev Values := List (String × Value)

/-- The text that stands for a variable. -/
def variableText (side : Side) (values : Values) (name : String) (default : Option String) :
    Except GenerationError String :=
  match ((values.lookup name).map Value.text).or default with
  | none => .error (.missingVariable name)
  | some text =>
    if text.isEmpty || text.toList.any side.forbids then .error (.unfitValue name text)
    else .ok text

/-- The names of the variables directly among some parts. -/
def directVariables (parts : List Tree) : List String :=
  parts.filterMap fun
    | .variable name _ _ => some name
    | _ => none

/-- Whether an optional segment is written. -/
def isSupplied (values : Values) (parts : List Tree) : Bool :=
  let names := directVariables parts
  !names.isEmpty && names.all fun name => (values.lookup name).isSome

mutual

/-- The text of a tree. -/
def render (side : Side) (values : Values) : Tree → Except GenerationError String
  | .sequence parts => renderAll side values parts
  | .literal text => .ok text
  | .variable name _ default => variableText side values name default
  | .optional parts => if isSupplied values parts then renderAll side values parts else .ok ""

/-- The text of some parts; the first error counts. -/
def renderAll (side : Side) (values : Values) : List Tree → Except GenerationError String
  | [] => .ok ""
  | part :: parts =>
    match render side values part with
    | .error e => .error e
    | .ok text => (renderAll side values parts).map (text ++ ·)

end

/-- The path that the template makes from values. -/
def buildPath (template : Template) (values : Values) : Except GenerationError String :=
  (renderAll .path values template.path.tree.parts).map ("/" ++ ·)

/-- The host that the template makes from values, if it has a host. -/
def buildHost (template : Template) (values : Values) : Except GenerationError (Option String) :=
  match template.host with
  | none => .ok none
  | some host => (renderAll .host values host.tree.parts).map some

end Template

end UriRouting
