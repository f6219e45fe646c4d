import UriRouting.RuleBook
import UriRouting.Template.Grammar
/-!
# Errors in route declarations

A faulty declaration is a mistake of the application; it is found when its route table is built.
-/

namespace UriRouting

/-- Why a declaration makes no route, or why routes make no table. -/
inductive DeclarationError where
  /-- A template breaks the grammar. -/
  | template (text : String) (fault : SyntaxFault)
  /-- A rule of a variable cannot be made. The variable is missing where a rule is looked up on its
  own. -/
  | rule (name : Option String) (fault : RuleFault)
  /-- Two variables of a route have the same name. -/
  | duplicateVariable (name : String)
  /-- A default does not satisfy the rules of its variable. -/
  | rejectedDefault (name value : String)
  /-- The pattern of a route is too deep or too big. -/
  | pattern (fault : Pattern.PatternFault)
  /-- A route does not say what it dispatches to. -/
  | noAction (text : String)
  /-- Two routes have the same name. -/
  | duplicateRoute (name : String)

/-- The error in words. -/
def DeclarationError.message : DeclarationError → String
  | .template text fault => s!"invalid template '{text}': {fault.message}"
  | .rule none (.unknown slug) => s!"unknown rule '{slug}' on variable ''"
  | .rule (some name) (.unknown slug) => s!"unknown rule '{slug}' on variable '{name}'"
  | .rule _ (.arguments slug fault) => s!"invalid arguments for rule '{slug}': {fault.message}"
  | .duplicateVariable name => s!"duplicate variable name '{name}'"
  | .rejectedDefault name value =>
    s!"default value '{value}' of variable '{name}' fails its own rules"
  | .pattern fault => s!"failed to build match pattern: {fault.message}"
  | .noAction text => s!"route '{text}' has no action"
  | .duplicateRoute name => s!"duplicate route name '{name}'"

end UriRouting
