import UriRouting.Template.Basic
/-!
# Reading the variables of a request

A request that the pattern of a template matches gives each variable a text: what its group
captured, or its default. The texts are checked against the rules in template order, and each is
handed back in the type of its variable. A variable that was left out and has no default is absent.
-/

namespace UriRouting

/-- What a template makes of a request. -/
inductive Extraction where
  /-- The pattern does not match. -/
  | unmatched
  /-- The pattern matches, but the text of a variable fails a rule. -/
  | rejected (name slug : String)
  /-- The pattern matches and all rules are satisfied. -/
  | matched (values : List (String × Value))

namespace Variable

/-- The text of a variable in a match. -/
def text? (v : Variable) (captures : Pattern.Captures) : Option String :=
  (captures.get? v.name).or v.default

/-- The first rule that a text fails. -/
def failedRule? (v : Variable) (text : String) : Option Rule :=
  v.rules.find? (!·.passes text)

end Variable

namespace Template

/-- The values of some variables in a match, or the first failure of a rule. -/
def readVariables (captures : Pattern.Captures) : List Variable → Extraction
  | [] => .matched []
  | v :: rest =>
    match v.text? captures with
    | none => readVariables captures rest
    | some text =>
      match v.failedRule? text with
      | some rule => .rejected v.name rule.slug
      | none =>
        match readVariables captures rest with
        | .matched values => .matched ((v.name, Value.coerce v.type text) :: values)
        | other => other

/-- What the template makes of the text of a request. -/
def extract (template : Template) (subject : String) : Extraction :=
  match template.pattern.search subject with
  | none => .unmatched
  | some captures => readVariables captures template.vars

end Template

end UriRouting
