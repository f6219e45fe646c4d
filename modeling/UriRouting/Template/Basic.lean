import UriRouting.DeclarationError
import UriRouting.Template.PatternSource
/-!
# Templates

A template is a path and perhaps a host, their trees, the variables of both with their rules made,
and the pattern for requests. The variables of the host come before those of the path, and no name
comes twice.
-/

namespace UriRouting

/-- A variable of a template. -/
structure Variable where
  /-- The name of the variable. -/
  name : String
  /-- Its rules as the template calls them. -/
  calls : List RuleCall
  /-- Its rules. -/
  rules : List Rule
  /-- The text that stands in when the variable is left out. -/
  default : Option String
  /-- Whether the variable is part of an optional segment. -/
  optional : Bool
  /-- The type of its values. -/
  type : ValueType

namespace Variable

/-- Equality of variables. The rules follow from their calls, so the calls are compared. -/
def agrees (a b : Variable) : Bool :=
  a.name == b.name && a.calls == b.calls && a.default == b.default && a.optional == b.optional
    && a.type == b.type

instance : BEq Variable := ⟨agrees⟩

end Variable

/-- One side of a template: its text and the tree of the text. -/
structure TemplateSide where
  /-- The text. -/
  text : String
  /-- The tree. -/
  tree : Tree

/-- A template for the paths and perhaps the hosts of requests. -/
structure Template where
  /-- The path, without slashes in front. -/
  path : TemplateSide
  /-- The host, if the template has one. -/
  host : Option TemplateSide
  /-- The variables, those of the host first. -/
  vars : List Variable
  /-- The pattern for requests. -/
  pattern : Pattern

namespace TemplateSide

/-- Equality of sides. -/
def agrees (a b : TemplateSide) : Bool :=
  a.text == b.text && a.tree == b.tree

instance : BEq TemplateSide := ⟨agrees⟩

end TemplateSide

namespace Template

/-! ## Views -/

/-- Equality of what requests are tested by: the patterns by their texts, and the variables. -/
def testsAlike (a b : Template) : Bool :=
  a.pattern.source == b.pattern.source && a.vars == b.vars
    && a.host.isSome == b.host.isSome

/-- Equality of templates. -/
def agrees (a b : Template) : Bool :=
  a.path == b.path && a.host == b.host && a.testsAlike b

instance : BEq Template := ⟨agrees⟩

/-- The names of the variables, in order. -/
def variableNames (template : Template) : List String :=
  template.vars.map (·.name)

/-- The variable of a name. -/
def lookup? (template : Template) (name : String) : Option Variable :=
  template.vars.find? (·.name == name)

/-! ## Compilation -/

/-- A variable as it stands in a tree. -/
structure Site where
  /-- The name of the variable. -/
  name : String
  /-- Its rules as the template calls them. -/
  calls : List RuleCall
  /-- Its default. -/
  default : Option String
  /-- Whether it stands inside an optional segment. -/
  optional : Bool

mutual

/-- The variables of a tree, in order. -/
def sites (optional : Bool) : Tree → List Site
  | .sequence parts => sitesOf optional parts
  | .literal _ => []
  | .variable name calls default => [⟨name, calls, default, optional⟩]
  | .optional parts => sitesOf true parts

/-- The variables of some parts, in order. -/
def sitesOf (optional : Bool) : List Tree → List Site
  | [] => []
  | part :: parts => sites optional part ++ sitesOf optional parts

end

/-- The type of a variable's values: that of its first rule that implies one. -/
def valueType (rules : List Rule) : ValueType :=
  (rules.findSome? (·.valueType?)).getD .string

/-- The rules that a variable calls for; the first that cannot be made is reported. -/
def resolveRules (book : RuleBook) (name : String) :
    List RuleCall → Except DeclarationError (List Rule)
  | [] => .ok []
  | call :: calls =>
    match book.resolve call with
    | .error fault => .error (.rule (some name) fault)
    | .ok rule => (resolveRules book name calls).map (rule :: ·)

/-- The variable at a site. Its name must be new, its rules are made, and its default must satisfy
them, in this order. -/
def compileSite (book : RuleBook) (seen : List String) (site : Site) :
    Except DeclarationError Variable :=
  if seen.contains site.name then .error (.duplicateVariable site.name)
  else
    match resolveRules book site.name site.calls with
    | .error e => .error e
    | .ok rules =>
      match site.default.filter fun value => !rules.all (·.passes value) with
      | some value => .error (.rejectedDefault site.name value)
      | none =>
        .ok ⟨site.name, site.calls, rules, site.default, site.optional, valueType rules⟩

/-- The variables at some sites, given the names before them. -/
def compileSites (book : RuleBook) (seen : List String) :
    List Site → Except DeclarationError (List Variable)
  | [] => .ok []
  | site :: rest =>
    match compileSite book seen site with
    | .error e => .error e
    | .ok compiled => (compileSites book (site.name :: seen) rest).map (compiled :: ·)

/-- The tree of a template text. -/
def parseSide (text : String) : Except DeclarationError TemplateSide :=
  match Tree.parse text with
  | .ok tree => .ok ⟨text, tree⟩
  | .error fault => .error (.template text fault)

/-- The template of a path and perhaps a host. Slashes in front of the path do not count. Of several
faults the path's grammar comes first, then the host's, then the variables in order. -/
def compile (book : RuleBook) (path : String) (host : Option String) :
    Except DeclarationError Template := do
  let path ← parseSide (stripSlashes path)
  let host ← match host with
    | some text => (parseSide text).map some
    | none => .ok none
  let hostSites := (host.map fun side => sites false side.tree).getD []
  let vars ← compileSites book [] (hostSites ++ sites false path.tree)
  match Pattern.ofSource (patternSource path.tree (host.map (·.tree))) with
  | .ok pattern => return ⟨path, host, vars, pattern⟩
  | .error fault => .error (.pattern fault)

end Template

end UriRouting
