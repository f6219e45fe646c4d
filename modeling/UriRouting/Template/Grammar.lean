import UriRouting.Template.Token
import UriRouting.Template.Tree
/-!
# Reading a template tree from its tokens

A template is a sequence of literal texts, variables and bracketed optional segments; adjacent texts
and slashes make one literal. Reading keeps a stack of the optional segments that are still open, so
it goes over the tokens once. The first token that cannot go on is reported together with what was
expected in its place.
-/

namespace UriRouting

/-! ## Faults -/

/-- What could have stood at the place of a fault. -/
inductive Expectation where
  /-- A literal, a variable or an optional segment. -/
  | segment
  /-- The bracket that closes the innermost open segment. -/
  | closingBracket
  /-- Fewer open segments. -/
  | shallowerNesting
  /-- Something between a pair of brackets. -/
  | nonEmptyOptional
  /-- The name of a variable. -/
  | variableName
  /-- The text of a default. -/
  | defaultValue
  /-- The name of a rule. -/
  | ruleName
  /-- A further rule or the end of the rule list. -/
  | ruleSeparator
deriving DecidableEq

/-- The number of optional segments that can be open at once. -/
def Template.maxNesting : Nat := 128

/-- What was expected, in words. -/
def Expectation.text : Expectation → String
  | .segment => "literal text, variable, or '['"
  | .closingBracket => "']'"
  | .shallowerNesting => s!"at most {Template.maxNesting} nested optional segments"
  | .nonEmptyOptional => "a non-empty optional segment"
  | .variableName => "variable name"
  | .defaultValue => "default value"
  | .ruleName => "rule name"
  | .ruleSeparator => "',' or ')'"

/-- What stands at the place of a fault. -/
inductive Finding where
  /-- A token that does not fit. -/
  | token (unfit : Token)
  /-- A pair of brackets with nothing in it. -/
  | emptyOptional

/-- What was found, in words. -/
def Finding.text : Finding → String
  | .token unfit => unfit.description
  | .emptyOptional => "'[]'"

/-- A place where a template breaks the grammar. -/
structure SyntaxFault where
  /-- The byte of the template at which the fault shows. -/
  position : Nat
  /-- What could have stood there. -/
  expected : Expectation
  /-- What stands there. -/
  found : Finding

/-- The fault in words. -/
def SyntaxFault.message (fault : SyntaxFault) : String :=
  s!"syntax error at position {fault.position}: expected {fault.expected.text}, found {fault.found.text}"

namespace Template

/-- The fault of a token that does not fit, or of running out of tokens at byte `last`. -/
def unexpected (last : Nat) (expected : Expectation) : List Lexeme → SyntaxFault
  | [] => ⟨last, expected, .token .finish⟩
  | ⟨token, position⟩ :: _ => ⟨position, expected, .token token⟩

/-! ## Variables -/

/-- Takes an argument list off the front; no list stands for the empty one. -/
def takeArguments : List Lexeme → List Value × List Lexeme
  | ⟨.arguments values, _⟩ :: rest => (values, rest)
  | rest => ([], rest)

theorem takeArguments_length (ts : List Lexeme) : (takeArguments ts).2.length ≤ ts.length := by
  fun_cases takeArguments ts <;> simp

/-- Reads the rules of a rule list up to its closing parenthesis; the opening one has been read. -/
def readRules (last : Nat) (ts : List Lexeme) :
    Except SyntaxFault (List RuleCall × List Lexeme) :=
  match ts with
  | ⟨.identifier slug, _⟩ :: rest =>
    let call : RuleCall := ⟨slug, (takeArguments rest).1⟩
    match _h : (takeArguments rest).2 with
    | ⟨.comma, _⟩ :: more =>
      match readRules last more with
      | .ok (calls, left) => .ok (call :: calls, left)
      | .error fault => .error fault
    | ⟨.rulesClose, _⟩ :: more => .ok ([call], more)
    | more => .error (unexpected last .ruleSeparator more)
  | ts => .error (unexpected last .ruleName ts)
termination_by ts.length
decreasing_by
  have := takeArguments_length rest
  simp only [_h, List.length_cons] at *
  omega

/-- What follows a rule list is shorter than the list. -/
theorem length_lt_of_readRules {last : Nat} {ts left : List Lexeme} {calls : List RuleCall}
    (h : readRules last ts = .ok (calls, left)) : left.length < ts.length := by
  fun_induction readRules last ts generalizing calls left with
  | case1 =>
    rename_i rest _ _ more ht calls' left' he ih
    simp only [Except.ok.injEq, Prod.mk.injEq] at h
    obtain ⟨-, rfl⟩ := h
    have := ih he
    have := takeArguments_length rest
    simp only [ht, List.length_cons] at *
    omega
  | case2 => simp at h
  | case3 =>
    rename_i rest _ _ more ht
    simp only [Except.ok.injEq, Prod.mk.injEq] at h
    have := takeArguments_length rest
    simp only [ht, h.2, List.length_cons] at *
    omega
  | case4 => simp at h
  | case5 => simp at h

/-- Reads the rule list of a variable, if there is one. -/
def readRuleList (last : Nat) : List Lexeme → Except SyntaxFault (List RuleCall × List Lexeme)
  | ⟨.rulesOpen, _⟩ :: rest => readRules last rest
  | rest => .ok ([], rest)

/-- Reads the default of a variable, if there is one. -/
def readDefault (last : Nat) : List Lexeme → Except SyntaxFault (Option String × List Lexeme)
  | ⟨.equals, _⟩ :: ⟨.text text, _⟩ :: rest => .ok (some text, rest)
  | ⟨.equals, _⟩ :: rest => .error (unexpected last .defaultValue rest)
  | rest => .ok (none, rest)

/-- Reads a variable; the colon in front of it has been read. -/
def readVariable (last : Nat) : List Lexeme → Except SyntaxFault (Tree × List Lexeme)
  | ⟨.identifier name, _⟩ :: rest => do
    let (calls, rest) ← readRuleList last rest
    let (default, rest) ← readDefault last rest
    return (.variable name calls default, rest)
  | rest => .error (unexpected last .variableName rest)

theorem readRuleList_length {last : Nat} {ts left : List Lexeme} {calls : List RuleCall}
    (h : readRuleList last ts = .ok (calls, left)) : left.length ≤ ts.length := by
  fun_cases readRuleList last ts with
  | case1 p rest =>
    have := length_lt_of_readRules h
    simp only [List.length_cons]
    omega
  | case2 =>
    simp only [readRuleList, Except.ok.injEq, Prod.mk.injEq] at h
    simp [h.2]

theorem readDefault_length {last : Nat} {ts left : List Lexeme} {default : Option String}
    (h : readDefault last ts = .ok (default, left)) : left.length ≤ ts.length := by
  fun_cases readDefault last ts with
  | case1 =>
    simp only [readDefault, Except.ok.injEq, Prod.mk.injEq] at h
    simp only [h.2, List.length_cons]
    omega
  | case2 => simp_all [readDefault]
  | case3 =>
    simp only [readDefault, Except.ok.injEq, Prod.mk.injEq] at h
    simp [h.2]

/-- What follows a variable is shorter than the text from its name on. -/
theorem length_lt_of_readVariable {last : Nat} {ts left : List Lexeme} {tree : Tree}
    (h : readVariable last ts = .ok (tree, left)) : left.length < ts.length := by
  fun_cases readVariable last ts with
  | case1 p name rest =>
    simp only [readVariable, bind, Except.bind, pure, Except.pure] at h
    split at h
    · simp at h
    · rename_i r hr
      split at h
      · simp at h
      · rename_i d hd
        simp only [Except.ok.injEq, Prod.mk.injEq] at h
        have := readRuleList_length hr
        have := readDefault_length hd
        simp only [List.length_cons, h.2] at *
        omega
  | case2 => simp_all [readVariable]

/-! ## Segments -/

/-- Adds literal text to the parts read so far, the last part first. -/
def addLiteral (text : String) : List Tree → List Tree
  | .literal before :: parts => .literal (before ++ text) :: parts
  | parts => .literal text :: parts

/-- An optional segment that is still open. -/
structure OpenSegment where
  /-- The byte of its opening bracket. -/
  position : Nat
  /-- The parts in front of it, the last one first. -/
  before : List Tree

/-- Reads the rest of a template. The open segments are given from the innermost outwards, and
`parts` are the parts read so far inside the innermost one, the last one first. -/
def readSegments (last : Nat) (segments : List OpenSegment) (parts : List Tree)
    (ts : List Lexeme) : Except SyntaxFault Tree :=
  let finish : Except SyntaxFault Tree :=
    match segments with
    | [] => .ok (.sequence parts.reverse)
    | _ => .error (unexpected last .closingBracket ts)
  match ts with
  | [] => finish
  | ⟨.finish, _⟩ :: _ => finish
  | ⟨.text text, _⟩ :: rest => readSegments last segments (addLiteral text parts) rest
  | ⟨.slash, _⟩ :: rest => readSegments last segments (addLiteral "/" parts) rest
  | ⟨.variableOpen, _⟩ :: rest =>
    match _h : readVariable last rest with
    | .ok (tree, left) => readSegments last segments (tree :: parts) left
    | .error fault => .error fault
  | ⟨.optionalOpen, position⟩ :: rest =>
    if segments.length < maxNesting then
      readSegments last (⟨position, parts⟩ :: segments) [] rest
    else .error ⟨position, .shallowerNesting, .token .optionalOpen⟩
  | ⟨.optionalClose, _⟩ :: rest =>
    match segments, parts with
    | [], _ => .error (unexpected last .segment ts)
    | segment :: _, [] => .error ⟨segment.position, .nonEmptyOptional, .emptyOptional⟩
    | segment :: outer, parts =>
      readSegments last outer (.optional parts.reverse :: segment.before) rest
  | _ => .error (unexpected last .segment ts)
termination_by ts.length
decreasing_by
  · simp only [List.length_cons]; omega
  · simp only [List.length_cons]; omega
  · have := length_lt_of_readVariable _h
    simp only [List.length_cons]; omega
  · simp only [List.length_cons]; omega
  · simp only [List.length_cons]; omega

/-- Reading goes on behind a variable. The reader keeps the equation of what it has read, which has to be
left out before a variable with rules can be computed. -/
theorem eq_of_bind_read {read : Except SyntaxFault (Tree × List Lexeme)}
    {next : Tree → List Lexeme → Except SyntaxFault Tree} {result : Except SyntaxFault Tree} :
    (read.bind fun (tree, left) => next tree left) = result →
      (match _h : read with
        | .ok (tree, left) => next tree left
        | .error fault => .error fault) = result := by
  cases read <;> exact id

end Template

namespace Tree

/-- The tree of a list of tokens. Reading stops at the first token that marks the end, or after the
last token; running out of tokens is reported at the place of the last one. -/
def ofLexemes (ts : List Lexeme) : Except SyntaxFault Tree :=
  Template.readSegments ((ts.getLast?.map (·.position)).getD 0) [] [] ts

/-- The tree of a template text. -/
def parse (text : String) : Except SyntaxFault Tree :=
  ofLexemes (Template.tokenize text)

end Tree

end UriRouting
