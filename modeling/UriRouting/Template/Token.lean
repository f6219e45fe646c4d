import UriRouting.Value
import UriRouting.Text.Blank
/-!
# Template tokens

A template text is cut into tokens without ever failing: what is no punctuation of the grammar is
literal text, and a construct that is not finished is left for the grammar to refuse. Each token
knows the byte at which it starts.

The text is read in four modes: between segments, after a variable's name, inside a rule list, and
at the place where a default may start.
-/

namespace UriRouting

/-- A token of a template. -/
inductive Token where
  /-- Literal text, or the text of a default. -/
  | text (run : String)
  /-- The slash between two segments. -/
  | slash
  /-- The colon in front of a variable. -/
  | variableOpen
  /-- The name of a variable or of a rule. -/
  | identifier (name : String)
  /-- The bracket that opens an optional segment. -/
  | optionalOpen
  /-- The bracket that closes an optional segment. -/
  | optionalClose
  /-- The parenthesis that opens a rule list. -/
  | rulesOpen
  /-- The parenthesis that closes a rule list. -/
  | rulesClose
  /-- The comma between two rules. -/
  | comma
  /-- The whole argument list of a rule. -/
  | arguments (values : List Value)
  /-- The sign in front of a default. -/
  | equals
  /-- The end of the template. -/
  | finish

namespace Token

/-- How a token is named in an error. -/
def description : Token → String
  | .text run => "text \"" ++ run ++ "\""
  | .slash => "'/'"
  | .variableOpen => "':'"
  | .identifier name => "identifier \"" ++ name ++ "\""
  | .optionalOpen => "'['"
  | .optionalClose => "']'"
  | .rulesOpen => "'('"
  | .rulesClose => "')'"
  | .comma => "','"
  | .arguments values => "argument list of " ++ toString values.length ++ " value(s)"
  | .equals => "'='"
  | .finish => "end of template"

end Token

/-- A token at its place. -/
structure Lexeme where
  /-- What stands there. -/
  token : Token
  /-- The byte at which the token starts. -/
  position : Nat

namespace Template

/-! ## Character classes -/

/-- The characters that end a run of literal text. -/
def isStructural (c : Char) : Bool :=
  c == ':' || c == '[' || c == ']' || c == '/'

/-- The characters that end a default. -/
def endsDefault (c : Char) : Bool :=
  c == '/' || c == '[' || c == ']' || c == ':' || c == '(' || c == ')' || c == ','

/-- The characters that end a bare argument. -/
def endsArgument (c : Char) : Bool :=
  c == ',' || c == '(' || c == ')'

/-- The characters that a name can start with. -/
def startsName (c : Char) : Bool :=
  c.isAlpha || c == '_'

/-- The characters that a name can go on with. -/
def continuesName (c : Char) : Bool :=
  c.isAlphanum || c == '_'

/-- The number of bytes of a text. -/
def byteLength (cs : List Char) : Nat :=
  cs.foldr (fun c n => c.utf8Size + n) 0

/-- Takes a name off the front of a text. -/
def takeName? : List Char → Option (List Char × List Char)
  | [] => none
  | c :: cs =>
    if startsName c then some (c :: cs.takeWhile continuesName, cs.dropWhile continuesName) else none

/-! ## Argument lists -/

/-- Reads a quoted text up to its closing quote; the opening quote has been read. A backslash takes
the next quote or backslash literally, and stands for itself before anything else. -/
def readQuoted : List Char → Option (List Char × List Char)
  | [] => none
  | '"' :: rest => some ([], rest)
  | '\\' :: '"' :: rest => (readQuoted rest).map fun (text, rest) => ('"' :: text, rest)
  | '\\' :: '\\' :: rest => (readQuoted rest).map fun (text, rest) => ('\\' :: text, rest)
  | c :: rest => (readQuoted rest).map fun (text, rest) => (c :: text, rest)

/-- What follows a quoted text is shorter than the text. -/
theorem length_lt_of_readQuoted {cs text rest : List Char} (h : readQuoted cs = some (text, rest)) :
    rest.length < cs.length := by
  fun_induction readQuoted cs generalizing text with
  | case1 => simp at h
  | case2 rest' =>
    simp only [Option.some.injEq, Prod.mk.injEq] at h
    simp [← h.2]
  | case3 rest' ih | case4 rest' ih | case5 c rest' _ _ _ ih =>
    simp only [Option.map_eq_some_iff, Prod.mk.injEq, Prod.exists] at h
    obtain ⟨t, r, hr, -, rfl⟩ := h
    have := ih hr
    simp only [List.length_cons]
    omega

/-- Reads an argument list up to its closing parenthesis; the opening one has been read. Blanks and
commas separate the arguments. A list that is not closed, or that holds a parenthesis outside
quotes, is no argument list; the text after the place where that shows is left over. -/
def readArguments (cs : List Char) : Option (List Value) × List Char :=
  match _h : cs.dropWhile Text.isAsciiBlank with
  | [] => (none, [])
  | c :: rest =>
    if c == '(' then (none, c :: rest)
    else if c == ')' then (some [], rest)
    else if c == ',' then readArguments rest
    else if c == '"' then
      match _hq : readQuoted rest with
      | none => (none, [])
      | some (text, rest') =>
        let (values, left) := readArguments rest'
        (values.map (.string (String.ofList text) :: ·), left)
    else
      let word := c :: rest.takeWhile (!endsArgument ·)
      let (values, left) := readArguments (rest.dropWhile (!endsArgument ·))
      (values.map (Value.ofLiteral (String.ofList (Text.trimBlanks word)) :: ·), left)
termination_by cs.length
decreasing_by
  all_goals
    have hlen : (cs.dropWhile Text.isAsciiBlank).length ≤ cs.length :=
      (List.dropWhile_sublist _).length_le
    rw [_h, List.length_cons] at hlen
  · omega
  · have := length_lt_of_readQuoted _hq
    omega
  · have : (rest.dropWhile (!endsArgument ·)).length ≤ rest.length :=
      (List.dropWhile_sublist _).length_le
    omega

/-! ## Modes -/

/-- Where in a template the reader stands. -/
inductive Mode where
  /-- Between segments. -/
  | segments
  /-- Where a default may start. -/
  | default
  /-- Inside a rule list. -/
  | rules
  /-- After the name of a variable. -/
  | named
deriving DecidableEq

/-- One step of the reader: the tokens that it adds, each with the text left when it started, the
mode to go on in, and the text left over. -/
structure Step where
  /-- The tokens, each with the text from its start on. -/
  tokens : List (Token × List Char)
  /-- The mode of the next step. -/
  mode : Mode
  /-- The text left for the next step. -/
  rest : List Char

/-- One step of the reader at a character. -/
def step (mode : Mode) (c : Char) (cs : List Char) : Step :=
  match mode with
  | .segments =>
    if c == ':' then
      match takeName? cs with
      | some (name, rest) =>
        ⟨[(.variableOpen, c :: cs), (.identifier (String.ofList name), cs)], .named, rest⟩
      | none => ⟨[(.variableOpen, c :: cs)], .segments, cs⟩
    else if c == '[' then ⟨[(.optionalOpen, c :: cs)], .segments, cs⟩
    else if c == ']' then ⟨[(.optionalClose, c :: cs)], .segments, cs⟩
    else if c == '/' then ⟨[(.slash, c :: cs)], .segments, cs⟩
    else
      let text := c :: cs.takeWhile (!isStructural ·)
      ⟨[(.text (String.ofList text), c :: cs)], .segments, cs.dropWhile (!isStructural ·)⟩
  | .named =>
    if c == '(' then ⟨[(.rulesOpen, c :: cs)], .rules, cs⟩ else ⟨[], .default, c :: cs⟩
  | .rules =>
    if Text.isAsciiBlank c then ⟨[], .rules, cs⟩
    else if c == ')' then ⟨[(.rulesClose, c :: cs)], .default, cs⟩
    else if c == ',' then ⟨[(.comma, c :: cs)], .rules, cs⟩
    else
      match takeName? (c :: cs) with
      | none => ⟨[], .default, c :: cs⟩
      | some (name, rest) =>
        let rule := (.identifier (String.ofList name), c :: cs)
        match rest with
        | '(' :: more =>
          match readArguments more with
          | (some values, left) => ⟨[rule, (.arguments values, rest)], .rules, left⟩
          | (none, left) => ⟨[rule], .rules, left⟩
        | _ => ⟨[rule], .rules, rest⟩
  | .default =>
    if c == '=' then
      match cs.takeWhile (!endsDefault ·) with
      | [] => ⟨[(.equals, c :: cs)], .segments, cs⟩
      | text =>
        ⟨[(.equals, c :: cs), (.text (String.ofList text), cs)], .segments,
          cs.dropWhile (!endsDefault ·)⟩
    else ⟨[], .segments, c :: cs⟩

/-- The number of mode changes that can still follow without reading on. -/
def Mode.rank : Mode → Nat
  | .segments => 0
  | .default => 1
  | .rules => 2
  | .named => 3

/-- An argument list leaves no more text than it was given. -/
theorem readArguments_length (cs : List Char) : (readArguments cs).2.length ≤ cs.length := by
  fun_induction readArguments cs with
  | case1 => simp
  | case2 cs c rest h hc => exact h ▸ (List.dropWhile_sublist _).length_le
  | case3 cs c rest h =>
    have hlen : (c :: rest).length ≤ cs.length := h ▸ (List.dropWhile_sublist _).length_le
    simp only [List.length_cons] at hlen ⊢
    omega
  | case4 cs c rest h _ _ _ ih =>
    have hlen : (c :: rest).length ≤ cs.length := h ▸ (List.dropWhile_sublist _).length_le
    simp only [List.length_cons] at hlen
    omega
  | case5 => simp
  | case6 cs c rest h _ _ _ _ text rest' hq values left he ih =>
    have hlen : (c :: rest).length ≤ cs.length := h ▸ (List.dropWhile_sublist _).length_le
    have hlt := length_lt_of_readQuoted hq
    simp only [he, List.length_cons] at *
    omega
  | case7 cs c rest h _ _ _ _ word values left he ih =>
    have hlen : (c :: rest).length ≤ cs.length := h ▸ (List.dropWhile_sublist _).length_le
    have hle : (rest.dropWhile (!endsArgument ·)).length ≤ rest.length :=
      (List.dropWhile_sublist _).length_le
    simp only [he, List.length_cons] at *
    omega

theorem length_lt_of_takeName? {cs name rest : List Char} (h : takeName? cs = some (name, rest)) :
    rest.length < cs.length := by
  match cs with
  | [] => simp [takeName?] at h
  | c :: cs =>
    simp only [takeName?] at h
    split at h
    · simp only [Option.some.injEq, Prod.mk.injEq] at h
      have : (cs.dropWhile continuesName).length ≤ cs.length := (List.dropWhile_sublist _).length_le
      rw [← h.2, List.length_cons]
      omega
    · simp at h

/-- A step reads on, or it changes to a mode of lower rank. -/
theorem step_progress (mode : Mode) (c : Char) (cs : List Char) :
    4 * (step mode c cs).rest.length + (step mode c cs).mode.rank
      < 4 * (c :: cs).length + mode.rank := by
  have hs : (cs.dropWhile (!isStructural ·)).length ≤ cs.length := (List.dropWhile_sublist _).length_le
  have hd : (cs.dropWhile (!endsDefault ·)).length ≤ cs.length := (List.dropWhile_sublist _).length_le
  cases mode with
  | segments =>
    simp only [step]
    split
    · split
      · rename_i hn
        have := length_lt_of_takeName? hn
        simp only [Mode.rank, List.length_cons]
        omega
      · simp only [Mode.rank, List.length_cons]
        omega
    · repeat' split
      all_goals
        simp only [Mode.rank, List.length_cons]
        omega
  | named =>
    simp only [step]
    split <;> simp only [Mode.rank, List.length_cons] <;> omega
  | default =>
    simp only [step]
    repeat' split
    all_goals
      simp only [Mode.rank, List.length_cons]
      omega
  | rules =>
    simp only [step]
    split
    · simp only [Mode.rank, List.length_cons]
      omega
    split
    · simp only [Mode.rank, List.length_cons]
      omega
    split
    · simp only [Mode.rank, List.length_cons]
      omega
    split
    · simp only [Mode.rank, List.length_cons]
      omega
    rename_i name rest hn
    have hlt := length_lt_of_takeName? hn
    simp only [List.length_cons] at hlt
    split
    · rename_i more
      have ha := readArguments_length more
      simp only [List.length_cons] at hlt
      split
      · rename_i values left he
        rw [he] at ha
        simp only [Mode.rank, List.length_cons] at *
        omega
      · rename_i left he
        rw [he] at ha
        simp only [Mode.rank, List.length_cons] at *
        omega
    · simp only [Mode.rank, List.length_cons]
      omega

/-- The tokens of the rest of a template of `total` bytes, read in the given mode. -/
def scan (total : Nat) (mode : Mode) (cs : List Char) : List Lexeme :=
  match cs with
  | [] => [⟨.finish, total⟩]
  | c :: cs =>
    let next := step mode c cs
    next.tokens.map (fun (token, start) => ⟨token, total - byteLength start⟩)
      ++ scan total next.mode next.rest
termination_by 4 * cs.length + mode.rank
decreasing_by exact step_progress mode c _

/-- The tokens of a template. -/
def tokenize (text : String) : List Lexeme :=
  let cs := text.toList
  scan (byteLength cs) .segments cs

end Template

end UriRouting
