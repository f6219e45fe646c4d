import Mathlib.Data.List.Chain
import UriRouting.Proofs.Template.Compiled
import UriRouting.Text.Runs
/-!
# The trees that templates have

Not every tree can be read from a text. A literal holds no punctuation, two literals do not stand side
by side, a literal behind a variable does not start with what the variable would take in, defaults end
where the next part starts, and optional segments are filled and not too deep. These are the trees that
are read.

* `Tree.Grammatical` says this of one part of a template, and `Tree.AllGrammatical` of parts one after
  another;
* `Lexed` is the view of a text between segments by its first token, and `RulesLexed` that of a rule
  list;
* `grammatical_of_parse` is the main statement.
-/

namespace UriRouting

open UriRouting.Tree UriRouting.Template

/-! ## Parts of a template -/

/-- A value that can stand among the arguments of a rule: a number is finite. -/
def Value.IsArgument : Value → Prop
  | .float x => x.isFinite = true
  | _ => True

/-- A rule call that can stand in a rule list. -/
structure RuleCall.IsListed (call : RuleCall) : Prop where
  /-- The rule has a name. -/
  slug : IsName call.slug.toList
  /-- The arguments are arguments. -/
  arguments : ∀ value ∈ call.arguments, value.IsArgument

namespace Template

/-- The characters behind which a default ends. A default that starts with a parenthesis or a comma goes
on to the end of its literal text. -/
def defaultStop : List Char → Char → Bool
  | [], _ => true
  | c :: _, d => if endsDefault c then isStructural d else endsDefault d

theorem defaultStop_of_ends {c : Char} (h : endsDefault c = true) (cs : List Char) :
    defaultStop (c :: cs) = isStructural := by
  funext d
  rw [defaultStop, if_pos h]

theorem defaultStop_of_stays {c : Char} (h : endsDefault c = false) (cs : List Char) :
    defaultStop (c :: cs) = endsDefault := by
  funext d
  rw [defaultStop, if_neg (by simp [h])]

/-- A text that can stand behind the equals sign of a variable. -/
structure IsDefault (text : List Char) : Prop where
  /-- There is a text. -/
  ne_nil : text ≠ []
  /-- The default does not end before its last character. -/
  stays : ∀ c ∈ text, defaultStop text c = false

/-- Whether a character behind a variable is not taken to be a part of it. -/
def standsBehind (calls : List RuleCall) (default : Option String) (c : Char) : Bool :=
  match default with
  | some text => defaultStop text.toList c
  | none => c != '=' && (!calls.isEmpty || !continuesName c && c != '(')

end Template

namespace Tree

/-- Whether a character behind a part is not taken to be a part of it. -/
def Precedes : Tree → Char → Prop
  | .literal _, c => isStructural c = true ∧ c ≠ '/'
  | .variable _ calls default, c => standsBehind calls default c = true
  | _, _ => True

/-- Two parts that can stand side by side. -/
def Adjoins : Tree → Tree → Prop
  | .literal _, .literal _ => False
  | .variable _ calls default, .literal own =>
    ∀ c ∈ own.toList.head?, standsBehind calls default c = true
  | _, _ => True

/-- A part of a template, in which no more than the given number of optional segments are nested. -/
inductive Grammatical : Nat → Tree → Prop where
  /-- A literal holds no punctuation but slashes. -/
  | literal {depth : Nat} {own : String} (hne : own.toList ≠ [])
      (h : ∀ c ∈ own.toList, isStructural c = true → c = '/') : Grammatical depth (.literal own)
  /-- A variable has a name, its rules have names, and a default is a default. -/
  | variable {depth : Nat} {name : String} {calls : List RuleCall} {default : Option String}
      (hname : IsName name.toList) (hcalls : ∀ call ∈ calls, call.IsListed)
      (hdefault : ∀ text ∈ default, IsDefault text.toList) :
      Grammatical depth (.variable name calls default)
  /-- An optional segment holds parts that can stand side by side. -/
  | optional {depth : Nat} {parts : List Tree} (hne : parts ≠ [])
      (h : ∀ part ∈ parts, Grammatical depth part) (hchain : parts.IsChain Adjoins) :
      Grammatical (depth + 1) (.optional parts)

/-- Parts of a template one after another. -/
structure AllGrammatical (depth : Nat) (parts : List Tree) : Prop where
  /-- Each is a part of a template. -/
  part : ∀ part ∈ parts, Grammatical depth part
  /-- They can stand side by side. -/
  chain : parts.IsChain Adjoins

end Tree

namespace Template

/-! ## Names and arguments -/

/-- A name is taken off the front of a text as a whole. -/
theorem takeName?_eq_some_iff {cs name rest : List Char} :
    takeName? cs = some (name, rest)
      ↔ cs = name ++ rest ∧ IsName name ∧ ∀ c ∈ rest.head?, continuesName c = false := by
  constructor
  · intro h
    cases cs with
    | nil => cases h
    | cons c cs =>
      rw [takeName?] at h
      split at h
      · rename_i hstart
        cases h
        refine ⟨by simp, ⟨c, _, rfl, hstart, List.all_takeWhile⟩, ?_⟩
        intro d hd
        have hnot := List.head?_dropWhile_not continuesName cs
        rw [Option.mem_def.1 hd] at hnot
        simpa using hnot
      · cases h
  · rintro ⟨rfl, ⟨c, cs, rfl, hstart, hall⟩, hrest⟩
    have hcs : ∀ d ∈ cs, continuesName d = true := List.all_eq_true.1 hall
    rw [List.cons_append, takeName?, if_pos hstart, Text.takeWhile_run_append hcs hrest,
      Text.dropWhile_run_append hcs hrest]

theorem isArgument_ofLiteral (text : String) : (Value.ofLiteral text).IsArgument := by
  unfold Value.ofLiteral
  split
  · trivial
  split
  · rename_i hfloat
    obtain ⟨-, hfinite⟩ := Option.filter_eq_some_iff.1 hfloat
    exact (Bool.and_eq_true_iff.1 hfinite).2
  split
  · trivial
  split <;> trivial

/-- What is read from an argument list can stand in one. -/
theorem isArgument_of_readArguments {cs left : List Char} {values : List Value}
    (h : readArguments cs = (some values, left)) : ∀ value ∈ values, value.IsArgument := by
  fun_induction readArguments cs generalizing values left with
  | case1 => cases h
  | case2 => cases h
  | case3 =>
    cases h
    exact List.forall_mem_nil _
  | case4 cs c rest _ _ _ _ ih => exact ih h
  | case5 => cases h
  | case6 cs c rest _ _ _ _ _ text rest' hq values' left' he ih =>
    cases values' with
    | none => cases h
    | some more =>
      cases h
      exact List.forall_mem_cons.2 ⟨trivial, ih he⟩
  | case7 =>
    rename_i values' left' he ih
    cases values' with
    | none => cases h
    | some more =>
      cases h
      exact List.forall_mem_cons.2 ⟨isArgument_ofLiteral _, ih he⟩

/-! ## Views of a text by its first token -/

/-- A text between segments, and its tokens. -/
inductive Lexed (total : Nat) : List Char → List Lexeme → Prop where
  | finish {position : Nat} : Lexed total [] [⟨.finish, position⟩]
  | slash {position : Nat} {cs : List Char} :
      Lexed total ('/' :: cs) (⟨.slash, position⟩ :: scan total .segments cs)
  | opening {position : Nat} {cs : List Char} :
      Lexed total ('[' :: cs) (⟨.optionalOpen, position⟩ :: scan total .segments cs)
  | closing {position : Nat} {cs : List Char} :
      Lexed total (']' :: cs) (⟨.optionalClose, position⟩ :: scan total .segments cs)
  /-- A colon with a name behind it. -/
  | variable {position position' : Nat} {name rest : List Char} (hname : IsName name)
      (hrest : ∀ c ∈ rest.head?, continuesName c = false) :
      Lexed total (':' :: (name ++ rest))
        (⟨.variableOpen, position⟩ :: ⟨.identifier (String.ofList name), position'⟩
          :: scan total .named rest)
  /-- A colon without a name behind it. -/
  | colon {position : Nat} {cs : List Char} :
      Lexed total (':' :: cs) (⟨.variableOpen, position⟩ :: scan total .segments cs)
  /-- A literal text goes on to the next punctuation. -/
  | text {position : Nat} {c : Char} {cs : List Char} (hc : isStructural c = false) :
      Lexed total (c :: cs)
        (⟨.text (String.ofList (c :: cs.takeWhile (!isStructural ·))), position⟩
          :: scan total .segments (cs.dropWhile (!isStructural ·)))

theorem lexed_scan (total : Nat) (cs : List Char) : Lexed total cs (scan total .segments cs) := by
  cases cs with
  | nil =>
    rw [scan]
    exact .finish
  | cons c cs =>
    rw [scan]
    simp only [step]
    split
    · rename_i hc
      rw [beq_iff_eq] at hc
      subst hc
      split
      · rename_i name rest hname
        obtain ⟨rfl, hname, hrest⟩ := takeName?_eq_some_iff.1 hname
        exact .variable hname hrest
      · exact .colon
    rename_i hcolon
    split
    · rename_i hc
      rw [beq_iff_eq] at hc
      subst hc
      exact .opening
    rename_i hopen
    split
    · rename_i hc
      rw [beq_iff_eq] at hc
      subst hc
      exact .closing
    rename_i hclose
    split
    · rename_i hc
      rw [beq_iff_eq] at hc
      subst hc
      exact .slash
    rename_i hslash
    exact .text (by simp_all [isStructural])

/-- Between segments no default is read. -/
theorem readDefault_segments (total last : Nat) (cs : List Char) :
    readDefault last (scan total .segments cs) = .ok (none, scan total .segments cs) := by
  have hview := lexed_scan total cs
  generalize scan total .segments cs = ts at hview
  cases hview <;> rfl

section

variable (total : Nat) {cs : List Char}

theorem scan_default_of_ne (h : ∀ c ∈ cs.head?, c ≠ '=') :
    scan total .default cs = scan total .segments cs := by
  cases cs with
  | nil => rw [scan, scan]
  | cons c cs =>
    rw [scan]
    simp [step, h c rfl]

/-- An equals sign without a default of its own. -/
theorem scan_default_equals (h : cs.takeWhile (!endsDefault ·) = []) :
    scan total .default ('=' :: cs)
      = ⟨.equals, total - byteLength ('=' :: cs)⟩ :: scan total .segments cs := by
  rw [scan]
  simp [step, h]

/-- An equals sign with a default. -/
theorem scan_default_text {text rest : List Char} (hne : text ≠ [])
    (htake : cs.takeWhile (!endsDefault ·) = text) (hdrop : cs.dropWhile (!endsDefault ·) = rest) :
    scan total .default ('=' :: cs)
      = ⟨.equals, total - byteLength ('=' :: cs)⟩
        :: ⟨.text (String.ofList text), total - byteLength cs⟩ :: scan total .segments rest := by
  obtain ⟨c, text, rfl⟩ := List.exists_cons_of_ne_nil hne
  rw [scan]
  simp [step, htake, hdrop]

theorem scan_named_of_ne (h : ∀ c ∈ cs.head?, c ≠ '(') :
    scan total .named cs = scan total .default cs := by
  cases cs with
  | nil => rw [scan, scan]
  | cons c cs =>
    rw [scan]
    simp [step, h c rfl]

theorem scan_named_rules (cs : List Char) :
    scan total .named ('(' :: cs)
      = ⟨.rulesOpen, total - byteLength ('(' :: cs)⟩ :: scan total .rules cs := by
  rw [scan]
  simp [step]

end

/-- What stands where a default may start: an equals sign, or a text between segments. -/
theorem exists_scan_default (total : Nat) (cs : List Char) :
    (∃ rest, scan total .default cs = ⟨.equals, total - byteLength cs⟩ :: rest)
      ∨ scan total .default cs = scan total .segments cs := by
  by_cases h : ∀ c ∈ cs.head?, c ≠ '='
  · exact Or.inr (scan_default_of_ne total h)
  · obtain ⟨rest, rfl⟩ : ∃ rest, cs = '=' :: rest := by
      cases cs with
      | nil => simp at h
      | cons c rest => exact ⟨rest, by simpa using h⟩
    by_cases htake : rest.takeWhile (!endsDefault ·) = []
    · exact Or.inl ⟨_, scan_default_equals total htake⟩
    · exact Or.inl ⟨_, scan_default_text total htake rfl rfl⟩

/-- Where a default may start no rule list is read. -/
theorem readRuleList_default (total last : Nat) (cs : List Char) :
    readRuleList last (scan total .default cs) = .ok ([], scan total .default cs) := by
  rcases exists_scan_default total cs with ⟨rest, hscan⟩ | hscan
  · rw [hscan, readRuleList]
    simp
  · rw [hscan]
    have hview := lexed_scan total cs
    generalize scan total .segments cs = ts at hview
    cases hview <;> rfl

/-- A token that does not go on a rule list. -/
def EndsRules : Token → Prop
  | .identifier _ => False
  | .arguments _ => False
  | .comma => False
  | .rulesClose => False
  | _ => True

/-- The tokens of a text inside a rule list. -/
inductive RulesLexed (total : Nat) : List Lexeme → Prop where
  | close {position : Nat} {rest : List Char} :
      RulesLexed total (⟨.rulesClose, position⟩ :: scan total .default rest)
  | comma {position : Nat} {rest : List Char} :
      RulesLexed total (⟨.comma, position⟩ :: scan total .rules rest)
  /-- The name of a rule. -/
  | slug {position : Nat} {name rest : List Char} (hname : IsName name) :
      RulesLexed total (⟨.identifier (String.ofList name), position⟩ :: scan total .rules rest)
  /-- The name of a rule with an argument list. -/
  | call {position position' : Nat} {name rest : List Char} {values : List Value} (hname : IsName name)
      (hvalues : ∀ value ∈ values, value.IsArgument) :
      RulesLexed total (⟨.identifier (String.ofList name), position⟩
        :: ⟨.arguments values, position'⟩ :: scan total .rules rest)
  /-- There is no rule list any more. -/
  | other {lexeme : Lexeme} {rest : List Lexeme} (h : EndsRules lexeme.token) :
      RulesLexed total (lexeme :: rest)

/-- Between segments the first token starts at the first character, and it does not go on a rule list. -/
theorem exists_scan_segments_cons (total : Nat) (cs : List Char) :
    ∃ token more, scan total .segments cs = ⟨token, total - byteLength cs⟩ :: more ∧ EndsRules token := by
  cases cs with
  | nil =>
    rw [scan]
    exact ⟨_, _, rfl, trivial⟩
  | cons c cs =>
    rw [scan]
    simp only [step]
    split
    · split <;> exact ⟨_, _, rfl, trivial⟩
    split
    · exact ⟨_, _, rfl, trivial⟩
    split
    · exact ⟨_, _, rfl, trivial⟩
    split <;> exact ⟨_, _, rfl, trivial⟩

/-- So it is where a default may start. -/
theorem exists_scan_default_cons (total : Nat) (cs : List Char) :
    ∃ token more, scan total .default cs = ⟨token, total - byteLength cs⟩ :: more ∧ EndsRules token := by
  rcases exists_scan_default total cs with ⟨rest, hscan⟩ | hscan
  · exact ⟨_, _, hscan, trivial⟩
  · rw [hscan]
    exact exists_scan_segments_cons total cs

theorem rulesLexed_scan (total : Nat) (cs : List Char) : RulesLexed total (scan total .rules cs) := by
  induction cs with
  | nil =>
    rw [scan]
    exact .other trivial
  | cons c cs ih =>
    rw [scan]
    simp only [step]
    split
    · exact ih
    split
    · exact .close
    split
    · exact .comma
    split
    · obtain ⟨token, more, hscan, hends⟩ := exists_scan_default_cons total (c :: cs)
      simp only [List.map_nil, List.nil_append, hscan]
      exact .other hends
    rename_i name rest hname
    have hname' := (takeName?_eq_some_iff.1 hname).2.1
    split
    · split
      · rename_i values left hvalues
        exact .call hname' (isArgument_of_readArguments hvalues)
      · exact .slug hname'
    · exact .slug hname'

/-- A rule list does not go on with arguments. -/
theorem takeArguments_of_rulesLexed {total : Nat} {ts : List Lexeme} (h : RulesLexed total ts) :
    takeArguments ts = ([], ts) := by
  fun_cases takeArguments ts with
  | case1 values position rest =>
    cases h with
    | other hends => cases hends
  | case2 => rfl

/-! ## Variables -/

section

variable {total last position : Nat} {cs : List Char}

/-- Behind the name of a rule come its arguments, if there are any, and the rule list goes on. -/
theorem rule_of_scan {slug : String} {rest : List Lexeme}
    (h : ⟨.identifier slug, position⟩ :: rest = scan total .rules cs) :
    (RuleCall.mk slug (takeArguments rest).1).IsListed
      ∧ ∃ cs', (takeArguments rest).2 = scan total .rules cs' := by
  have hview := rulesLexed_scan total cs
  rw [← h] at hview
  cases hview with
  | @slug _ name rest hname =>
    rw [takeArguments_of_rulesLexed (rulesLexed_scan total rest)]
    exact ⟨⟨by rwa [String.toList_ofList], List.forall_mem_nil _⟩, rest, rfl⟩
  | call hname hvalues => exact ⟨⟨by rwa [String.toList_ofList], hvalues⟩, _, rfl⟩
  | other hends => cases hends

theorem comma_of_scan {rest : List Lexeme} (h : ⟨.comma, position⟩ :: rest = scan total .rules cs) :
    ∃ cs', rest = scan total .rules cs' := by
  have hview := rulesLexed_scan total cs
  rw [← h] at hview
  cases hview with
  | comma => exact ⟨_, rfl⟩
  | other hends => cases hends

theorem rulesClose_of_scan {rest : List Lexeme}
    (h : ⟨.rulesClose, position⟩ :: rest = scan total .rules cs) :
    ∃ cs', rest = scan total .default cs' := by
  have hview := rulesLexed_scan total cs
  rw [← h] at hview
  cases hview with
  | close => exact ⟨_, rfl⟩
  | other hends => cases hends

/-- What is read from a rule list are rules, and behind the list a default may come. -/
theorem isListed_of_readRules {calls : List RuleCall} {left : List Lexeme}
    (h : readRules last (scan total .rules cs) = .ok (calls, left)) :
    calls ≠ [] ∧ (∀ call ∈ calls, call.IsListed) ∧ ∃ rest, left = scan total .default rest := by
  generalize hts : scan total .rules cs = ts at h
  fun_induction readRules last ts generalizing cs calls left with
  | case1 =>
    rename_i hmore calls' left' hread ih
    cases h
    obtain ⟨hlisted, cs', hrest⟩ := rule_of_scan hts.symm
    obtain ⟨cs'', hmore'⟩ := comma_of_scan (hmore.symm.trans hrest)
    obtain ⟨-, hcalls, hleft⟩ := ih hmore'.symm hread
    exact ⟨List.cons_ne_nil _ _, List.forall_mem_cons.2 ⟨hlisted, hcalls⟩, hleft⟩
  | case2 => cases h
  | case3 =>
    rename_i hmore
    cases h
    obtain ⟨hlisted, cs', hrest⟩ := rule_of_scan hts.symm
    exact ⟨List.cons_ne_nil _ _, List.forall_mem_singleton.2 hlisted,
      rulesClose_of_scan (hmore.symm.trans hrest)⟩
  | case4 => cases h
  | case5 => cases h

theorem forall_mem_takeWhile_not (p : Char → Bool) (cs : List Char) :
    ∀ c ∈ cs.takeWhile (!p ·), p c = false := by
  intro c hc
  simpa using List.all_eq_true.1 List.all_takeWhile c hc

theorem forall_head?_dropWhile_not (p : Char → Bool) (cs : List Char) :
    ∀ c ∈ (cs.dropWhile (!p ·)).head?, p c = true := by
  intro c hc
  have hnot := List.head?_dropWhile_not (!p ·) cs
  rw [Option.mem_def.1 hc] at hnot
  simpa using hnot

/-- What is left behind a default, and the default fits in front of it. -/
structure DefaultRead (cs : List Char) (default : Option String)
    (rest : List Char) : Prop where
  /-- The default is a default. -/
  isDefault : ∀ text ∈ default, IsDefault text.toList
  /-- The default ends where the next part starts. -/
  ends : ∀ text ∈ default, ∀ c ∈ rest.head?, defaultStop text.toList c = true
  /-- Without a default, no equals sign comes. -/
  absent : default = none → rest = cs ∧ ∀ c ∈ cs.head?, c ≠ '='

/-- A default that starts with a character at which other defaults end. -/
theorem defaultRead_of_ends {default : Option String} {left : List Lexeme}
    (h : readDefault last (scan total .default ('=' :: cs)) = .ok (default, left))
    (htake : cs.takeWhile (!endsDefault ·) = []) :
    ∃ rest, left = scan total .segments rest ∧ DefaultRead ('=' :: cs) default rest := by
  rw [scan_default_equals total htake] at h
  have hview := lexed_scan total cs
  generalize scan total .segments cs = ts at h hview
  cases hview with
  | @text position d ds hd =>
    cases h
    have hends : endsDefault d = true := by
      by_contra hnot
      simp [List.takeWhile_cons, hnot] at htake
    have hstop := defaultStop_of_ends hends (ds.takeWhile (!isStructural ·))
    refine ⟨_, rfl, ?_, ?_, by simp⟩
    · rintro _ ⟨⟩
      rw [String.toList_ofList]
      refine ⟨List.cons_ne_nil _ _, ?_⟩
      rw [hstop]
      exact List.forall_mem_cons.2 ⟨hd, forall_mem_takeWhile_not isStructural ds⟩
    · rintro _ ⟨⟩
      rw [String.toList_ofList, hstop]
      exact forall_head?_dropWhile_not isStructural ds
  | _ => cases h

/-- A default that starts with a character at which no default ends. -/
theorem defaultRead_of_stays {default : Option String} {left : List Lexeme}
    (h : readDefault last (scan total .default ('=' :: cs)) = .ok (default, left))
    (htake : cs.takeWhile (!endsDefault ·) ≠ []) :
    ∃ rest, left = scan total .segments rest ∧ DefaultRead ('=' :: cs) default rest := by
  rw [scan_default_text total htake rfl rfl] at h
  cases h
  have hall := forall_mem_takeWhile_not endsDefault cs
  have hstop : defaultStop (cs.takeWhile (!endsDefault ·)) = endsDefault := by
    obtain ⟨d, ds, hds⟩ := List.exists_cons_of_ne_nil htake
    rw [hds] at hall ⊢
    exact defaultStop_of_stays (hall d List.mem_cons_self) ds
  refine ⟨_, rfl, ?_, ?_, by simp⟩
  · rintro _ ⟨⟩
    rw [String.toList_ofList]
    refine ⟨htake, ?_⟩
    rwa [hstop]
  · rintro _ ⟨⟩
    rw [String.toList_ofList, hstop]
    exact forall_head?_dropWhile_not endsDefault cs

theorem defaultRead_of_readDefault {default : Option String} {left : List Lexeme}
    (h : readDefault last (scan total .default cs) = .ok (default, left)) :
    ∃ rest, left = scan total .segments rest ∧ DefaultRead cs default rest := by
  by_cases hequals : ∀ c ∈ cs.head?, c ≠ '='
  · rw [scan_default_of_ne total hequals, readDefault_segments] at h
    cases h
    exact ⟨cs, rfl, by simp, by simp, fun _ => ⟨rfl, hequals⟩⟩
  obtain ⟨cs, rfl⟩ : ∃ rest, cs = '=' :: rest := by
    cases cs with
    | nil => simp at hequals
    | cons c rest => exact ⟨rest, by simpa using hequals⟩
  by_cases htake : cs.takeWhile (!endsDefault ·) = []
  · exact defaultRead_of_ends h htake
  · exact defaultRead_of_stays h htake

/-- Between segments no name is read. -/
theorem readVariable_segments {tree : Tree} {left : List Lexeme}
    (h : readVariable last (scan total .segments cs) = .ok (tree, left)) : False := by
  have hview := lexed_scan total cs
  generalize scan total .segments cs = ts at h hview
  cases hview <;> cases h

/-- A variable ends where the next part starts. -/
theorem grammatical_of_readVariable {depth : Nat} {name rest : List Char} {tree : Tree}
    {left : List Lexeme} (hname : IsName name) (hrest : ∀ c ∈ rest.head?, continuesName c = false)
    (h : readVariable last (⟨.identifier (String.ofList name), position⟩ :: scan total .named rest)
      = .ok (tree, left)) :
    ∃ name calls default cs, tree = .variable name calls default ∧ Grammatical depth tree
      ∧ left = scan total .segments cs ∧ ∀ c ∈ cs.head?, standsBehind calls default c = true := by
  simp only [readVariable, bind, Except.bind, pure, Except.pure] at h
  split at h
  · cases h
  rename_i listed hlist
  obtain ⟨calls, left'⟩ := listed
  split at h
  · cases h
  rename_i defaulted hdefault
  obtain ⟨default, left''⟩ := defaulted
  cases h
  -- the rule list, if there is one, leaves what a default may start
  obtain ⟨cs, rfl, hcalls, hcs⟩ : ∃ cs, left' = scan total .default cs
      ∧ (∀ call ∈ calls, call.IsListed)
      ∧ (calls = [] → ∀ c ∈ cs.head?, continuesName c = false ∧ c ≠ '(') := by
    by_cases hopen : ∀ c ∈ rest.head?, c ≠ '('
    · rw [scan_named_of_ne total hopen, readRuleList_default] at hlist
      cases hlist
      exact ⟨rest, rfl, by simp, fun _ c hc => ⟨hrest c hc, hopen c hc⟩⟩
    · obtain ⟨more, rfl⟩ : ∃ more, rest = '(' :: more := by
        cases rest with
        | nil => simp at hopen
        | cons c more => exact ⟨more, by simpa using hopen⟩
      rw [scan_named_rules] at hlist
      obtain ⟨hne, hcalls, cs, hleft⟩ := isListed_of_readRules hlist
      exact ⟨cs, hleft, hcalls, fun hnil => absurd hnil hne⟩
  obtain ⟨cs', hleft, hread⟩ := defaultRead_of_readDefault hdefault
  refine ⟨_, calls, default, cs', rfl, ?_, hleft, ?_⟩
  · exact .variable (by rwa [String.toList_ofList]) hcalls hread.isDefault
  intro c hc
  cases default with
  | some text => exact hread.ends text rfl c hc
  | none =>
    obtain ⟨rfl, heq⟩ := hread.absent rfl
    cases calls with
    | nil => simp [standsBehind, heq c hc, hcs rfl c hc]
    | cons call calls => simp [standsBehind, heq c hc]

end

/-! ## Segments -/

/-- What has been read so far of a text: the parts inside the innermost open segment, the last one
first, and around them the parts in front of each open segment. -/
structure ReadSoFar (segments : List OpenSegment) (parts : List Tree) (cs : List Char) : Prop where
  /-- No more segments are open than may be nested. -/
  depth : segments.length ≤ maxNesting
  /-- The parts are parts of a template. -/
  inside : AllGrammatical (maxNesting - segments.length) parts.reverse
  /-- So are the parts in front of each open segment. -/
  before : ∀ segment outer, segment :: outer <:+ segments →
    AllGrammatical (maxNesting - outer.length) segment.before.reverse
  /-- What comes next does not belong to a variable in front of it. -/
  next : ∀ name calls default, parts.head? = some (.variable name calls default) →
    ∀ c ∈ cs.head?, standsBehind calls default c = true

section

variable {depth : Nat} {parts : List Tree}

/-- One more part can stand behind parts that it adjoins. -/
theorem allGrammatical_cons (h : AllGrammatical depth parts.reverse) {part : Tree}
    (hpart : Grammatical depth part) (hadjoins : ∀ before ∈ parts.head?, Adjoins before part) :
    AllGrammatical depth (part :: parts).reverse := by
  obtain ⟨hparts, hchain⟩ := h
  rw [List.reverse_cons]
  refine ⟨List.forall_mem_append.2 ⟨hparts, List.forall_mem_singleton.2 hpart⟩, ?_⟩
  rw [List.isChain_append]
  refine ⟨hchain, List.isChain_singleton _, ?_⟩
  rw [List.getLast?_reverse]
  rintro before hbefore _ ⟨⟩
  exact hadjoins before hbefore

/-- More literal text can stand behind a literal, and behind a variable if it does not belong to it. -/
theorem allGrammatical_addLiteral (h : AllGrammatical depth parts.reverse) {text : String}
    (hne : text.toList ≠ []) (htext : ∀ c ∈ text.toList, isStructural c = true → c = '/')
    (hnext : ∀ name calls default, parts.head? = some (.variable name calls default) →
      ∀ c ∈ text.toList.head?, standsBehind calls default c = true) :
    AllGrammatical depth (addLiteral text parts).reverse := by
  fun_cases addLiteral text parts with
  | case1 before parts =>
    obtain ⟨hparts, hchain⟩ := h
    rw [List.reverse_cons] at hparts hchain
    obtain ⟨hparts, hbefore⟩ := List.forall_mem_append.1 hparts
    obtain ⟨hchain, -, hadjoins⟩ := List.isChain_append.1 hchain
    cases List.forall_mem_singleton.1 hbefore with
    | literal hne' hbefore =>
      refine allGrammatical_cons ⟨hparts, hchain⟩ (.literal ?_ ?_) ?_
      · simp [hne']
      · rw [String.toList_append]
        exact List.forall_mem_append.2 ⟨hbefore, htext⟩
      · -- the literal starts as it did before
        intro last hlast
        have hold := hadjoins last (by rwa [List.getLast?_reverse]) (.literal before) rfl
        cases last with
        | literal => exact hold
        | «variable» =>
          intro c hc
          rw [String.toList_append, List.head?_append_of_ne_nil _ hne'] at hc
          exact hold c hc
        | _ => trivial
  | case2 parts hother =>
    refine allGrammatical_cons h (.literal hne htext) ?_
    intro last hlast
    cases last with
    | literal before =>
      obtain ⟨parts', rfl⟩ := List.head?_eq_some_iff.1 hlast
      exact (hother before parts' rfl).elim
    | «variable» => exact hnext _ _ _ hlast
    | _ => trivial

end

/-- Text that does not belong to a variable in front of it goes on a template. -/
theorem ReadSoFar.addLiteral {segments : List OpenSegment} {parts : List Tree} {text rest : List Char}
    (h : ReadSoFar segments parts (text ++ rest)) (hne : text ≠ [])
    (htext : ∀ c ∈ text, isStructural c = true → c = '/') :
    ReadSoFar segments (addLiteral (String.ofList text) parts) rest := by
  have hlist : (String.ofList text).toList = text := String.toList_ofList
  refine ⟨h.depth, allGrammatical_addLiteral h.inside ?_ ?_ ?_, h.before, ?_⟩
  · rwa [hlist]
  · rwa [hlist]
  · rw [hlist]
    intro name calls default hhead c hc
    apply h.next name calls default hhead
    rwa [List.head?_append_of_ne_nil _ hne]
  · intro name calls default hhead
    fun_cases Template.addLiteral (String.ofList text) parts <;> simp_all [Template.addLiteral]

/-- A variable ends where the rest of a template starts. -/
theorem ReadSoFar.addVariable {segments : List OpenSegment} {parts : List Tree} {name : String}
    {calls : List RuleCall} {default : Option String} {cs rest : List Char}
    (h : ReadSoFar segments parts cs)
    (htree : Grammatical (maxNesting - segments.length) (.variable name calls default))
    (hrest : ∀ c ∈ rest.head?, standsBehind calls default c = true) :
    ReadSoFar segments (.variable name calls default :: parts) rest := by
  refine ⟨h.depth, allGrammatical_cons h.inside htree ?_, h.before, ?_⟩
  · intro before _
    cases before <;> trivial
  · rintro _ _ _ ⟨⟩
    exact hrest

/-- A segment is opened. -/
theorem ReadSoFar.open {segments : List OpenSegment} {parts : List Tree} {position : Nat}
    {cs : List Char} (h : ReadSoFar segments parts ('[' :: cs)) (hlt : segments.length < maxNesting) :
    ReadSoFar (⟨position, parts⟩ :: segments) [] cs := by
  refine ⟨hlt, ⟨List.forall_mem_nil _, List.isChain_nil⟩, ?_, by simp⟩
  intro segment outer hsuffix
  rcases List.suffix_cons_iff.1 hsuffix with heq | hsuffix
  · cases heq
    exact h.inside
  · exact h.before segment outer hsuffix

/-- The parts of an open segment have been read as parts of a template. -/
theorem ReadSoFar.close {segment : OpenSegment} {outer : List OpenSegment} {parts : List Tree}
    {cs : List Char} (h : ReadSoFar (segment :: outer) parts (']' :: cs)) (hne : parts ≠ []) :
    ReadSoFar outer (.optional parts.reverse :: segment.before) cs := by
  obtain ⟨hdepth, ⟨hparts, hchain⟩, hbefore, -⟩ := h
  rw [List.length_cons] at hdepth hparts
  refine ⟨by omega, allGrammatical_cons (hbefore segment outer (List.suffix_refl _)) ?_ ?_, ?_, by simp⟩
  · rw [show maxNesting - outer.length = maxNesting - (outer.length + 1) + 1 by omega]
    exact .optional (by simpa using hne) hparts hchain
  · intro before _
    cases before <;> trivial
  · intro segment' outer' hsuffix
    exact hbefore segment' outer' (hsuffix.trans (List.suffix_cons _ _))

/-- What is read behind parts of a template are parts of a template. -/
theorem exists_allGrammatical_of_readSegments {total last : Nat} {segments : List OpenSegment}
    {parts : List Tree} {cs : List Char} {tree : Tree}
    (h : readSegments last segments parts (scan total .segments cs) = .ok tree)
    (hread : ReadSoFar segments parts cs) :
    ∃ parts, tree = .sequence parts ∧ AllGrammatical maxNesting parts := by
  generalize hts : scan total .segments cs = ts at h
  have hview := lexed_scan total cs
  rw [hts] at hview
  fun_induction readSegments last segments parts ts generalizing cs with
  | case1 segments parts | case2 segments parts =>
    cases segments with
    | nil =>
      cases h
      exact ⟨_, rfl, hread.inside⟩
    | cons => cases h
  | case3 segments parts text position rest ih =>
    cases hview with
    | @text _ c cs hc =>
      refine ih (ReadSoFar.addLiteral ?_ (List.cons_ne_nil _ _) ?_) rfl h (lexed_scan _ _)
      · rwa [List.cons_append, List.takeWhile_append_dropWhile]
      · intro d hd hd'
        have hall : ∀ d ∈ c :: cs.takeWhile (!isStructural ·), isStructural d = false :=
          List.forall_mem_cons.2 ⟨hc, forall_mem_takeWhile_not isStructural cs⟩
        simp [hall d hd] at hd'
  | case4 segments parts position rest ih =>
    cases hview with
    | @slash _ cs =>
      exact ih (@ReadSoFar.addLiteral segments parts ['/'] cs hread (List.cons_ne_nil _ _) (by simp))
        rfl h (lexed_scan _ _)
  | case5 segments parts position rest tree left hleft ih =>
    simp only at h
    split at h
    · rename_i hleft'
      rw [hleft] at hleft'
      cases hleft'
      cases hview with
      | «variable» hname hrest =>
        obtain ⟨_, _, _, cs, rfl, htree, rfl, hcs⟩ := grammatical_of_readVariable hname hrest hleft
        exact ih (hread.addVariable htree hcs) rfl h (lexed_scan _ _)
      | colon => cases readVariable_segments hleft
    · cases h
  | case6 segments parts position rest fault hleft =>
    simp only at h
    split at h
    · rename_i hleft'
      rw [hleft] at hleft'
      cases hleft'
    · cases h
  | case7 segments parts position rest hlt ih =>
    simp only [hlt, if_true] at h
    cases hview with
    | opening => exact ih (hread.open hlt) rfl h (lexed_scan _ _)
  | case8 segments parts position rest hlt =>
    simp only [hlt, if_false] at h
    cases h
  | case9 => cases h
  | case10 => cases h
  | case11 position rest segment outer parts hparts ih =>
    cases hview with
    | closing =>
      rw [List.unattach_reverse, List.unattach_attach] at ih
      exact ih (hread.close hparts) rfl (by simpa using h) (lexed_scan _ _)
  | case12 => simp_all

/-- Every tree that is read from a text is a sequence of parts of a template. -/
theorem grammatical_of_parse {text : String} {tree : Tree} (h : Tree.parse text = .ok tree) :
    ∃ parts, tree = .sequence parts ∧ AllGrammatical maxNesting parts := by
  refine exists_allGrammatical_of_readSegments h ⟨Nat.zero_le _, ?_, by simp, by simp⟩
  exact ⟨List.forall_mem_nil _, List.isChain_nil⟩

end Template

end UriRouting
