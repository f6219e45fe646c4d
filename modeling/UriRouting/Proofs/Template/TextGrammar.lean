import UriRouting.Proofs.Template.ArgumentSource
import UriRouting.Proofs.Template.FaultPlace
/-!
# The grammar of texts

The text of a template falls into the texts of its parts, and the text of a variable into its name, its rules
and its default. Blanks may stand around a rule. A rule with parentheses has one argument for each that
stands between them, in order, and what stands there is the text of an argument list.

* `CallSource`, `RulesSource` and `RuleListSource` are the texts of rules;
* `Tree.ReadFrom` and `Tree.AllReadFrom` say of which text a tree is read;
* `ReadUpTo` says how the open segments of the reader stand for the text that it has read;
* `readFrom_of_parse` is the main statement.
-/

namespace UriRouting

open UriRouting.Tree UriRouting.Template

namespace Template

/-! ## Texts of rules -/

/-- A text of blanks. -/
def IsBlanks (text : List Char) : Prop :=
  ∀ c ∈ text, Text.isAsciiBlank c = true

/-- The text of a rule. -/
inductive CallSource : List Char → RuleCall → Prop where
  /-- A rule without parentheses has no arguments. -/
  | bare {name : List Char} (hname : IsName name) : CallSource name ⟨String.ofList name, []⟩
  /-- A rule has the arguments between its parentheses. -/
  | applied {name text : List Char} {values : List Value} (hname : IsName name)
      (h : ArgumentsSource text values) :
      CallSource (name ++ '(' :: (text ++ [')'])) ⟨String.ofList name, values⟩

/-- The text of rules with a comma between two of them, and of the parenthesis behind. -/
inductive RulesSource : List Char → List RuleCall → Prop where
  /-- The last rule. -/
  | last {front own behind : List Char} {call : RuleCall} (hfront : IsBlanks front)
      (h : CallSource own call) (hbehind : IsBlanks behind) :
      RulesSource (front ++ (own ++ (behind ++ [')']))) [call]
  /-- A rule in front of others. -/
  | more {front own behind rest : List Char} {call : RuleCall} {calls : List RuleCall}
      (hfront : IsBlanks front) (h : CallSource own call) (hbehind : IsBlanks behind)
      (hrest : RulesSource rest calls) :
      RulesSource (front ++ (own ++ (behind ++ ',' :: rest))) (call :: calls)

/-- The text of a rule list, if there is one. -/
inductive RuleListSource : List Char → List RuleCall → Prop where
  /-- Without a list there are no rules. -/
  | absent : RuleListSource [] []
  /-- A list in parentheses. -/
  | given {text : List Char} {calls : List RuleCall} (h : RulesSource text calls) :
      RuleListSource ('(' :: text) calls

end Template

namespace Tree

mutual

/-- The text that a tree is read from. -/
inductive ReadFrom : Tree → List Char → Prop where
  /-- A literal stands for itself; it holds no punctuation but slashes. -/
  | literal {own : String} (h : ∀ c ∈ own.toList, isStructural c = true → c = '/') :
      ReadFrom (.literal own) own.toList
  /-- A variable has a name, perhaps rules, and perhaps a default. -/
  | variable {name : String} {rules : List Char} {calls : List RuleCall} {default : Option String}
      (hname : IsName name.toList) (hrules : RuleListSource rules calls) :
      ReadFrom (.variable name calls default) (':' :: name.toList ++ rules ++ defaultChars default)
  /-- An optional segment stands in brackets. -/
  | optional {parts : List Tree} {text : List Char} (h : AllReadFrom parts text) :
      ReadFrom (.optional parts) ('[' :: text ++ [']'])

/-- The text that some parts are read from. -/
inductive AllReadFrom : List Tree → List Char → Prop where
  | nil : AllReadFrom [] []
  | cons {part : Tree} {parts : List Tree} {text text' : List Char} (h : ReadFrom part text)
      (h' : AllReadFrom parts text') : AllReadFrom (part :: parts) (text ++ text')

end

theorem AllReadFrom.append {parts parts' : List Tree} {text text' : List Char} (h : AllReadFrom parts text)
    (h' : AllReadFrom parts' text') : AllReadFrom (parts ++ parts') (text ++ text') := by
  induction parts generalizing text with
  | nil =>
    cases h
    exact h'
  | cons part parts ih =>
    cases h with
    | cons hpart hparts =>
      rw [List.append_assoc]
      exact .cons hpart (ih hparts)

theorem AllReadFrom.single {part : Tree} {text : List Char} (h : ReadFrom part text) :
    AllReadFrom [part] text := by
  have hcons := AllReadFrom.cons h .nil
  rwa [List.append_nil] at hcons

/-- The last of some parts is read from the end of their text. -/
theorem AllReadFrom.of_concat {parts : List Tree} {part : Tree} {text : List Char}
    (h : AllReadFrom (parts ++ [part]) text) :
    ∃ front own, text = front ++ own ∧ AllReadFrom parts front ∧ ReadFrom part own := by
  induction parts generalizing text with
  | nil =>
    cases h with
    | cons hpart hnil =>
      cases hnil
      exact ⟨[], _, (List.append_nil _).trans (List.nil_append _).symm, .nil, hpart⟩
  | cons first parts ih =>
    cases h with
    | cons hfirst hparts =>
      obtain ⟨front, own, rfl, hfront, hown⟩ := ih hparts
      exact ⟨_, own, (List.append_assoc _ _ _).symm, .cons hfirst hfront, hown⟩

/-- More literal text goes on the literal in front of it, or starts one. -/
theorem AllReadFrom.addLiteral {parts : List Tree} {front : List Char} (h : AllReadFrom parts.reverse front)
    {text : String} (htext : ∀ c ∈ text.toList, isStructural c = true → c = '/') :
    AllReadFrom (addLiteral text parts).reverse (front ++ text.toList) := by
  fun_cases Template.addLiteral text parts with
  | case1 before parts =>
    rw [List.reverse_cons] at h ⊢
    obtain ⟨front, own, rfl, hfront, hbefore⟩ := h.of_concat
    cases hbefore with
    | literal hbefore =>
      rw [List.append_assoc, ← String.toList_append]
      refine hfront.append (.single (.literal ?_))
      rw [String.toList_append]
      exact List.forall_mem_append.2 ⟨hbefore, htext⟩
  | case2 =>
    rw [List.reverse_cons]
    exact h.append (.single (.literal htext))

end Tree

namespace Template

section

variable {total last position : Nat} {cs rest : List Char} {left : List Lexeme}

/-! ## Rules -/

/-- Where a rule may start and a name stands, there is a rule, unless an argument list breaks off. -/
theorem exists_callSource {name : List Char} (hname : IsName name)
    (hrest : ∀ c ∈ rest.head?, continuesName c = false) {calls : List RuleCall}
    (h : readRules last (scan total .rules (name ++ rest)) = .ok (calls, left)) :
    ∃ own behind call, name ++ rest = own ++ behind ∧ behind.length ≤ rest.length
      ∧ CallSource own call ∧ RuleScans own call behind := by
  by_cases hopen : rest.head? = some '('
  · obtain ⟨more, rfl⟩ := List.head?_eq_some_iff.1 hopen
    cases argumentsRead more with
    | broken text behind _ hleft hread =>
      obtain ⟨token, hstop⟩ := readRules_paren hname (hread behind rfl) hleft total last
      rw [hstop] at h
      cases h
    | closed text behind values _ hread =>
      obtain ⟨own, hsplit, hown⟩ := readArguments_eq_iff.1 (hread behind)
      refine ⟨name ++ '(' :: (own ++ [')']), behind, ⟨String.ofList name, values⟩, by simp [hsplit], ?_,
        .applied hname hown, ruleScans_call hname (fun behind' => ?_) behind⟩
      · simp only [List.length_cons, List.length_append]
        omega
      · exact readArguments_eq_iff.2 ⟨own, by simp, hown⟩
  · refine ⟨name, rest, ⟨String.ofList name, []⟩, rfl, le_rfl, .bare hname, ruleScans_slug hname ?_⟩
    intro c hc
    refine ⟨hrest c hc, ?_⟩
    rintro rfl
    exact hopen hc

/-- Rules that are read from a text have the text of rules. -/
theorem exists_source_of_readRules {calls : List RuleCall}
    (h : readRules last (scan total .rules cs) = .ok (calls, left)) :
    ∃ text rest, cs = text ++ rest ∧ RulesSource text calls ∧ left = scan total .default rest := by
  -- on the length, since a rule takes a whole run of characters off the front
  induction hlen : cs.length using Nat.strong_induction_on generalizing cs calls left with
  | _ n ih =>
    obtain ⟨front, tail, rfl, hfront, htail⟩ := exists_blanks_append cs
    rw [scan_rules_blanks total hfront] at h
    cases htake : takeName? tail with
    | none =>
      obtain ⟨token, more, hscan, hslug⟩ := exists_scan_rules_nameless total htake htail
      rw [hscan, readRules] at h
      · cases h
      · simpa using hslug
    | some taken =>
      obtain ⟨name, rest⟩ := taken
      obtain ⟨rfl, hname, hrest⟩ := takeName?_eq_some_iff.1 htake
      have hshorter := length_lt_of_takeName? htake
      obtain ⟨own, after, call, hsplit, hle, hown, hscans⟩ := exists_callSource hname hrest h
      rw [hsplit] at h hlen hshorter ⊢
      obtain ⟨behind, tail, rfl, hbehind, htail⟩ := exists_blanks_append after
      by_cases hclose : tail.head? = some ')'
      · obtain ⟨rest', rfl⟩ := List.head?_eq_some_iff.1 hclose
        rw [hscans.close hbehind rest' (Or.inl rfl)] at h
        cases h
        exact ⟨_, rest', by simp, .last hfront hown hbehind, rfl⟩
      by_cases hcomma : tail.head? = some ','
      · obtain ⟨rest', rfl⟩ := List.head?_eq_some_iff.1 hcomma
        rw [hscans.comma hbehind rest' (Or.inl rfl)] at h
        obtain ⟨⟨calls', left'⟩, hread, heq⟩ := exists_of_map_eq_ok h
        cases heq
        obtain ⟨text, rest'', rfl, htext, hleft⟩ := ih rest'.length (by simp at hlen hle hshorter ⊢; omega) hread rfl
        exact ⟨_, rest'', by simp, .more hfront hown hbehind htext, hleft⟩
      · have hother : ∀ c ∈ tail.head?, Text.isAsciiBlank c = false ∧ c ≠ ')' ∧ c ≠ ',' := by
          intro c hc
          refine ⟨htail c hc, ?_, ?_⟩
          · rintro rfl
            exact hclose hc
          · rintro rfl
            exact hcomma hc
        obtain ⟨_, _, hstop⟩ := hscans.stopsAt hbehind tail (Or.inl rfl) hother total last
        rw [hstop] at h
        cases h

/-! ## Variables -/

/-- A default that is read is the text behind an equals sign. -/
theorem exists_rest_of_readDefault {default : Option String}
    (h : readDefault last (scan total .default cs) = .ok (default, left)) :
    ∃ rest, cs = defaultChars default ++ rest ∧ left = scan total .segments rest := by
  by_cases hequals : cs.head? = some '='
  · obtain ⟨behind, rfl⟩ := List.head?_eq_some_iff.1 hequals
    rcases exists_isDefault behind with ⟨own, rest, rfl, hdefault, hrest⟩ | hmark
    · rw [← List.cons_append, readDefault_own hdefault hrest] at h
      cases h
      exact ⟨rest, by rw [defaultChars, String.toList_ofList, List.cons_append], rfl⟩
    · obtain ⟨token, hstop⟩ := readDefault_equals hmark total last
      rw [hstop] at h
      cases h
  · have hne : ∀ c ∈ cs.head?, c ≠ '=' := by
      rintro _ hc rfl
      exact hequals hc
    rw [scan_default_of_ne total hne, readDefault_segments] at h
    cases h
    exact ⟨cs, rfl, rfl⟩

theorem exists_source_of_readRuleList {calls : List RuleCall}
    (h : readRuleList last (scan total .named cs) = .ok (calls, left)) :
    ∃ text rest, cs = text ++ rest ∧ RuleListSource text calls ∧ left = scan total .default rest := by
  by_cases hopen : cs.head? = some '('
  · obtain ⟨more, rfl⟩ := List.head?_eq_some_iff.1 hopen
    rw [scan_named_rules, readRuleList] at h
    obtain ⟨text, rest, rfl, htext, hleft⟩ := exists_source_of_readRules h
    exact ⟨'(' :: text, rest, rfl, .given htext, hleft⟩
  · have hne : ∀ c ∈ cs.head?, c ≠ '(' := by
      rintro _ hc rfl
      exact hopen hc
    rw [scan_named_of_ne total hne, readRuleList_default] at h
    cases h
    exact ⟨[], cs, rfl, .absent, rfl⟩

/-- A variable that is read has the text of a variable. -/
theorem exists_source_of_readVariable {name : List Char} (hname : IsName name) {tree : Tree}
    (h : readVariable last (⟨.identifier (String.ofList name), position⟩ :: scan total .named cs)
      = .ok (tree, left)) :
    ∃ own rest, cs = own ++ rest ∧ ReadFrom tree (':' :: name ++ own)
      ∧ left = scan total .segments rest := by
  simp only [readVariable, bind, Except.bind, pure, Except.pure] at h
  split at h
  · cases h
  rename_i listed hlist
  obtain ⟨calls, left'⟩ := listed
  split at h
  · cases h
  rename_i defaulted hdefault
  obtain ⟨default, left''⟩ := defaulted
  cases h
  obtain ⟨rules, behind, rfl, hrules, rfl⟩ := exists_source_of_readRuleList hlist
  obtain ⟨rest, rfl, hleft⟩ := exists_rest_of_readDefault hdefault
  have hread := @ReadFrom.variable (String.ofList name) rules calls default
    (by rwa [String.toList_ofList]) hrules
  rw [String.toList_ofList, List.append_assoc] at hread
  exact ⟨rules ++ defaultChars default, rest, (List.append_assoc _ _ _).symm, hread, hleft⟩

/-! ## Segments -/

/-- The text that the open segments of the reader, and the parts inside the innermost one, are read from. -/
inductive ReadUpTo : List OpenSegment → List Tree → List Char → Prop where
  /-- No segment is open. -/
  | whole {parts : List Tree} {text : List Char} (h : AllReadFrom parts.reverse text) :
      ReadUpTo [] parts text
  /-- A segment is open behind the parts in front of it. -/
  | inside {segment : OpenSegment} {outer : List OpenSegment} {parts : List Tree} {text own : List Char}
      (houter : ReadUpTo outer segment.before text) (h : AllReadFrom parts.reverse own) :
      ReadUpTo (segment :: outer) parts (text ++ '[' :: own)

/-- Parts inside the innermost open segment go on with more text. -/
theorem ReadUpTo.extend {segments : List OpenSegment} {parts parts' : List Tree} {text more : List Char}
    (h : ReadUpTo segments parts text)
    (hmore : ∀ own, AllReadFrom parts.reverse own → AllReadFrom parts'.reverse (own ++ more)) :
    ReadUpTo segments parts' (text ++ more) := by
  cases h with
  | whole h => exact .whole (hmore _ h)
  | inside houter h =>
    rw [List.append_assoc, List.cons_append]
    exact .inside houter (hmore _ h)

/-- More literal text is read from itself. -/
theorem ReadUpTo.addLiteral {segments : List OpenSegment} {parts : List Tree} {text own : List Char}
    (h : ReadUpTo segments parts text) (hown : ∀ c ∈ own, isStructural c = true → c = '/') :
    ReadUpTo segments (addLiteral (String.ofList own) parts) (text ++ own) := by
  refine h.extend fun before hbefore => ?_
  have hread := hbefore.addLiteral (show ∀ c ∈ (String.ofList own).toList, _ by rwa [String.toList_ofList])
  rwa [String.toList_ofList] at hread

/-- One more part is read from one more text. -/
theorem ReadUpTo.add {segments : List OpenSegment} {parts : List Tree} {text own : List Char}
    (h : ReadUpTo segments parts text) {part : Tree} (hpart : ReadFrom part own) :
    ReadUpTo segments (part :: parts) (text ++ own) := by
  refine h.extend fun before hbefore => ?_
  rw [List.reverse_cons]
  exact hbefore.append (.single hpart)

/-- A bracket makes a part of the innermost open segment. -/
theorem ReadUpTo.close {segment : OpenSegment} {outer : List OpenSegment} {parts : List Tree}
    {text : List Char} (h : ReadUpTo (segment :: outer) parts text) :
    ReadUpTo outer (.optional parts.reverse :: segment.before) (text ++ [']']) := by
  cases h with
  | inside houter h =>
    rw [List.append_assoc, List.cons_append]
    exact houter.add (.optional h)

/-- What is read behind a text is read from the whole text. -/
theorem exists_readFrom_of_readSegments {segments : List OpenSegment} {parts : List Tree} {front : List Char}
    {tree : Tree} (h : readSegments last segments parts (scan total .segments cs) = .ok tree)
    (hfront : ReadUpTo segments parts front) :
    ∃ parts, tree = .sequence parts ∧ AllReadFrom parts (front ++ cs) := by
  generalize hts : scan total .segments cs = ts at h
  have hview := lexed_scan total cs
  rw [hts] at hview
  fun_induction readSegments last segments parts ts generalizing cs front with
  | case1 => cases hview
  | case2 segments parts =>
    cases hview with
    | finish =>
      cases hfront with
      | whole hparts =>
        cases h
        exact ⟨_, rfl, by rwa [List.append_nil]⟩
      | inside => cases h
  | case3 segments parts text position rest ih =>
    cases hview with
    | @text _ c cs hc =>
      have hall : ∀ d ∈ c :: cs.takeWhile (!isStructural ·), isStructural d = true → d = '/' := by
        intro d hd hmark
        have hplain : isStructural d = false :=
          (List.forall_mem_cons.2 ⟨hc, forall_mem_takeWhile_not isStructural cs⟩ :
            ∀ d ∈ c :: cs.takeWhile (!isStructural ·), isStructural d = false) d hd
        rw [hplain] at hmark
        cases hmark
      obtain ⟨parts', htree, hparts⟩ := ih (hfront.addLiteral hall) rfl h (lexed_scan _ _)
      rw [List.append_assoc, List.cons_append, List.takeWhile_append_dropWhile] at hparts
      exact ⟨parts', htree, hparts⟩
  | case4 segments parts position rest ih =>
    cases hview with
    | @slash _ cs =>
      obtain ⟨parts', htree, hparts⟩ :=
        ih (@ReadUpTo.addLiteral segments parts front ['/'] hfront (by simp)) rfl h (lexed_scan _ _)
      exact ⟨parts', htree, by simpa using hparts⟩
  | case5 segments parts position rest tree left hleft ih =>
    simp only at h
    split at h
    · rename_i hleft'
      rw [hleft] at hleft'
      cases hleft'
      cases hview with
      | @«variable» _ _ name rest hname hrest =>
        obtain ⟨own, cs, rfl, hown, rfl⟩ := exists_source_of_readVariable hname hleft
        obtain ⟨parts', htree, hparts⟩ := ih (hfront.add hown) rfl h (lexed_scan _ _)
        exact ⟨parts', htree, by simpa using hparts⟩
      | colon => cases readVariable_segments hleft
    · cases h
  | case6 segments parts position rest fault hleft =>
    simp only at h
    split at h
    · rename_i hleft'
      rw [hleft] at hleft'
      cases hleft'
    · cases h
  | case7 segments parts position rest hlt ih =>
    simp only [hlt, if_true] at h
    cases hview with
    | @opening _ cs =>
      obtain ⟨parts', htree, hparts⟩ := ih (.inside hfront .nil) rfl h (lexed_scan _ _)
      exact ⟨parts', htree, by simpa using hparts⟩
  | case8 segments parts position rest hlt =>
    simp only [hlt, if_false] at h
    cases h
  | case9 => cases h
  | case10 => cases h
  | case11 position rest segment outer parts hparts ih =>
    cases hview with
    | @closing _ cs =>
      rw [List.unattach_reverse, List.unattach_attach] at ih
      obtain ⟨parts', htree, hparts⟩ := ih hfront.close rfl (by simpa using h) (lexed_scan _ _)
      exact ⟨parts', htree, by simpa using hparts⟩
  | case12 => simp_all

/-! ## Rules that are read back -/

theorem continuesName_of_isAsciiBlank {c : Char} (h : Text.isAsciiBlank c = true) :
    continuesName c = false ∧ c ≠ '(' := by
  simp only [Text.isAsciiBlank, Bool.or_eq_true, beq_iff_eq] at h
  rcases h with (((rfl | rfl) | rfl) | rfl) | rfl <;> decide

/-- The text of a rule is read as the rule, up to a blank, a comma or a parenthesis. -/
theorem CallSource.scans {own behind : List Char} {call : RuleCall} (h : CallSource own call)
    (hbehind : IsBlanks behind) {stop : Char} (hstop : stop = ',' ∨ stop = ')') (rest : List Char) :
    RuleScans own call (behind ++ stop :: rest) := by
  cases h with
  | bare hname =>
    refine ruleScans_slug hname fun c hc => ?_
    cases behind with
    | nil =>
      cases hc
      rcases hstop with rfl | rfl <;> decide
    | cons d behind =>
      cases hc
      exact continuesName_of_isAsciiBlank (hbehind c List.mem_cons_self)
  | applied hname h =>
    exact ruleScans_call hname (fun left => readArguments_eq_iff.2 ⟨_, by simp, h⟩) _

/-- The text of rules is read as the rules. -/
theorem RulesSource.readRules_eq {text : List Char} {calls : List RuleCall} (h : RulesSource text calls)
    (total last : Nat) (rest : List Char) :
    readRules last (scan total .rules (text ++ rest)) = .ok (calls, scan total .default rest) := by
  induction h with
  | @last front own behind call hfront hown hbehind =>
    have hsplit : front ++ (own ++ (behind ++ [')'])) ++ rest
        = front ++ (own ++ (behind ++ ')' :: rest)) := by simp
    rw [hsplit, scan_rules_blanks total hfront,
      (hown.scans hbehind (Or.inr rfl) rest).close hbehind rest (Or.inl rfl)]
  | @more front own behind more call calls hfront hown hbehind _ ih =>
    have hsplit : front ++ (own ++ (behind ++ ',' :: more)) ++ rest
        = front ++ (own ++ (behind ++ ',' :: (more ++ rest))) := by simp
    rw [hsplit, scan_rules_blanks total hfront,
      (hown.scans hbehind (Or.inl rfl) (more ++ rest)).comma hbehind (more ++ rest) (Or.inl rfl), ih]
    rfl

end

/-- A variable with a rule list is read as such. -/
theorem parse_rules {name text : List Char} {calls : List RuleCall} (hname : IsName name)
    (h : RulesSource text calls) :
    Tree.parse (String.ofList (':' :: (name ++ '(' :: text)))
      = .ok (.sequence [.variable (String.ofList name) calls none]) := by
  obtain ⟨last, hparse⟩ := exists_parse_eq (':' :: (name ++ '(' :: text))
  have hmore : ∀ c ∈ ('(' :: text).head?, continuesName c = false := by
    rintro _ ⟨⟩
    rfl
  have hrules := h.readRules_eq (byteLength (':' :: (name ++ '(' :: text))) last []
  rw [List.append_nil] at hrules
  rw [hparse, readSegments_variable hname hmore, scan_named_rules, readVariable, readRuleList, hrules]
  simp only [bind, Except.bind, pure, Except.pure]
  rw [scan_default_of_ne _ (by simp), readDefault_segments]
  simp only []
  rw [scan, readSegments]
  rfl

/-! ## Main statement -/

/-- A text that is accepted is one that the tree is read from, so each argument list in it is the text of
the arguments that its rule has. And rules are accepted whatever the gaps in their argument lists. -/
theorem readFrom_of_parse (raw : String) (tree : Tree) (name text : List Char) (calls : List RuleCall) :
    (Tree.parse raw = .ok tree →
        ∃ parts, tree = .sequence parts ∧ AllGrammatical maxNesting parts ∧ AllReadFrom parts raw.toList)
      ∧ (IsName name → RulesSource text calls →
        Tree.parse (String.ofList (':' :: (name ++ '(' :: text)))
          = .ok (.sequence [.variable (String.ofList name) calls none])) := by
  refine ⟨?_, parse_rules⟩
  intro h
  obtain ⟨parts, htree, hparts⟩ := grammatical_of_parse h
  obtain ⟨last, hparse⟩ := exists_parse_eq raw.toList
  rw [String.ofList_toList, h] at hparse
  obtain ⟨parts', htree', hread⟩ := exists_readFrom_of_readSegments hparse.symm (.whole .nil)
  obtain rfl := Tree.sequence.inj (htree.symm.trans htree')
  exact ⟨parts, htree, hparts, hread⟩

/-- A word and a text in quotes with a comma in it. -/
theorem readFrom_of_parse_quoted :
    Tree.parse ":x(in(a, \"b,c\"))"
        = .ok (.sequence [.variable "x" [⟨"in", [.string "a", .string "b,c"]⟩] none])
      ∧ AllReadFrom [.variable "x" [⟨"in", [.string "a", .string "b,c"]⟩] none]
        ":x(in(a, \"b,c\"))".toList := by
  have hname : IsName ['x'] := ⟨'x', [], rfl, rfl, rfl⟩
  have hslug : IsName ['i', 'n'] := ⟨'i', ['n'], rfl, rfl, rfl⟩
  have hword : IsWord ['a'] := ⟨⟨'a', rfl, rfl, by decide⟩, by simp [endsArgument]⟩
  have hquotes : Quotes ['b', ',', 'c'] ['b', ',', 'c'] :=
    .own (by decide) (by simp) (.own (by decide) (by simp) (.own (by decide) (by simp) .nil))
  have hcomma : IsGap [',', ' '] := by simp [IsGap, Text.isAsciiBlank]
  have hrules := RulesSource.last (List.forall_mem_nil _)
    (.applied hslug (.word isGap_nil hword (by simp) (.quoted hcomma hquotes (.nil isGap_nil))))
    (List.forall_mem_nil _)
  have hparse := (readFrom_of_parse "" (.sequence []) _ _ _).2 hname hrules
  refine ⟨hparse, ?_⟩
  obtain ⟨parts, htree, -, hread⟩ := (readFrom_of_parse _ _ [] [] []).1 hparse
  cases htree
  exact hread

/-- Commas may be missing behind quotes, and stand twice, at the start and at the end. -/
theorem parse_stray_commas :
    Tree.parse ":x(in(\"a\"\"b\"))"
        = .ok (.sequence [.variable "x" [⟨"in", [.string "a", .string "b"]⟩] none])
      ∧ Tree.parse ":x(in(a,,b))"
        = .ok (.sequence [.variable "x" [⟨"in", [.string "a", .string "b"]⟩] none])
      ∧ Tree.parse ":x(in(,a,b))"
        = .ok (.sequence [.variable "x" [⟨"in", [.string "a", .string "b"]⟩] none])
      ∧ Tree.parse ":x(in(a,b,))"
        = .ok (.sequence [.variable "x" [⟨"in", [.string "a", .string "b"]⟩] none]) := by
  refine ⟨?_, ?_, ?_, ?_⟩
  all_goals
    cbv
    exact eq_of_bind_read (by cbv)

end Template

end UriRouting
