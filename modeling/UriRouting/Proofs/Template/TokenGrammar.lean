import UriRouting.Proofs.Template.Written
/-!
# The grammar of tokens

Which lists of tokens are read as which trees, said without the reader: rules between commas,
variables with their rules and their default, optional segments in brackets, and literal texts, each
as long as it can be. The tokens may come from a text or from anywhere else; what stands behind a
token that marks the end does not count.

* `CallForm`, `RulesForm`, `RuleListForm`, `DefaultForm`, `VariableForm` and `PartsForm` are the
  grammar;
* `Reached` says how the open segments of the reader stand for the tokens that it has read;
* `ofLexemes_eq_ok_iff` is the main statement: the reader accepts just what the grammar derives, and
  gives the one tree that it derives.
-/

namespace UriRouting

open UriRouting.Tree

/-! ## Tokens -/

namespace Token

/-- The text of a token that is literal text between variables and brackets. -/
def literalText? : Token → Option String
  | .text run => some run
  | .slash => some "/"
  | _ => none

/-- Whether a token marks the end of a template. -/
def isFinish : Token → Bool
  | .finish => true
  | _ => false

/-- A token that would belong to a variable in front of it. -/
def Attaches : Token → Prop
  | .rulesOpen => True
  | .equals => True
  | _ => False

theorem not_attaches_of_literalText? {token : Token} {text : String}
    (h : token.literalText? = some text) : ¬ token.Attaches := by
  cases token with
  | text => exact id
  | slash => exact id
  | _ => cases h

end Token

namespace Template

/-- The tokens in front of the first that marks the end. -/
def content (ts : List Lexeme) : List Token :=
  (ts.map (·.token)).takeWhile (!·.isFinish)

/-! ## Grammar -/

/-- The tokens of a rule: its name, and perhaps a list of arguments. -/
inductive CallForm : List Token → RuleCall → Prop where
  /-- A rule without a list has no arguments. -/
  | bare (slug : String) : CallForm [.identifier slug] ⟨slug, []⟩
  /-- A rule has the arguments of its list. -/
  | applied (slug : String) (values : List Value) :
      CallForm [.identifier slug, .arguments values] ⟨slug, values⟩

/-- The tokens of rules with a comma between two of them, and of the parenthesis behind. -/
inductive RulesForm : List Token → List RuleCall → Prop where
  /-- The last rule. -/
  | last {ts : List Token} {call : RuleCall} (h : CallForm ts call) :
      RulesForm (ts ++ [.rulesClose]) [call]
  /-- A rule in front of others. -/
  | more {ts rest : List Token} {call : RuleCall} {calls : List RuleCall} (h : CallForm ts call)
      (hrest : RulesForm rest calls) : RulesForm (ts ++ .comma :: rest) (call :: calls)

/-- The tokens of a rule list, if there is one. -/
inductive RuleListForm : List Token → List RuleCall → Prop where
  /-- Without a list there are no rules. -/
  | absent : RuleListForm [] []
  /-- A list holds a rule. -/
  | given {ts : List Token} {calls : List RuleCall} (h : RulesForm ts calls) :
      RuleListForm (.rulesOpen :: ts) calls

/-- The tokens of a default, if there is one. -/
inductive DefaultForm : List Token → Option String → Prop where
  /-- Without a sign there is no default. -/
  | absent : DefaultForm [] none
  /-- The text behind the sign is the default. -/
  | given (text : String) : DefaultForm [.equals, .text text] (some text)

/-- The tokens of a variable. -/
inductive VariableForm : List Token → Tree → Prop where
  /-- A name, then the rules, then the default. -/
  | intro (name : String) {rules behind : List Token} {calls : List RuleCall}
      {default : Option String} (hrules : RuleListForm rules calls)
      (hdefault : DefaultForm behind default) :
      VariableForm (.variableOpen :: .identifier name :: (rules ++ behind))
        (.variable name calls default)

/-- The tokens of parts one after another, in which no more than the given number of optional
segments are nested. -/
inductive PartsForm : Nat → List Token → List Tree → Prop where
  /-- No parts. -/
  | nil {depth : Nat} : PartsForm depth [] []
  /-- A literal is all the text and all the slashes up to the next part. -/
  | literal {depth : Nat} {ts run : List Token} {parts : List Tree} {texts : List String}
      (h : PartsForm depth ts parts) (hlast : ∀ own, parts.getLast? ≠ some (.literal own))
      (hne : texts ≠ []) (hrun : run.map Token.literalText? = texts.map some) :
      PartsForm depth (ts ++ run) (parts ++ [.literal (String.join texts)])
  /-- A variable. -/
  | variable {depth : Nat} {ts own : List Token} {parts : List Tree} {part : Tree}
      (h : PartsForm depth ts parts) (hpart : VariableForm own part) :
      PartsForm depth (ts ++ own) (parts ++ [part])
  /-- An optional segment holds parts in brackets, of which there is one at least. -/
  | optional {depth : Nat} {ts own : List Token} {parts inner : List Tree}
      (h : PartsForm (depth + 1) ts parts) (hinner : PartsForm depth own inner) (hne : inner ≠ []) :
      PartsForm (depth + 1) (ts ++ .optionalOpen :: (own ++ [.optionalClose]))
        (parts ++ [.optional inner])

end Template

namespace Tree

/-- Two parts that can stand side by side: no two literals do. -/
def Apart : Tree → Tree → Prop
  | .literal _, .literal _ => False
  | _, _ => True

/-- A part in which every optional segment is filled and no two literals stand side by side. -/
inductive Merged : Tree → Prop where
  /-- A literal. -/
  | literal (own : String) : Merged (.literal own)
  /-- A variable. -/
  | variable (name : String) (calls : List RuleCall) (default : Option String) :
      Merged (.variable name calls default)
  /-- An optional segment. -/
  | optional {parts : List Tree} (hne : parts ≠ []) (h : ∀ part ∈ parts, Merged part)
      (hchain : parts.IsChain Apart) : Merged (.optional parts)

end Tree

namespace Template

/-! ## What is derived -/

theorem VariableForm.exists_eq {ts : List Token} {tree : Tree} (h : VariableForm ts tree) :
    ∃ name calls default, tree = .variable name calls default := by
  cases h with
  | intro name => exact ⟨name, _, _, rfl⟩

/-- Derived parts have filled optional segments, and no two literals stand side by side. -/
theorem PartsForm.merged {depth : Nat} {ts : List Token} {parts : List Tree}
    (h : PartsForm depth ts parts) : (∀ part ∈ parts, part.Merged) ∧ parts.IsChain Apart := by
  have hsnoc : ∀ {parts : List Tree} {part : Tree},
      ((∀ part ∈ parts, part.Merged) ∧ parts.IsChain Apart) → part.Merged →
      (∀ before ∈ parts.getLast?, Apart before part) →
      (∀ part' ∈ parts ++ [part], part'.Merged) ∧ (parts ++ [part]).IsChain Apart := by
    rintro parts part ⟨hparts, hchain⟩ hpart hapart
    refine ⟨List.forall_mem_append.2 ⟨hparts, List.forall_mem_singleton.2 hpart⟩, ?_⟩
    refine List.isChain_append.2 ⟨hchain, List.isChain_singleton _, ?_⟩
    rintro before hbefore _ ⟨⟩
    exact hapart before hbefore
  induction h with
  | nil => exact ⟨List.forall_mem_nil _, List.isChain_nil⟩
  | literal _ hlast _ _ ih =>
    refine hsnoc ih (.literal _) ?_
    intro before hbefore
    cases before with
    | literal own => exact hlast own hbefore
    | _ => trivial
  | «variable» _ hpart ih =>
    obtain ⟨name, calls, default, rfl⟩ := hpart.exists_eq
    refine hsnoc ih (.variable name calls default) ?_
    intro before _
    cases before <;> trivial
  | optional _ _ hne ih ihinner =>
    refine hsnoc ih (.optional hne ihinner.1 ihinner.2) ?_
    intro before _
    cases before <;> trivial

/-- Parts whose last one is a literal end with the tokens of that literal. -/
theorem PartsForm.of_literal {depth : Nat} {ts : List Token} {parts : List Tree} {own : String}
    (h : PartsForm depth ts (parts ++ [.literal own])) :
    ∃ ts' run texts, ts = ts' ++ run ∧ own = String.join texts ∧ PartsForm depth ts' parts
      ∧ (∀ before, parts.getLast? ≠ some (.literal before))
      ∧ run.map Token.literalText? = texts.map some := by
  generalize hall : parts ++ [.literal own] = all at h
  cases h with
  | nil => simp at hall
  | literal h hlast _ hrun =>
    obtain ⟨rfl, heq⟩ := List.append_inj' hall rfl
    cases heq
    exact ⟨_, _, _, rfl, rfl, h, hlast, hrun⟩
  | «variable» _ hpart =>
    obtain ⟨_, _, _, rfl⟩ := hpart.exists_eq
    cases (List.append_inj' hall rfl).2
  | optional => cases (List.append_inj' hall rfl).2

/-! ## The content of a list of tokens -/

theorem content_cons {token : Token} (h : token.isFinish = false) (position : Nat)
    (rest : List Lexeme) : content (⟨token, position⟩ :: rest) = token :: content rest := by
  rw [content, List.map_cons, List.takeWhile_cons_of_pos (by simp [h]), ← content]

/-- Behind the content of a list of tokens there is nothing, or a token that marks the end. -/
theorem exists_eq_content_append (ts : List Lexeme) :
    ∃ own rest, ts = own ++ rest ∧ own.map (·.token) = content ts
      ∧ ∀ lexeme ∈ rest.head?, lexeme.token = .finish := by
  induction ts with
  | nil => exact ⟨[], [], rfl, rfl, by simp⟩
  | cons lexeme ts ih =>
    obtain ⟨own, rest, hts, hown, hrest⟩ := ih
    cases htoken : lexeme.token with
    | finish =>
      refine ⟨[], lexeme :: ts, rfl, ?_, ?_⟩
      · rw [content, List.map_cons, htoken]
        rfl
      · rintro _ ⟨⟩
        exact htoken
    | _ =>
      refine ⟨lexeme :: own, rest, by rw [hts, List.cons_append], ?_, hrest⟩
      rw [List.map_cons, hown, show lexeme = ⟨lexeme.token, lexeme.position⟩ from rfl,
        content_cons (by rw [htoken]; rfl)]

/-! ## What is read is derived -/

section

variable {last : Nat}

theorem exists_of_takeArguments (slug : String) (position : Nat) (ts : List Lexeme) :
    ∃ own, CallForm own ⟨slug, (takeArguments ts).1⟩
      ∧ content (⟨.identifier slug, position⟩ :: ts) = own ++ content (takeArguments ts).2 := by
  fun_cases takeArguments ts with
  | case1 values place rest =>
    refine ⟨_, .applied slug values, ?_⟩
    rw [content_cons rfl, content_cons rfl]
    rfl
  | case2 =>
    refine ⟨_, .bare slug, ?_⟩
    rw [content_cons rfl]
    rfl

/-- Rules that are read are derived from the tokens that are taken for them. -/
theorem exists_of_readRules {ts left : List Lexeme} {calls : List RuleCall}
    (h : readRules last ts = .ok (calls, left)) :
    ∃ own, RulesForm own calls ∧ content ts = own ++ content left := by
  fun_induction readRules last ts generalizing calls left with
  | case1 =>
    rename_i hmore calls' left' hread ih
    cases h
    obtain ⟨own, hown, hrest⟩ := ih hread
    obtain ⟨first, hfirst, hcontent⟩ := exists_of_takeArguments _ _ _
    refine ⟨_, .more hfirst hown, ?_⟩
    rw [hcontent, hmore, content_cons rfl, hrest, List.append_assoc, List.cons_append]
  | case2 => cases h
  | case3 =>
    rename_i hmore
    cases h
    obtain ⟨first, hfirst, hcontent⟩ := exists_of_takeArguments _ _ _
    refine ⟨_, .last hfirst, ?_⟩
    rw [hcontent, hmore, content_cons rfl, List.append_assoc, List.singleton_append]
  | case4 => cases h
  | case5 => cases h

theorem exists_of_readRuleList {ts left : List Lexeme} {calls : List RuleCall}
    (h : readRuleList last ts = .ok (calls, left)) :
    ∃ own, RuleListForm own calls ∧ content ts = own ++ content left := by
  fun_cases readRuleList last ts with
  | case1 position rest =>
    obtain ⟨own, hown, hrest⟩ := exists_of_readRules h
    exact ⟨_, .given hown, by rw [content_cons rfl, hrest, List.cons_append]⟩
  | case2 =>
    simp only [readRuleList, Except.ok.injEq, Prod.mk.injEq] at h
    obtain ⟨rfl, rfl⟩ := h
    exact ⟨[], .absent, rfl⟩

theorem exists_of_readDefault {ts left : List Lexeme} {default : Option String}
    (h : readDefault last ts = .ok (default, left)) :
    ∃ own, DefaultForm own default ∧ content ts = own ++ content left := by
  fun_cases readDefault last ts with
  | case1 =>
    cases h
    exact ⟨_, .given _, by rw [content_cons rfl, content_cons rfl]; rfl⟩
  | case2 => simp_all [readDefault]
  | case3 =>
    simp only [readDefault, Except.ok.injEq, Prod.mk.injEq] at h
    obtain ⟨rfl, rfl⟩ := h
    exact ⟨[], .absent, rfl⟩

/-- A variable that is read is derived from the tokens that are taken for it. -/
theorem exists_of_readVariable {ts left : List Lexeme} {tree : Tree}
    (h : readVariable last ts = .ok (tree, left)) :
    ∃ own, VariableForm (.variableOpen :: own) tree ∧ content ts = own ++ content left := by
  fun_cases readVariable last ts with
  | case1 name position rest =>
    simp only [readVariable, bind, Except.bind, pure, Except.pure] at h
    split at h
    · cases h
    rename_i listed hlist
    split at h
    · cases h
    rename_i defaulted hdefault
    cases h
    obtain ⟨rules, hrules, hrest⟩ := exists_of_readRuleList hlist
    obtain ⟨behind, hbehind, hleft⟩ := exists_of_readDefault hdefault
    refine ⟨_, .intro name hrules hbehind, ?_⟩
    rw [content_cons rfl, hrest, hleft, List.cons_append, List.append_assoc]
  | case2 => simp_all [readVariable]

end

/-- What the open segments of the reader, and the parts read inside the innermost one, stand for. -/
inductive Reached : List OpenSegment → List Tree → List Token → Prop where
  /-- No segment is open. -/
  | whole {parts : List Tree} {ts : List Token} (h : PartsForm maxNesting ts parts.reverse) :
      Reached [] parts ts
  /-- A segment is open behind the parts in front of it. -/
  | inside {segment : OpenSegment} {outer : List OpenSegment} {parts : List Tree}
      {ts own : List Token} (houter : Reached outer segment.before ts)
      (hlt : outer.length < maxNesting)
      (h : PartsForm (maxNesting - (outer.length + 1)) own parts.reverse) :
      Reached (segment :: outer) parts (ts ++ .optionalOpen :: own)

/-- The parts read inside the innermost open segment are derived from the tokens behind its bracket,
and more parts go on in the same way. -/
theorem Reached.extend {segments : List OpenSegment} {parts parts' : List Tree}
    {ts more : List Token} (h : Reached segments parts ts)
    (hmore : ∀ own, PartsForm (maxNesting - segments.length) own parts.reverse →
      PartsForm (maxNesting - segments.length) (own ++ more) parts'.reverse) :
    Reached segments parts' (ts ++ more) := by
  cases h with
  | whole h => exact .whole (hmore _ h)
  | inside houter hlt h =>
    rw [List.append_assoc, List.cons_append]
    exact .inside houter hlt (hmore _ h)

/-- The bracket behind the innermost open segment makes a part of it. -/
theorem Reached.close {segment : OpenSegment} {outer : List OpenSegment} {parts : List Tree}
    {ts : List Token} (h : Reached (segment :: outer) parts ts) (hne : parts ≠ []) :
    Reached outer (.optional parts.reverse :: segment.before) (ts ++ [.optionalClose]) := by
  cases h with
  | @inside _ _ _ ts own houter hlt hown =>
    rw [List.append_assoc, List.cons_append]
    refine houter.extend fun before hbefore => ?_
    rw [show maxNesting - outer.length = maxNesting - (outer.length + 1) + 1 by omega]
      at hbefore ⊢
    rw [List.reverse_cons]
    exact .optional hbefore hown (by simpa using hne)

/-- Literal text goes on the literal in front of it, or starts one. -/
theorem PartsForm.addLiteral {depth : Nat} {ts : List Token} {parts : List Tree} {token : Token}
    {text : String} (htoken : token.literalText? = some text)
    (h : PartsForm depth ts parts.reverse) :
    PartsForm depth (ts ++ [token]) (addLiteral text parts).reverse := by
  fun_cases Template.addLiteral text parts with
  | case1 before parts =>
    rw [List.reverse_cons] at h ⊢
    obtain ⟨ts', run, texts, rfl, rfl, h', hlast, hrun⟩ := h.of_literal
    have hjoin : String.join texts ++ text = String.join (texts ++ [text]) := by simp
    rw [List.append_assoc, hjoin]
    exact .literal h' hlast (by simp) (by simp [hrun, htoken])
  | case2 parts hother =>
    rw [List.reverse_cons, show text = String.join [text] by simp]
    refine .literal h ?_ (by simp) (by simp [htoken])
    intro own hown
    rw [List.getLast?_reverse] at hown
    obtain ⟨parts', rfl⟩ := List.head?_eq_some_iff.1 hown
    exact hother own parts' rfl

/-- What is read behind a derived part of a template is derived with it. -/
theorem exists_partsForm_of_readSegments {last : Nat} {segments : List OpenSegment}
    {parts : List Tree} {ts : List Lexeme} {tree : Tree} {before : List Token}
    (h : readSegments last segments parts ts = .ok tree)
    (hreached : Reached segments parts before) :
    ∃ parts, tree = .sequence parts ∧ PartsForm maxNesting (before ++ content ts) parts := by
  -- along the reader; the tokens that it has taken so far are `before`
  fun_induction readSegments last segments parts ts generalizing before with
  | case1 segments parts | case2 segments parts =>
    cases hreached with
    | whole hparts =>
      cases h
      exact ⟨_, rfl, (List.append_nil before).symm ▸ hparts⟩
    | inside => cases h
  | case3 segments parts text position rest ih =>
    rw [content_cons rfl, List.append_cons]
    exact ih h (hreached.extend fun _ => .addLiteral rfl)
  | case4 segments parts position rest ih =>
    rw [content_cons rfl, List.append_cons]
    exact ih h (hreached.extend fun _ => .addLiteral rfl)
  | case5 segments parts position rest tree left hread ih =>
    simp only at h
    split at h
    · rename_i hread'
      rw [hread] at hread'
      cases hread'
      obtain ⟨own, hown, hrest⟩ := exists_of_readVariable hread
      rw [content_cons rfl, hrest, ← List.cons_append, ← List.append_assoc]
      refine ih h (hreached.extend fun _ hparts => ?_)
      rw [List.reverse_cons]
      exact .variable hparts hown
    · cases h
  | case6 segments parts position rest fault hread =>
    simp only at h
    split at h
    · rename_i hread'
      rw [hread] at hread'
      cases hread'
    · cases h
  | case7 segments parts position rest hlt ih =>
    simp only [hlt, if_true] at h
    rw [content_cons rfl, List.append_cons]
    exact ih h (.inside hreached hlt .nil)
  | case8 segments parts position rest hlt =>
    simp only [hlt, if_false] at h
    cases h
  | case9 => cases h
  | case10 => cases h
  | case11 position rest segment outer parts hparts ih =>
    rw [List.unattach_reverse, List.unattach_attach] at ih
    rw [content_cons rfl, List.append_cons]
    exact ih (by simpa using h) (hreached.close hparts)
  | case12 => simp_all

/-! ## What is derived is read -/

/-- No token of the rest belongs to a variable in front of it. -/
def Detached (rest : List Lexeme) : Prop :=
  ∀ lexeme ∈ rest.head?, ¬ lexeme.token.Attaches

theorem detached_cons {token : Token} (h : ¬ token.Attaches) (position : Nat) (rest : List Lexeme) :
    Detached (⟨token, position⟩ :: rest) := by
  rintro _ ⟨⟩
  exact h

section

variable {last : Nat}

/-- A derived rule is its name with its arguments behind, up to the next comma or parenthesis. -/
theorem exists_cons_of_callForm {ts : List Token} {call : RuleCall} (h : CallForm ts call)
    {own : List Lexeme} (hown : own.map (·.token) = ts) :
    ∃ position more, own = ⟨.identifier call.slug, position⟩ :: more
      ∧ ∀ rest, takeArguments rest = ([], rest) →
        takeArguments (more ++ rest) = (call.arguments, rest) := by
  cases h with
  | bare slug =>
    obtain ⟨⟨_, position⟩, more, rfl, rfl, hmore⟩ := List.map_eq_cons_iff.1 hown
    obtain rfl := List.map_eq_nil_iff.1 hmore
    exact ⟨position, [], rfl, fun _ hrest => hrest⟩
  | applied slug values =>
    obtain ⟨⟨_, position⟩, more, rfl, rfl, hmore⟩ := List.map_eq_cons_iff.1 hown
    obtain ⟨⟨_, place⟩, behind, rfl, rfl, hbehind⟩ := List.map_eq_cons_iff.1 hmore
    obtain rfl := List.map_eq_nil_iff.1 hbehind
    exact ⟨position, _, rfl, fun _ _ => rfl⟩

/-- Derived rules are read. -/
theorem readRules_append {ts : List Token} {calls : List RuleCall} (h : RulesForm ts calls)
    {own : List Lexeme} (hown : own.map (·.token) = ts) (rest : List Lexeme) :
    readRules last (own ++ rest) = .ok (calls, rest) := by
  induction h generalizing own with
  | last hcall =>
    obtain ⟨first, behind, rfl, hfirst, hbehind⟩ := List.map_eq_append_iff.1 hown
    obtain ⟨⟨_, place⟩, behind, rfl, rfl, hnil⟩ := List.map_eq_cons_iff.1 hbehind
    obtain rfl := List.map_eq_nil_iff.1 hnil
    obtain ⟨position, more, rfl, htake⟩ := exists_cons_of_callForm hcall hfirst
    rw [List.append_assoc, List.cons_append, readRules, htake _ rfl]
    rfl
  | more hcall _ ih =>
    obtain ⟨first, behind, rfl, hfirst, hbehind⟩ := List.map_eq_append_iff.1 hown
    obtain ⟨⟨_, place⟩, behind, rfl, rfl, hmore⟩ := List.map_eq_cons_iff.1 hbehind
    obtain ⟨position, more, rfl, htake⟩ := exists_cons_of_callForm hcall hfirst
    rw [List.append_assoc, List.cons_append, readRules, htake _ rfl]
    simp only [List.cons_append, ih hmore]

theorem readRuleList_append (last : Nat) {ts : List Token} {calls : List RuleCall}
    (h : RuleListForm ts calls) {own : List Lexeme} (hown : own.map (·.token) = ts)
    {rest : List Lexeme} (hrest : ∀ lexeme ∈ rest.head?, lexeme.token ≠ .rulesOpen) :
    readRuleList last (own ++ rest) = .ok (calls, rest) := by
  cases h with
  | absent =>
    obtain rfl := List.map_eq_nil_iff.1 hown
    fun_cases readRuleList last rest with
    | case1 => exact absurd rfl (hrest _ rfl)
    | case2 => rfl
  | given h =>
    obtain ⟨⟨_, position⟩, more, rfl, rfl, hmore⟩ := List.map_eq_cons_iff.1 hown
    exact readRules_append h hmore rest

theorem readDefault_append {ts : List Token} {default : Option String} (h : DefaultForm ts default)
    {own : List Lexeme} (hown : own.map (·.token) = ts) {rest : List Lexeme}
    (hrest : Detached rest) : readDefault last (own ++ rest) = .ok (default, rest) := by
  cases h with
  | absent =>
    obtain rfl := List.map_eq_nil_iff.1 hown
    rw [List.nil_append]
    fun_cases readDefault last rest with
    | case1 | case2 => exact (hrest _ rfl trivial).elim
    | case3 => rfl
  | given text =>
    obtain ⟨⟨_, position⟩, more, rfl, rfl, hmore⟩ := List.map_eq_cons_iff.1 hown
    obtain ⟨⟨_, place⟩, behind, rfl, rfl, hnil⟩ := List.map_eq_cons_iff.1 hmore
    obtain rfl := List.map_eq_nil_iff.1 hnil
    rfl

/-- A default and what follows it do not start with the rules of the variable. -/
theorem head?_ne_rulesOpen {ts : List Token} {default : Option String} (h : DefaultForm ts default)
    {own : List Lexeme} (hown : own.map (·.token) = ts) {rest : List Lexeme}
    (hrest : Detached rest) : ∀ lexeme ∈ (own ++ rest).head?, lexeme.token ≠ .rulesOpen := by
  intro lexeme hlexeme heq
  cases h with
  | absent =>
    obtain rfl := List.map_eq_nil_iff.1 hown
    exact hrest lexeme hlexeme (by rw [heq]; trivial)
  | given text =>
    obtain ⟨⟨_, position⟩, more, rfl, rfl, -⟩ := List.map_eq_cons_iff.1 hown
    cases hlexeme
    cases heq

/-- A derived variable is read, if what follows does not belong to it. -/
theorem readVariable_append (last : Nat) {ts : List Token} {tree : Tree} (h : VariableForm ts tree)
    {own : List Lexeme} (hown : own.map (·.token) = ts) {rest : List Lexeme}
    (hrest : Detached rest) :
    ∃ position more, own = ⟨.variableOpen, position⟩ :: more
      ∧ readVariable last (more ++ rest) = .ok (tree, rest) := by
  obtain ⟨name, hrules, hdefault⟩ := h
  obtain ⟨⟨_, position⟩, named, rfl, rfl, hnamed⟩ := List.map_eq_cons_iff.1 hown
  obtain ⟨⟨_, place⟩, more, rfl, rfl, hmore⟩ := List.map_eq_cons_iff.1 hnamed
  obtain ⟨rules, behind, rfl, hrulesTokens, hbehind⟩ := List.map_eq_append_iff.1 hmore
  have hlist := readRuleList_append last hrules hrulesTokens
    (head?_ne_rulesOpen hdefault hbehind hrest)
  refine ⟨position, _, rfl, ?_⟩
  rw [List.cons_append, List.append_assoc]
  simp only [readVariable, hlist, readDefault_append hdefault hbehind hrest, bind, Except.bind,
    pure, Except.pure]

/-- A run of literal text is read as one text. -/
theorem readSegments_run {segments : List OpenSegment} {texts : List String} (hne : texts ≠ [])
    {run : List Lexeme} (hrun : run.map (·.token.literalText?) = texts.map some)
    (parts : List Tree) (rest : List Lexeme) :
    readSegments last segments parts (run ++ rest)
      = readSegments last segments (addLiteral (String.join texts) parts) rest := by
  induction texts generalizing run parts with
  | nil => exact absurd rfl hne
  | cons text texts ih =>
    obtain ⟨⟨token, position⟩, run, rfl, htoken, hrun⟩ := List.map_eq_cons_iff.1 hrun
    have hfirst : readSegments last segments parts (⟨token, position⟩ :: (run ++ rest))
        = readSegments last segments (addLiteral text parts) (run ++ rest) := by
      cases token with
      | text own => cases htoken; rw [readSegments]
      | slash => cases htoken; rw [readSegments]
      | _ => cases htoken
    rw [List.cons_append, hfirst]
    cases texts with
    | nil =>
      obtain rfl := List.map_eq_nil_iff.1 hrun
      simp
    | cons next texts =>
      rw [ih (List.cons_ne_nil _ _) hrun, addLiteral_addLiteral]
      simp

/-- A literal behind a part of another kind stands for itself. -/
theorem addLiteral_of_apart {own : String} {parts : List Tree}
    (h : ∀ before ∈ parts.head?, Apart before (.literal own)) :
    addLiteral own parts = .literal own :: parts := by
  fun_cases addLiteral own parts with
  | case1 before parts => exact (h _ rfl).elim
  | case2 => rfl

/-- In front of a new literal stands the last of the new parts, or else the last old part. -/
theorem apart_head?_reverse_append {new parts : List Tree} {text : String}
    (hlast : ∀ own, new.getLast? ≠ some (.literal own))
    (hparts : ∀ before ∈ parts.head?, new = [] → Apart before (.literal text)) :
    ∀ before ∈ (new.reverse ++ parts).head?, Apart before (.literal text) := by
  intro before hmem
  cases hreverse : new.reverse with
  | nil =>
    rw [hreverse, List.nil_append] at hmem
    exact hparts before hmem (List.reverse_eq_nil_iff.1 hreverse)
  | cons part others =>
    rw [hreverse, List.cons_append, List.head?_cons] at hmem
    obtain rfl := Option.some.inj hmem
    cases part with
    | literal own =>
      refine absurd ?_ (hlast own)
      rw [← List.head?_reverse, hreverse, List.head?_cons]
    | _ => trivial

/-- What can stand in front of parts can stand in front of the first few of them. -/
theorem apart_head?_of_append {parts new more : List Tree}
    (h : ∀ before ∈ parts.head?, ∀ part ∈ (new ++ more).head?, Apart before part) :
    ∀ before ∈ parts.head?, ∀ part ∈ new.head?, Apart before part :=
  fun before hbefore part hpart => h before hbefore part (List.mem_head?_append_of_mem_head? hpart)

/-- Derived parts are read, if what follows does not belong to them. -/
theorem readSegments_append {depth : Nat} {ts : List Token} {new : List Tree}
    (h : PartsForm depth ts new) {segments : List OpenSegment}
    (hdepth : segments.length + depth ≤ maxNesting) {parts : List Tree}
    (hparts : ∀ before ∈ parts.head?, ∀ part ∈ new.head?, Apart before part)
    {own rest : List Lexeme} (hown : own.map (·.token) = ts) (hrest : Detached rest) :
    readSegments last segments parts (own ++ rest)
      = readSegments last segments (new.reverse ++ parts) rest := by
  -- parts are derived from the front, so what is read behind the first of them is the new rest
  induction h generalizing segments parts own rest with
  | nil =>
    obtain rfl := List.map_eq_nil_iff.1 hown
    rfl
  | @literal depth ts run new texts h hlast hne hrun ih =>
    obtain ⟨first, behind, rfl, hfirst, hbehind⟩ := List.map_eq_append_iff.1 hown
    have htexts : behind.map (·.token.literalText?) = texts.map some := by
      rw [← hrun, ← hbehind, List.map_map]
      rfl
    have hdetached : Detached (behind ++ rest) := by
      obtain ⟨text, texts, rfl⟩ := List.exists_cons_of_ne_nil hne
      obtain ⟨⟨token, position⟩, behind, rfl, htoken, -⟩ := List.map_eq_cons_iff.1 htexts
      exact detached_cons (Token.not_attaches_of_literalText? htoken) position _
    have hbefore := apart_head?_reverse_append hlast (fun before hmem hnil => by
      subst hnil
      exact hparts before hmem (.literal (String.join texts)) rfl)
    rw [List.append_assoc, ih hdepth (apart_head?_of_append hparts) hfirst hdetached,
      readSegments_run hne htexts, addLiteral_of_apart hbefore, List.reverse_append]
    rfl
  | @«variable» depth ts named new part h hpart ih =>
    obtain ⟨first, behind, rfl, hfirst, hbehind⟩ := List.map_eq_append_iff.1 hown
    obtain ⟨position, more, rfl, hread⟩ := readVariable_append last hpart hbehind hrest
    rw [List.append_assoc, List.cons_append, ih hdepth (apart_head?_of_append hparts) hfirst
      (@detached_cons .variableOpen id position _), readSegments, hread, List.reverse_append]
    rfl
  | @optional depth ts inside new inner h hinner hne ih ihinner =>
    obtain ⟨first, behind, rfl, hfirst, hbehind⟩ := List.map_eq_append_iff.1 hown
    obtain ⟨⟨_, position⟩, behind, rfl, rfl, hinside⟩ := List.map_eq_cons_iff.1 hbehind
    obtain ⟨middle, close, rfl, hmiddle, hclose⟩ := List.map_eq_append_iff.1 hinside
    obtain ⟨⟨_, place⟩, close, rfl, rfl, hnil⟩ := List.map_eq_cons_iff.1 hclose
    obtain rfl := List.map_eq_nil_iff.1 hnil
    have hread := @ihinner (⟨position, new.reverse ++ parts⟩ :: segments)
      (by simp only [List.length_cons]; omega) [] (by simp) _ _ hmiddle
      (@detached_cons .optionalClose id place rest)
    rw [List.append_assoc, List.cons_append, List.append_assoc, List.singleton_append,
      ih hdepth (apart_head?_of_append hparts) hfirst (@detached_cons .optionalOpen id position _),
      readSegments, if_pos (by omega), hread, List.append_nil, readSegments]
    · simp
    · exact mt List.reverse_eq_nil_iff.1 hne

/-- At the end the parts are the whole template, if no segment is open. -/
theorem readSegments_of_finish {parts : List Tree} {rest : List Lexeme}
    (hrest : ∀ lexeme ∈ rest.head?, lexeme.token = .finish) :
    readSegments last [] parts rest = .ok (.sequence parts.reverse) := by
  cases rest with
  | nil => rw [readSegments]
  | cons lexeme rest =>
    obtain ⟨token, position⟩ := lexeme
    cases hrest _ rfl
    rw [readSegments]

end

/-! ## Main statement -/

/-- The reader accepts a list of tokens just when the tokens in front of the first that marks the
end derive parts of a template, and its tree is the sequence of these parts. There is only one way
to derive parts; every optional segment among them is filled, and no two literals stand side by
side. -/
theorem ofLexemes_eq_ok_iff (ts : List Lexeme) :
    (∀ tree, Tree.ofLexemes ts = .ok tree
      ↔ ∃ parts, tree = .sequence parts ∧ PartsForm maxNesting (content ts) parts)
    ∧ (∀ parts parts', PartsForm maxNesting (content ts) parts →
        PartsForm maxNesting (content ts) parts' → parts = parts')
    ∧ ∀ parts, PartsForm maxNesting (content ts) parts →
        (∀ part ∈ parts, part.Merged) ∧ parts.IsChain Apart := by
  have hread : ∀ {parts}, PartsForm maxNesting (content ts) parts →
      Tree.ofLexemes ts = .ok (.sequence parts) := by
    intro parts h
    obtain ⟨own, rest, hts, hown, hrest⟩ := exists_eq_content_append ts
    have hdetached : Detached rest := by
      intro lexeme hlexeme
      rw [hrest lexeme hlexeme]
      exact id
    rw [Tree.ofLexemes]
    nth_rewrite 2 [hts]
    rw [readSegments_append h (by simp) (by simp) hown hdetached, List.append_nil]
    rw [readSegments_of_finish hrest, List.reverse_reverse]
  refine ⟨fun tree => ⟨fun h => ?_, ?_⟩, fun parts parts' h h' => ?_, fun parts h => h.merged⟩
  · exact exists_partsForm_of_readSegments h (.whole .nil)
  · rintro ⟨parts, rfl, h⟩
    exact hread h
  · cases (hread h).symm.trans (hread h')
    rfl

/-- A text behind a default starts a literal, and a bracket behind the end does not count. -/
theorem ofLexemes_default_text :
    Tree.ofLexemes [⟨.slash, 0⟩, ⟨.text "a", 1⟩, ⟨.variableOpen, 2⟩, ⟨.identifier "n", 3⟩,
        ⟨.equals, 4⟩, ⟨.text "0", 5⟩, ⟨.text "b", 6⟩, ⟨.slash, 7⟩, ⟨.finish, 8⟩,
        ⟨.optionalClose, 9⟩]
      = .ok (.sequence [.literal "/a", .variable "n" [] (some "0"), .literal "b/"]) := by
  refine ((ofLexemes_eq_ok_iff _).1 _).2 ⟨_, rfl, ?_⟩
  have hfirst : PartsForm maxNesting [.slash, .text "a"] [.literal "/a"] :=
    @PartsForm.literal _ _ _ _ ["/", "a"] .nil (by simp) (by simp) rfl
  have hvariable := hfirst.variable (.intro "n" .absent (.given "0"))
  exact @PartsForm.literal _ _ _ _ ["b", "/"] hvariable (by simp) (by simp) rfl

end Template

end UriRouting
