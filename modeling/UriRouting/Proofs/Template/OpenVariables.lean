import UriRouting.Proofs.Template.OpenArguments
/-!
# Variables that are cut off

What stands behind the name of a variable is read from the left as well. It is a rule list or none, and
a default or none. Where that breaks off, it could still be completed, and the character that stands
there rules out everything behind it.

* `StopsAt` says that a reader of tokens fails at a place of the text, whatever follows its first
  character;
* `RulesRead` and `rulesRead` are about the rules of a rule list;
* `Outcome` says the same of a reader between two modes, and `outcome_readVariable` of what stands behind
  a name.
-/

namespace UriRouting

open UriRouting.Tree UriRouting.Template

namespace Template

/-- A reader fails where `text` ends and `left` starts, and what is behind the first character of `left`
has no part in it. -/
def StopsAt {α : Type} (read : Nat → List Lexeme → Except SyntaxFault α) (mode : Mode)
    (text left : List Char) : Prop :=
  ∀ (total last : Nat) (left' : List Char), left'.head? = left.head? →
    ∃ expected token, read last (scan total mode (text ++ left'))
      = .error ⟨total - byteLength left', expected, .token token⟩

/-! ## First tokens -/

section

variable (total : Nat)

/-- Blanks in a rule list do not count. -/
theorem scan_rules_blanks {blanks : List Char} (h : ∀ c ∈ blanks, Text.isAsciiBlank c = true)
    (rest : List Char) : scan total .rules (blanks ++ rest) = scan total .rules rest := by
  induction blanks with
  | nil => rfl
  | cons c blanks ih =>
    obtain ⟨hc, hblanks⟩ := List.forall_mem_cons.1 h
    rw [List.cons_append, scan]
    simp [step, hc, ih hblanks]

/-- A text starts with all its blanks up to a character that is none. -/
theorem exists_blanks_append (cs : List Char) :
    ∃ blanks tail, cs = blanks ++ tail ∧ (∀ c ∈ blanks, Text.isAsciiBlank c = true)
      ∧ ∀ c ∈ tail.head?, Text.isAsciiBlank c = false := by
  refine ⟨_, _, List.takeWhile_append_dropWhile.symm, List.all_eq_true.1 List.all_takeWhile, ?_⟩
  intro c hc
  have hnot := List.head?_dropWhile_not Text.isAsciiBlank cs
  rw [Option.mem_def.1 hc] at hnot
  simpa using hnot

/-- Behind a rule, what is no comma and no closing parenthesis is the first token. -/
theorem exists_scan_rules_other {cs : List Char}
    (h : ∀ c ∈ cs.head?, Text.isAsciiBlank c = false ∧ c ≠ ')' ∧ c ≠ ',') :
    ∃ token more, scan total .rules cs = ⟨token, total - byteLength cs⟩ :: more
      ∧ token ≠ .comma ∧ token ≠ .rulesClose := by
  cases cs with
  | nil =>
    rw [scan]
    exact ⟨_, _, rfl, by simp, by simp⟩
  | cons c cs =>
    obtain ⟨hblank, hclose, hcomma⟩ := h c rfl
    cases htake : takeName? (c :: cs) with
    | none =>
      obtain ⟨token, more, hscan, hends⟩ := exists_scan_default_cons total (c :: cs)
      refine ⟨token, more, ?_, ?_, ?_⟩
      · rw [scan]
        simp [step, hblank, hclose, hcomma, htake, hscan]
      · rintro rfl
        cases hends
      · rintro rfl
        cases hends
    | some taken =>
      rw [scan]
      simp only [step, hblank, hclose, hcomma, htake, beq_iff_eq, Bool.false_eq_true, if_false]
      split
      · split <;> exact ⟨_, _, rfl, by simp, by simp⟩
      · exact ⟨_, _, rfl, by simp, by simp⟩

/-- Where a rule may start, what starts no name is the first token. -/
theorem exists_scan_rules_nameless {cs : List Char} (htake : takeName? cs = none)
    (h : ∀ c ∈ cs.head?, Text.isAsciiBlank c = false) :
    ∃ token more, scan total .rules cs = ⟨token, total - byteLength cs⟩ :: more
      ∧ ∀ slug, token ≠ .identifier slug := by
  cases cs with
  | nil =>
    rw [scan]
    exact ⟨_, _, rfl, by simp⟩
  | cons c cs =>
    by_cases hclose : c = ')'
    · subst hclose
      exact ⟨_, _, scan_rules_close total cs, by simp⟩
    by_cases hcomma : c = ','
    · subst hcomma
      exact ⟨_, _, scan_rules_comma total cs, by simp⟩
    obtain ⟨token, more, hscan, hends⟩ := exists_scan_default_cons total (c :: cs)
    refine ⟨token, more, ?_, ?_⟩
    · rw [scan]
      simp [step, h c rfl, hclose, hcomma, htake, hscan]
    · rintro slug rfl
      cases hends

/-- Whether a name can be taken off a text is decided by its first character. -/
theorem takeName?_eq_none_of_head? {cs cs' : List Char} (hhead : cs'.head? = cs.head?)
    (h : takeName? cs = none) : takeName? cs' = none := by
  cases cs' with
  | nil => rfl
  | cons c cs' =>
    cases cs with
    | nil => cases hhead
    | cons d cs =>
      cases hhead
      rw [takeName?] at h ⊢
      split at h
      · cases h
      · rename_i hstart
        rw [if_neg hstart]

end

/-! ## Rules -/

/-- A text that is read as one rule, as long as what follows goes on. -/
def RuleScans (item : List Char) (call : RuleCall) (rest : List Char) : Prop :=
  ∀ (total : Nat) (rest' : List Char), GoesOn ')' rest rest' →
    ∃ position ts, scan total .rules (item ++ rest') = ⟨.identifier call.slug, position⟩ :: ts
      ∧ takeArguments ts = (call.arguments, scan total .rules rest')

theorem ruleScans_slug {name rest : List Char} (hname : IsName name)
    (hrest : ∀ c ∈ rest.head?, continuesName c = false ∧ c ≠ '(') :
    RuleScans name ⟨String.ofList name, []⟩ rest := by
  intro total rest' hgoes
  exact ⟨_, _, scan_rules_slug total hname (hgoes.forall_head? hrest ⟨rfl, by decide⟩),
    takeArguments_of_rulesLexed (rulesLexed_scan total rest')⟩

theorem ruleScans_call {name text : List Char} {values : List Value} (hname : IsName name)
    (h : ∀ left, readArguments (text ++ left) = (some values, left)) (rest : List Char) :
    RuleScans (name ++ '(' :: text) ⟨String.ofList name, values⟩ rest := by
  intro total rest' _
  rw [List.append_assoc, List.cons_append]
  exact ⟨_, _, scan_rules_call total hname (h rest'), takeArguments.eq_1 _ _ _⟩

section

variable {item rest blanks : List Char} {call : RuleCall} (hrule : RuleScans item call rest)
  (hblanks : ∀ c ∈ blanks, Text.isAsciiBlank c = true) (left : List Char)

include hrule hblanks

/-- A rule in front of the end of the rule list. -/
theorem RuleScans.close (hgoes : GoesOn ')' rest (blanks ++ ')' :: left)) (total last : Nat) :
    readRules last (scan total .rules (item ++ (blanks ++ ')' :: left)))
      = .ok ([call], scan total .default left) := by
  obtain ⟨position, ts, hscan, htake⟩ := hrule total _ hgoes
  rw [scan_rules_blanks total hblanks, scan_rules_close] at htake
  rw [hscan, readRules, htake]

/-- A rule in front of a further one. -/
theorem RuleScans.comma (hgoes : GoesOn ')' rest (blanks ++ ',' :: left)) (total last : Nat) :
    readRules last (scan total .rules (item ++ (blanks ++ ',' :: left)))
      = (readRules last (scan total .rules left)).map fun (calls, rest) => (call :: calls, rest) := by
  obtain ⟨position, ts, hscan, htake⟩ := hrule total _ hgoes
  rw [scan_rules_blanks total hblanks, scan_rules_comma] at htake
  rw [hscan, readRules, htake]
  cases hread : readRules last (scan total .rules left) <;> simp only [hread] <;> rfl

/-- A rule in front of anything else. -/
theorem RuleScans.stopsAt (hgoes : GoesOn ')' rest (blanks ++ left))
    (hleft : ∀ c ∈ left.head?, Text.isAsciiBlank c = false ∧ c ≠ ')' ∧ c ≠ ',') (total last : Nat) :
    ∃ expected token, readRules last (scan total .rules (item ++ (blanks ++ left)))
      = .error ⟨total - byteLength left, expected, .token token⟩ := by
  obtain ⟨position, ts, hscan, htake⟩ := hrule total _ hgoes
  obtain ⟨token, more, hother, hcomma, hclose⟩ := exists_scan_rules_other total hleft
  rw [scan_rules_blanks total hblanks, hother] at htake
  refine ⟨.ruleSeparator, token, ?_⟩
  rw [hscan, readRules, htake]
  split
  · simp_all
  · simp_all
  · rfl

end

/-- How a text is read inside a rule list. -/
inductive RulesRead : List Char → Prop
  /-- The list is closed. -/
  | closed (text left : List Char) (calls : List RuleCall)
      (h : ∀ (total last : Nat) (left' : List Char),
        readRules last (scan total .rules (text ++ left')) = .ok (calls, scan total .default left')) :
      RulesRead (text ++ left)
  /-- The list breaks off; it could have been closed. -/
  | broken (text left closing : List Char) (h : StopsAt readRules .rules text left)
      (hclosed : ∀ rest, ∃ calls, ∀ total last,
        readRules last (scan total .rules (text ++ (closing ++ rest)))
          = .ok (calls, scan total .default rest)) :
      RulesRead (text ++ left)

/-- A text in front of which the reading of the rules only adds to them. -/
theorem RulesRead.prepend (item : List Char) {rest : List Char} (f : List RuleCall → List RuleCall)
    (hread : ∀ total last rest', readRules last (scan total .rules (item ++ rest'))
      = (readRules last (scan total .rules rest')).map fun (calls, left) => (f calls, left))
    (h : RulesRead rest) : RulesRead (item ++ rest) := by
  cases h with
  | closed text left calls h =>
    rw [← List.append_assoc]
    refine .closed _ _ (f calls) fun total last left' => ?_
    rw [List.append_assoc, hread, h]
    rfl
  | broken text left closing h hclosed =>
    rw [← List.append_assoc]
    refine .broken _ _ closing (fun total last left' hhead => ?_) fun rest => ?_
    · obtain ⟨expected, token, hstop⟩ := h total last left' hhead
      refine ⟨expected, token, ?_⟩
      rw [List.append_assoc, hread, hstop]
      rfl
    · obtain ⟨calls, hcalls⟩ := hclosed rest
      refine ⟨f calls, fun total last => ?_⟩
      rw [List.append_assoc, hread, hcalls]
      rfl

/-- Behind a rule the list ends, goes on or breaks off. -/
theorem RuleScans.rulesRead {item rest : List Char} {call : RuleCall} (hrule : RuleScans item call rest)
    (ih : ∀ left : List Char, left.length < rest.length → RulesRead left) :
    RulesRead (item ++ rest) := by
  obtain ⟨blanks, tail, rfl, hblanks, htail⟩ := exists_blanks_append rest
  by_cases hclose : tail.head? = some ')'
  · obtain ⟨left, rfl⟩ := List.head?_eq_some_iff.1 hclose
    rw [List.append_cons blanks, ← List.append_assoc]
    refine .closed _ left [call] fun total last left' => ?_
    rw [List.append_assoc, List.append_assoc]
    exact hrule.close hblanks left' (GoesOn.append_left blanks (Or.inl rfl)) total last
  by_cases hcomma : tail.head? = some ','
  · obtain ⟨left, rfl⟩ := List.head?_eq_some_iff.1 hcomma
    have hread : RulesRead left := by
      refine ih left ?_
      rw [List.length_append, List.length_cons]
      omega
    rw [List.append_cons blanks, ← List.append_assoc]
    refine hread.prepend _ (call :: ·) fun total last rest' => ?_
    rw [List.append_assoc, List.append_assoc]
    exact hrule.comma hblanks rest' (GoesOn.append_left blanks (Or.inl rfl)) total last
  · have hother : ∀ c ∈ tail.head?, Text.isAsciiBlank c = false ∧ c ≠ ')' ∧ c ≠ ',' := by
      intro c hc
      refine ⟨htail c hc, ?_, ?_⟩
      · rintro rfl
        exact hclose hc
      · rintro rfl
        exact hcomma hc
    rw [← List.append_assoc]
    refine .broken _ tail [')'] (fun total last left' hhead => ?_) fun rest => ?_
    · rw [List.append_assoc]
      exact hrule.stopsAt hblanks left' (GoesOn.append_left blanks (Or.inl hhead)) (hhead ▸ hother) total last
    · refine ⟨[call], fun total last => ?_⟩
      rw [List.append_assoc]
      exact hrule.close hblanks rest (GoesOn.append_left blanks (Or.inr rfl)) total last

/-- Where no name starts, there is no rule. -/
theorem rulesRead_nameless {cs : List Char} (htake : takeName? cs = none)
    (hblank : ∀ c ∈ cs.head?, Text.isAsciiBlank c = false) : RulesRead cs := by
  refine .broken [] cs ['a', ')'] (fun total last left' hhead => ?_) fun rest => ?_
  · obtain ⟨token, more, hscan, hslug⟩ := exists_scan_rules_nameless total
      (takeName?_eq_none_of_head? hhead htake) (hhead ▸ hblank)
    refine ⟨.ruleName, token, ?_⟩
    rw [List.nil_append, hscan, readRules]
    · rfl
    · simpa using hslug
  · have hname : IsName ['a'] := ⟨'a', [], rfl, rfl, rfl⟩
    have hrule : RuleScans ['a'] ⟨String.ofList ['a'], []⟩ [] :=
      ruleScans_slug hname (by simp)
    exact ⟨_, hrule.close (List.forall_mem_nil _) rest (Or.inr rfl)⟩

/-- An argument list that breaks off is lost, and nothing that may follow a rule comes next. -/
theorem readRules_paren {name more left : List Char} (hname : IsName name)
    (h : readArguments more = (none, left)) (hleft : ∀ c ∈ left.head?, c = '(') (total last : Nat) :
    ∃ token, readRules last (scan total .rules (name ++ '(' :: more))
      = .error ⟨total - byteLength left, .ruleSeparator, .token token⟩ := by
  have hother : ∀ c ∈ left.head?, Text.isAsciiBlank c = false ∧ c ≠ ')' ∧ c ≠ ',' := by
    intro c hc
    obtain rfl := hleft c hc
    exact ⟨rfl, by decide, by decide⟩
  obtain ⟨token, rest, hscan, hcomma, hclose⟩ := exists_scan_rules_other total hother
  refine ⟨token, ?_⟩
  rw [scan_rules_paren total hname, h, readRules,
    takeArguments_of_rulesLexed (rulesLexed_scan total left), hscan]
  split
  · simp_all
  · simp_all
  · rfl

/-- A rule whose argument list breaks off could have been closed. -/
theorem rulesRead_paren {name more : List Char} (hname : IsName name)
    (ih : ∀ left : List Char, left.length ≤ more.length → RulesRead left) :
    RulesRead (name ++ '(' :: more) := by
  cases argumentsRead more with
  | closed text left values hne h =>
    rw [← List.cons_append, ← List.append_assoc]
    refine (ruleScans_call hname h left).rulesRead fun left' hleft' => ih left' ?_
    rw [List.length_append]
    omega
  | broken text left closing hleft h hclosing hclosed =>
    rw [← List.cons_append, ← List.append_assoc]
    refine .broken _ left (closing ++ [')']) (fun total last left' hhead => ?_) fun rest => ?_
    · rw [List.append_assoc, List.cons_append]
      obtain ⟨token, hstop⟩ := readRules_paren hname (h left' hhead) (hhead ▸ hleft) total last
      exact ⟨.ruleSeparator, token, hstop⟩
    · obtain ⟨values, hvalues⟩ := hclosed (')' :: rest)
      refine ⟨[⟨String.ofList name, values⟩], fun total last => ?_⟩
      rw [List.append_assoc, List.append_assoc, List.cons_append, List.singleton_append,
        scan_rules_call total hname hvalues, scan_rules_close, readRules, takeArguments]

/-- Every text is read in one of these ways inside a rule list. -/
theorem rulesRead (cs : List Char) : RulesRead cs := by
  induction hlen : cs.length using Nat.strong_induction_on generalizing cs with
  | _ n ih =>
    by_cases hblank : ∀ c ∈ cs.head?, Text.isAsciiBlank c = false
    · cases htake : takeName? cs with
      | none => exact rulesRead_nameless htake hblank
      | some taken =>
        obtain ⟨name, rest⟩ := taken
        have hshorter : ∀ left : List Char, left.length ≤ rest.length → RulesRead left := by
          intro left hleft
          have := length_lt_of_takeName? htake
          exact ih left.length (by omega) left rfl
        obtain ⟨rfl, hname, hrest⟩ := takeName?_eq_some_iff.1 htake
        by_cases hopen : rest.head? = some '('
        · obtain ⟨more, rfl⟩ := List.head?_eq_some_iff.1 hopen
          exact rulesRead_paren hname fun left hleft =>
            hshorter left (hleft.trans (List.length_cons ▸ Nat.le_succ _))
        · have hslug : ∀ c ∈ rest.head?, continuesName c = false ∧ c ≠ '(' := by
            refine fun c hc => ⟨hrest c hc, ?_⟩
            rintro rfl
            exact hopen hc
          exact (ruleScans_slug hname hslug).rulesRead fun left hleft => hshorter left hleft.le
    · obtain ⟨c, rest, rfl⟩ : ∃ c rest, cs = c :: rest := by
        cases cs with
        | nil => simp at hblank
        | cons c rest => exact ⟨c, rest, rfl⟩
      have hc : ∀ d ∈ [c], Text.isAsciiBlank d = true := by simpa using hblank
      have hread := ih rest.length (by rw [← hlen, List.length_cons]; omega) rest rfl
      refine hread.prepend [c] id fun total last rest' => ?_
      rw [scan_rules_blanks total hc]
      cases readRules last (scan total .rules rest') <;> rfl

/-! ## Behind a name -/

/-- How a reader of tokens gets from one mode to another. -/
inductive Outcome {α : Type} (read : Nat → List Lexeme → Except SyntaxFault (α × List Lexeme))
    (mode mode' : Mode) : List Char → Prop
  /-- It reads a text, as long as what follows goes on. -/
  | passes (text left : List Char) (value : α)
      (h : ∀ (total last : Nat) (left' : List Char), GoesOn '/' left left' →
        read last (scan total mode (text ++ left')) = .ok (value, scan total mode' left')) :
      Outcome read mode mode' (text ++ left)
  /-- It fails in the middle of a text that it could have read in front of a slash. -/
  | stops (text left closing : List Char) (hne : text ≠ []) (h : StopsAt read mode text left)
      (hclosed : ∀ rest, rest.head? = some '/' → ∃ value, ∀ total last,
        read last (scan total mode (text ++ (closing ++ rest))) = .ok (value, scan total mode' rest)) :
      Outcome read mode mode' (text ++ left)

/-- A rule list is read, or there is none. -/
theorem outcome_readRuleList (cs : List Char) : Outcome readRuleList .named .default cs := by
  by_cases hopen : cs.head? = some '('
  · obtain ⟨rest, rfl⟩ := List.head?_eq_some_iff.1 hopen
    cases rulesRead rest with
    | closed text left calls h =>
      rw [← List.cons_append]
      refine .passes _ left calls fun total last left' _ => ?_
      rw [List.cons_append, scan_named_rules, readRuleList, h]
    | broken text left closing h hclosed =>
      rw [← List.cons_append]
      refine .stops _ left closing (List.cons_ne_nil _ _) (fun total last left' hhead => ?_) fun rest _ => ?_
      · obtain ⟨expected, token, hstop⟩ := h total last left' hhead
        refine ⟨expected, token, ?_⟩
        rw [List.cons_append, scan_named_rules, readRuleList, hstop]
      · obtain ⟨calls, hcalls⟩ := hclosed rest
        refine ⟨calls, fun total last => ?_⟩
        rw [List.cons_append, scan_named_rules, readRuleList, hcalls]
  · have hne : ∀ c ∈ cs.head?, c ≠ '(' := by
      rintro _ hc rfl
      exact hopen hc
    refine .passes [] cs [] fun total last left' hgoes => ?_
    rw [List.nil_append, scan_named_of_ne total (hgoes.forall_head? hne (by decide)), readRuleList_default]

/-- Behind an equals sign stands a default, unless the next part starts there or nothing follows. -/
theorem exists_isDefault (cs : List Char) :
    (∃ own left, cs = own ++ left ∧ IsDefault own ∧ ∀ c ∈ left.head?, defaultStop own c = true)
      ∨ ∀ c ∈ cs.head?, isStructural c = true := by
  cases cs with
  | nil => exact Or.inr (by simp)
  | cons c cs =>
    cases hends : endsDefault c with
    | false =>
      refine Or.inl ⟨c :: cs.takeWhile (!endsDefault ·), cs.dropWhile (!endsDefault ·), ?_, ?_, ?_⟩
      · rw [List.cons_append, List.takeWhile_append_dropWhile]
      · refine ⟨List.cons_ne_nil _ _, ?_⟩
        rw [defaultStop_of_stays hends]
        exact List.forall_mem_cons.2 ⟨hends, forall_mem_takeWhile_not endsDefault cs⟩
      · rw [defaultStop_of_stays hends]
        exact forall_head?_dropWhile_not endsDefault cs
    | true =>
      cases hmark : isStructural c with
      | true => exact Or.inr (by simpa using hmark)
      | false =>
        refine Or.inl ⟨c :: cs.takeWhile (!isStructural ·), cs.dropWhile (!isStructural ·), ?_, ?_, ?_⟩
        · rw [List.cons_append, List.takeWhile_append_dropWhile]
        · refine ⟨List.cons_ne_nil _ _, ?_⟩
          rw [defaultStop_of_ends hends]
          exact List.forall_mem_cons.2 ⟨hmark, forall_mem_takeWhile_not isStructural cs⟩
        · rw [defaultStop_of_ends hends]
          exact forall_head?_dropWhile_not isStructural cs

/-- A default is read up to where it ends. -/
theorem readDefault_own {own left : List Char} (hdefault : IsDefault own)
    (hleft : ∀ c ∈ left.head?, defaultStop own c = true) (total last : Nat) :
    readDefault last (scan total .default ('=' :: own ++ left))
      = .ok (some (String.ofList own), scan total .segments left) := by
  have hread := @readDefault_written total last (some (String.ofList own)) [] left
    (by rintro _ ⟨⟩; rwa [String.toList_ofList]) (by simpa [standsBehind] using hleft)
  rwa [defaultChars, String.toList_ofList] at hread

/-- No default goes on where the next part starts. -/
theorem takeWhile_eq_nil_of_isStructural {cs : List Char} (h : ∀ c ∈ cs.head?, isStructural c = true) :
    cs.takeWhile (!endsDefault ·) = [] := by
  cases cs with
  | nil => rfl
  | cons c cs =>
    have hends : endsDefault c = true := by
      have hmark := h c rfl
      simp only [isStructural, Bool.or_eq_true] at hmark
      simp only [endsDefault, Bool.or_eq_true]
      tauto
    exact List.takeWhile_cons_of_neg (by simp [hends])

/-- An equals sign in front of the next part, or of the end, is a fault behind the equals sign. -/
theorem readDefault_equals {cs : List Char} (h : ∀ c ∈ cs.head?, isStructural c = true)
    (total last : Nat) :
    ∃ token, readDefault last (scan total .default ('=' :: cs))
      = .error ⟨total - byteLength cs, .defaultValue, .token token⟩ := by
  obtain ⟨token, more, hscan, -⟩ := exists_scan_segments_cons total cs
  refine ⟨token, ?_⟩
  rw [scan_default_equals total (takeWhile_eq_nil_of_isStructural h)]
  have hview := lexed_scan total cs
  rw [hscan] at hview ⊢
  cases hview with
  | text hc => simp [h _ rfl] at hc
  | _ => rfl

/-- A default is read, or there is none. -/
theorem outcome_readDefault (cs : List Char) : Outcome readDefault .default .segments cs := by
  by_cases hequals : cs.head? = some '='
  · obtain ⟨rest, rfl⟩ := List.head?_eq_some_iff.1 hequals
    rcases exists_isDefault rest with ⟨own, left, rfl, hdefault, hleft⟩ | hmark
    · rw [← List.cons_append]
      refine .passes _ left (some (String.ofList own)) fun total last left' hgoes => ?_
      refine readDefault_own hdefault (hgoes.forall_head? hleft ?_) total last
      unfold defaultStop
      split
      · rfl
      · split <;> rfl
    · refine .stops ['='] rest ['a'] (List.cons_ne_nil _ _) (fun total last left' hhead => ?_)
        fun left hleft => ?_
      · obtain ⟨token, hread⟩ := readDefault_equals (hhead ▸ hmark) total last
        exact ⟨.defaultValue, token, hread⟩
      · have hdefault : IsDefault ['a'] := ⟨List.cons_ne_nil _ _, List.forall_mem_singleton.2 rfl⟩
        refine ⟨some (String.ofList ['a']), readDefault_own hdefault fun c hc => ?_⟩
        rw [hleft] at hc
        obtain rfl := Option.some.inj hc
        rfl
  · have hne : ∀ c ∈ cs.head?, c ≠ '=' := by
      rintro _ hc rfl
      exact hequals hc
    refine .passes [] cs none fun total last left' hgoes => ?_
    rw [List.nil_append, scan_default_of_ne total (hgoes.forall_head? hne (by decide)), readDefault_segments]

/-- What stands behind the name of a variable is read; the byte of the name does not matter. -/
theorem outcome_readVariable (name : String) (cs : List Char) :
    Outcome (fun last ts => readVariable last (⟨.identifier name, 0⟩ :: ts)) .named .segments cs := by
  cases outcome_readRuleList cs with
  | stops text left closing hne h hclosed =>
    refine .stops text left closing hne (fun total last left' hhead => ?_) fun rest hrest => ?_
    · obtain ⟨expected, token, hstop⟩ := h total last left' hhead
      refine ⟨expected, token, ?_⟩
      simp only [readVariable, hstop, bind, Except.bind]
    · obtain ⟨calls, hcalls⟩ := hclosed rest hrest
      have hne : ∀ c ∈ rest.head?, c ≠ '=' := by
        intro c hc
        rw [hrest] at hc
        obtain rfl := Option.some.inj hc
        decide
      -- the slash behind the closed list starts no default
      refine ⟨.variable name calls none, fun total last => ?_⟩
      simp only [readVariable, hcalls, scan_default_of_ne total hne, readDefault_segments, bind,
        Except.bind, pure, Except.pure]
  | passes text left calls h =>
    cases outcome_readDefault left with
    | passes text' left default h' =>
      rw [← List.append_assoc]
      refine .passes _ left (.variable name calls default) fun total last left' hgoes => ?_
      have hlist := h total last (text' ++ left') (hgoes.append_left text')
      simp only [readVariable, List.append_assoc, hlist, h' total last left' hgoes, bind, Except.bind,
        pure, Except.pure]
    | stops text' left closing hne h' hclosed =>
      rw [← List.append_assoc]
      refine .stops _ left closing (List.append_ne_nil_of_right_ne_nil _ hne)
        (fun total last left' hhead => ?_) fun rest hrest => ?_
      · obtain ⟨expected, token, hstop⟩ := h' total last left' hhead
        refine ⟨expected, token, ?_⟩
        have hlist := h total last (text' ++ left') (goesOn_of_ne_nil hne _ _)
        simp only [readVariable, List.append_assoc, hlist, hstop, bind, Except.bind]
      · obtain ⟨default, hdefault⟩ := hclosed rest hrest
        refine ⟨.variable name calls default, fun total last => ?_⟩
        have hlist := h total last (text' ++ (closing ++ rest)) (goesOn_of_ne_nil hne _ _)
        simp only [readVariable, List.append_assoc, hlist, hdefault, bind, Except.bind, pure, Except.pure]

end Template

end UriRouting
