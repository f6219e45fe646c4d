import UriRouting.Proofs.Template.ArgumentSource
import UriRouting.Proofs.Template.DefaultRun
/-!
# Where tokens stand

The tokens of a text stand in it in order and apart, each where it is written: a text, a name or a sign at
its position, and the arguments of a rule from one parenthesis to the other. Between two tokens there may be a
blank in a rule list, and nothing else as long as rule lists are well formed. Where a rule list breaks off, a
list of arguments may be lost without a token, and such a text is no template. So nothing of a template is
dropped but blanks in rule lists.

* `Laid` says how the tokens of the rest of a text stand in it, and `laidIn` that this is how they are read;
* `RulesClosed` is what keeps a rule list from breaking off, and templates have it;
* `Lexeme.Spans` says from where to where a token stands, and `InRuleList` which places are in a rule list;
* `spans_tokenize` is the main statement.
-/

namespace UriRouting

open UriRouting.Tree UriRouting.Template

/-! ## Written tokens -/

namespace Token

/-- What a token is written as. -/
inductive WrittenAs : Token → List Char → Prop where
  /-- A text is written as it is. -/
  | text (run : String) : WrittenAs (.text run) run.toList
  /-- So is a name. -/
  | identifier (name : String) : WrittenAs (.identifier name) name.toList
  | slash : WrittenAs .slash ['/']
  | variableOpen : WrittenAs .variableOpen [':']
  | optionalOpen : WrittenAs .optionalOpen ['[']
  | optionalClose : WrittenAs .optionalClose [']']
  | rulesOpen : WrittenAs .rulesOpen ['(']
  | rulesClose : WrittenAs .rulesClose [')']
  | comma : WrittenAs .comma [',']
  | equals : WrittenAs .equals ['=']
  /-- Arguments are written between parentheses. -/
  | arguments {text : List Char} {values : List Value} (h : ArgumentsSource text values) :
      WrittenAs (.arguments values) ('(' :: (text ++ [')']))
  /-- The end of a template takes no room. -/
  | finish : WrittenAs .finish []

/-- At one place a token is written in one way. -/
theorem WrittenAs.append_inj {token : Token} {own own' rest rest' : List Char}
    (h : token.WrittenAs own) (h' : token.WrittenAs own') (heq : own ++ rest = own' ++ rest') :
    own = own' := by
  cases h with
  | @arguments text values htext =>
    cases h' with
    | @arguments text' _ htext' =>
      have hsplit : text ++ ')' :: rest = text' ++ ')' :: rest' := by simpa using heq
      have hread : readArguments (text ++ ')' :: rest) = (some values, rest) :=
        readArguments_eq_iff.2 ⟨text, rfl, htext⟩
      have hread' : readArguments (text' ++ ')' :: rest') = (some values, rest') :=
        readArguments_eq_iff.2 ⟨text', rfl, htext'⟩
      rw [hsplit, hread'] at hread
      cases hread
      exact List.append_cancel_right heq
  | _ =>
    cases h'
    rfl

/-- Whether a rule list is open behind a token. -/
def inRules (before : Bool) : Token → Bool
  | .rulesOpen => true
  | .rulesClose => false
  | _ => before

end Token

theorem IsName.ne_nil {name : List Char} (h : IsName name) : name ≠ [] := by
  obtain ⟨c, cs, rfl, -⟩ := h
  exact List.cons_ne_nil c cs

namespace Template

theorem byteLength_append (cs ds : List Char) : byteLength (cs ++ ds) = byteLength cs + byteLength ds := by
  rw [byteLength_eq, byteLength_eq, byteLength_eq, String.ofList_append, String.utf8ByteSize_append]

theorem byteLength_pos {cs : List Char} (h : cs ≠ []) : 0 < byteLength cs := by
  obtain ⟨c, cs, rfl⟩ := List.exists_cons_of_ne_nil h
  exact Nat.add_pos_left c.utf8Size_pos _

/-! ## Tokens laid out in a text -/

/-- How the tokens of the rest of a text of `total` bytes stand in it. Between two tokens there is nothing or,
in a rule list, a blank. Where a rule list breaks off, text may be lost, and the next token is one that no
rule list has. -/
inductive Laid (total : Nat) : Bool → List Lexeme → List Char → Prop where
  /-- The end of the text. -/
  | finish {inside : Bool} : Laid total inside [⟨.finish, total⟩] []
  /-- A token stands where it is written. -/
  | token {inside : Bool} {token : Token} {own rest : List Char} {ls : List Lexeme} (hne : own ≠ [])
      (hown : token.WrittenAs own) (h : Laid total (token.inRules inside) ls rest) :
      Laid total inside (⟨token, total - byteLength (own ++ rest)⟩ :: ls) (own ++ rest)
  /-- A blank in a rule list. -/
  | blank {c : Char} {rest : List Char} {ls : List Lexeme} (hc : Text.isAsciiBlank c = true)
      (h : Laid total true ls rest) : Laid total true ls (c :: rest)
  /-- A rule list that breaks off. -/
  | broken {inside : Bool} {rest : List Char} {ls : List Lexeme} (lost : List Char)
      (hends : ∀ l ∈ ls.head?, EndsRules l.token) (h : Laid total inside ls rest) :
      Laid total true ls (lost ++ rest)

/-- The tokens that a text has in some mode are laid out in it. -/
def LaidIn (total : Nat) (mode : Mode) (cs : List Char) : Prop :=
  Laid total (decide (mode = .rules)) (scan total mode cs) cs

section

variable {total : Nat} {cs rest : List Char}

theorem Laid.char {inside : Bool} {token : Token} {c : Char} {ls : List Lexeme}
    (hown : token.WrittenAs [c]) (h : Laid total (token.inRules inside) ls rest) :
    Laid total inside (⟨token, total - byteLength (c :: rest)⟩ :: ls) (c :: rest) :=
  .token (List.cons_ne_nil c []) hown h

theorem writtenAs_text (own : List Char) : (Token.text (String.ofList own)).WrittenAs own := by
  have h := Token.WrittenAs.text (String.ofList own)
  rwa [String.toList_ofList] at h

theorem writtenAs_identifier (own : List Char) : (Token.identifier (String.ofList own)).WrittenAs own := by
  have h := Token.WrittenAs.identifier (String.ofList own)
  rwa [String.toList_ofList] at h

theorem laidIn_nil (mode : Mode) : LaidIn total mode [] := by
  rw [LaidIn, scan]
  exact .finish

/-- Between segments a token starts at every place, and nothing is between two tokens. -/
theorem laidIn_segments (ih : ∀ mode, ∀ rest : List Char, rest.length < cs.length → LaidIn total mode rest) :
    LaidIn total .segments cs := by
  cases cs with
  | nil => exact laidIn_nil .segments
  | cons c cs =>
    have hnext : LaidIn total .segments cs := ih .segments cs (Nat.lt_succ_self _)
    by_cases hslash : c = '/'
    · subst hslash
      rw [LaidIn, scan_segments_slash]
      exact .char .slash hnext
    by_cases hopen : c = '['
    · subst hopen
      rw [LaidIn, scan_segments_open]
      exact .char .optionalOpen hnext
    by_cases hclose : c = ']'
    · subst hclose
      rw [LaidIn, scan_segments_close]
      exact .char .optionalClose hnext
    by_cases hcolon : c = ':'
    · subst hcolon
      cases htake : takeName? cs with
      | none =>
        have hscan : scan total .segments (':' :: cs)
            = ⟨.variableOpen, total - byteLength (':' :: cs)⟩ :: scan total .segments cs := by
          rw [scan]
          simp [step, htake]
        rw [LaidIn, hscan]
        exact .char .variableOpen hnext
      | some taken =>
        obtain ⟨name, rest⟩ := taken
        obtain ⟨rfl, hname, hrest⟩ := takeName?_eq_some_iff.1 htake
        rw [LaidIn, scan_segments_variable total hname hrest]
        refine .char .variableOpen (.token hname.ne_nil (writtenAs_identifier name) (ih .named rest ?_))
        simp
    · have hown : ∀ d ∈ c :: cs.takeWhile (!isStructural ·), isStructural d = false :=
        List.forall_mem_cons.2 ⟨by simp [isStructural, hslash, hopen, hclose, hcolon],
          forall_mem_takeWhile_not isStructural cs⟩
      have hscan := scan_segments_text total (List.cons_ne_nil _ _) hown
        (forall_head?_dropWhile_not isStructural cs)
      have hrest := ih .segments (cs.dropWhile (!isStructural ·))
        (Nat.lt_succ_of_le (List.length_dropWhile_le _ cs))
      have hlaid : LaidIn total .segments
          (c :: cs.takeWhile (!isStructural ·) ++ cs.dropWhile (!isStructural ·)) := by
        rw [LaidIn, hscan]
        exact .token (List.cons_ne_nil _ _) (writtenAs_text _) hrest
      rwa [List.cons_append, List.takeWhile_append_dropWhile] at hlaid

/-- Where a default may start, an equals sign and the text behind it are tokens. -/
theorem laidIn_default (ih : ∀ mode, ∀ rest : List Char, rest.length < cs.length → LaidIn total mode rest) :
    LaidIn total .default cs := by
  by_cases hequals : cs.head? = some '='
  · obtain ⟨rest, rfl⟩ := List.head?_eq_some_iff.1 hequals
    by_cases hnone : rest.takeWhile (!endsDefault ·) = []
    · rw [LaidIn, scan_default_equals total hnone]
      exact .char .equals (ih .segments rest (Nat.lt_succ_self _))
    · have hbehind := ih .segments (rest.dropWhile (!endsDefault ·))
        (Nat.lt_succ_of_le (List.length_dropWhile_le _ rest))
      have htext := Laid.token hnone (writtenAs_text _) hbehind
      rw [List.takeWhile_append_dropWhile] at htext
      rw [LaidIn, scan_default_text total hnone rfl rfl]
      exact .char .equals htext
  · have hne : ∀ c ∈ cs.head?, c ≠ '=' := by
      rintro _ hc rfl
      exact hequals hc
    rw [LaidIn, scan_default_of_ne total hne]
    exact laidIn_segments ih

/-- Where an argument list has broken off, the next token is one that no rule list has. -/
theorem endsRules_of_scan {left : List Char} (h : ∀ c ∈ left.head?, c = '(') :
    ∀ l ∈ (scan total .rules left).head?, EndsRules l.token := by
  cases left with
  | nil =>
    rw [scan]
    rintro _ ⟨⟩
    trivial
  | cons c left =>
    obtain rfl := h c rfl
    obtain ⟨token, more, hscan, hends⟩ := exists_scan_default_cons total ('(' :: left)
    have hrules : scan total .rules ('(' :: left) = scan total .default ('(' :: left) := by
      rw [scan]
      simp [step, Text.isAsciiBlank, takeName?, startsName]
    rw [hrules, hscan]
    rintro _ ⟨⟩
    exact hends

/-- A rule is its name and perhaps its arguments. A list of arguments that breaks off is lost. -/
theorem laidIn_rule {name : List Char} (hname : IsName name)
    (hrest : ∀ c ∈ rest.head?, continuesName c = false)
    (ih : ∀ left : List Char, left.length < (name ++ rest).length → LaidIn total .rules left) :
    LaidIn total .rules (name ++ rest) := by
  have hlength : 0 < name.length := List.length_pos_of_ne_nil hname.ne_nil
  by_cases hopen : rest.head? = some '('
  · obtain ⟨more, rfl⟩ := List.head?_eq_some_iff.1 hopen
    cases argumentsRead more with
    | closed text left values _ hread =>
      obtain ⟨own, htext, hown⟩ := readArguments_eq_iff.1 (hread left)
      have hleft : LaidIn total .rules left := ih left (by simp; omega)
      have harguments := Laid.token (List.cons_ne_nil _ _) (.arguments hown) hleft
      rw [List.cons_append, List.append_assoc, List.singleton_append, ← htext] at harguments
      rw [LaidIn, scan_rules_call total hname (hread left)]
      exact .token hname.ne_nil (writtenAs_identifier name) harguments
    | broken text left _ hends hread =>
      have hleft : LaidIn total .rules left := ih left (by simp; omega)
      rw [LaidIn, scan_rules_paren total hname, hread left rfl]
      exact .token hname.ne_nil (writtenAs_identifier name)
        (.broken ('(' :: text) (endsRules_of_scan hends) hleft)
  · have hbehind : ∀ d ∈ rest.head?, continuesName d = false ∧ d ≠ '(' := by
      refine fun d hd => ⟨hrest d hd, ?_⟩
      rintro rfl
      exact hopen hd
    rw [LaidIn, scan_rules_slug total hname hbehind]
    exact .token hname.ne_nil (writtenAs_identifier name) (ih rest (by simp; omega))

/-- In a rule list, blanks are between tokens. -/
theorem laidIn_rules (ih : ∀ mode, ∀ rest : List Char, rest.length < cs.length → LaidIn total mode rest) :
    LaidIn total .rules cs := by
  cases cs with
  | nil => exact laidIn_nil .rules
  | cons c cs =>
    have hnext : LaidIn total .rules cs := ih .rules cs (Nat.lt_succ_self _)
    by_cases hblank : Text.isAsciiBlank c = true
    · have hscan : scan total .rules (c :: cs) = scan total .rules cs := by
        rw [scan]
        simp [step, hblank]
      rw [LaidIn, hscan]
      exact .blank hblank hnext
    by_cases hclose : c = ')'
    · subst hclose
      rw [LaidIn, scan_rules_close]
      exact .char .rulesClose (ih .default cs (Nat.lt_succ_self _))
    by_cases hcomma : c = ','
    · subst hcomma
      rw [LaidIn, scan_rules_comma]
      exact .char .comma hnext
    cases htake : takeName? (c :: cs) with
    | none =>
      have hscan : scan total .rules (c :: cs) = scan total .default (c :: cs) := by
        rw [scan]
        simp [step, hblank, hclose, hcomma, htake]
      obtain ⟨token, more, hdefault, hends⟩ := exists_scan_default_cons total (c :: cs)
      have hfirst : ∀ l ∈ (scan total .default (c :: cs)).head?, EndsRules l.token := by
        rw [hdefault]
        rintro _ ⟨⟩
        exact hends
      rw [LaidIn, hscan]
      exact .broken [] hfirst (laidIn_default ih)
    | some taken =>
      obtain ⟨name, rest⟩ := taken
      obtain ⟨hsplit, hname, hrest⟩ := takeName?_eq_some_iff.1 htake
      rw [hsplit]
      exact laidIn_rule hname hrest fun rest' hlt => ih .rules rest' (hsplit ▸ hlt)

/-- Behind the name of a variable a rule list may open. -/
theorem laidIn_named (ih : ∀ mode, ∀ rest : List Char, rest.length < cs.length → LaidIn total mode rest) :
    LaidIn total .named cs := by
  by_cases hopen : cs.head? = some '('
  · obtain ⟨rest, rfl⟩ := List.head?_eq_some_iff.1 hopen
    rw [LaidIn, scan_named_rules]
    exact .char .rulesOpen (ih .rules rest (Nat.lt_succ_self _))
  · have hne : ∀ c ∈ cs.head?, c ≠ '(' := by
      rintro _ hc rfl
      exact hopen hc
    rw [LaidIn, scan_named_of_ne total hne]
    exact laidIn_default ih

/-- The tokens of every text are laid out in it. -/
theorem laidIn (total : Nat) (mode : Mode) (cs : List Char) : LaidIn total mode cs := by
  -- on the length, since a token takes a run of characters off the front
  induction hlen : cs.length using Nat.strong_induction_on generalizing mode cs with
  | _ n ih =>
    have hshorter : ∀ mode, ∀ rest : List Char, rest.length < cs.length → LaidIn total mode rest :=
      fun mode rest hrest => ih rest.length (hlen ▸ hrest) mode rest rfl
    cases mode with
    | segments => exact laidIn_segments hshorter
    | default => exact laidIn_default hshorter
    | rules => exact laidIn_rules hshorter
    | named => exact laidIn_named hshorter

end

/-! ## Spans -/

/-- Where a token of a text of `total` bytes stands in the rest of the text, with `behind` behind it. -/
def Occupies (total : Nat) (cs : List Char) (l : Lexeme) (behind : List Char) : Prop :=
  ∃ before own, cs = before ++ (own ++ behind) ∧ l.token.WrittenAs own
    ∧ l.position = total - byteLength (own ++ behind)

/-- A token ends before another starts. -/
def EndsBefore (total : Nat) (cs : List Char) (l l' : Lexeme) : Prop :=
  ∃ behind, Occupies total cs l behind ∧ l.position < total - byteLength behind
    ∧ total - byteLength behind ≤ l'.position

section

variable {total : Nat} {inside : Bool} {cs behind : List Char} {l l' : Lexeme} {ls : List Lexeme}

/-- Text in front of the rest moves no token. -/
theorem Occupies.prepend (h : Occupies total cs l behind) (text : List Char) :
    Occupies total (text ++ cs) l behind := by
  obtain ⟨before, own, rfl, hown, hposition⟩ := h
  exact ⟨text ++ before, own, (List.append_assoc ..).symm, hown, hposition⟩

theorem EndsBefore.prepend (h : EndsBefore total cs l l') (text : List Char) :
    EndsBefore total (text ++ cs) l l' := by
  obtain ⟨behind, hplace, hordered⟩ := h
  exact ⟨behind, hplace.prepend text, hordered⟩

/-- A token of the rest of a text does not stand in front of the rest. -/
theorem Occupies.le_position (h : Occupies total cs l behind) : total - byteLength cs ≤ l.position := by
  obtain ⟨before, own, rfl, -, hposition⟩ := h
  rw [hposition, byteLength_append before]
  omega

/-- Each token stands somewhere. -/
theorem Laid.exists_occupies (h : Laid total inside ls cs) : ∀ l ∈ ls, ∃ behind, Occupies total cs l behind := by
  induction h with
  | finish =>
    refine List.forall_mem_singleton.2 ⟨[], [], [], rfl, .finish, ?_⟩
    rfl
  | @token inside token own rest ls hne hown _ ih =>
    refine List.forall_mem_cons.2 ⟨⟨rest, [], own, rfl, hown, rfl⟩, fun l hl => ?_⟩
    obtain ⟨behind, hplace⟩ := ih l hl
    exact ⟨behind, hplace.prepend own⟩
  | @blank c rest ls _ _ ih =>
    intro l hl
    obtain ⟨behind, hplace⟩ := ih l hl
    exact ⟨behind, hplace.prepend [c]⟩
  | broken lost _ _ ih =>
    intro l hl
    obtain ⟨behind, hplace⟩ := ih l hl
    exact ⟨behind, hplace.prepend lost⟩

theorem Laid.le_position (h : Laid total inside ls cs) (hl : l ∈ ls) : total - byteLength cs ≤ l.position := by
  obtain ⟨behind, hplace⟩ := h.exists_occupies l hl
  exact hplace.le_position

/-- Each token ends before the next ones start. -/
theorem Laid.pairwise (h : Laid total inside ls cs) (hle : byteLength cs ≤ total) :
    ls.Pairwise (EndsBefore total cs) := by
  induction h with
  | finish => exact List.pairwise_singleton _ _
  | @token inside token own rest ls hne hown h ih =>
    rw [byteLength_append] at hle
    refine List.pairwise_cons.2 ⟨fun l' hl' => ?_, (ih (by omega)).imp (·.prepend own)⟩
    refine ⟨rest, ⟨[], own, rfl, hown, rfl⟩, ?_, h.le_position hl'⟩
    have hpos := byteLength_pos hne
    show total - byteLength (own ++ rest) < total - byteLength rest
    rw [byteLength_append]
    omega
  | @blank c rest ls _ _ ih =>
    rw [← List.singleton_append, byteLength_append] at hle
    exact (ih (by omega)).imp (·.prepend [c])
  | @broken inside rest ls lost _ _ ih =>
    rw [byteLength_append] at hle
    exact (ih (by omega)).imp (·.prepend lost)

end

/-! ## Rule lists that are closed -/

/-- Each rule list is closed, and up to there it has only tokens that rule lists have. -/
def RulesClosed : Bool → List Token → Prop
  | inside, [] => inside = false
  | inside, token :: ts => (inside = true → ¬ EndsRules token) ∧ RulesClosed (token.inRules inside) ts

theorem RulesClosed.append {inside : Bool} {ts us : List Token} (h : RulesClosed inside ts)
    (h' : RulesClosed false us) : RulesClosed inside (ts ++ us) := by
  induction ts generalizing inside with
  | nil =>
    obtain rfl : inside = false := h
    exact h'
  | cons token ts ih => exact ⟨h.1, ih h.2⟩

theorem RulesClosed.outside {token : Token} {ts : List Token} (h : RulesClosed (token.inRules false) ts) :
    RulesClosed false (token :: ts) :=
  ⟨fun hinside => absurd hinside Bool.false_ne_true, h⟩

theorem rulesClosed_of_forall {ts : List Token} (h : ∀ token ∈ ts, token.inRules false = false) :
    RulesClosed false ts := by
  induction ts with
  | nil => rfl
  | cons token ts ih =>
    obtain ⟨htoken, hts⟩ := List.forall_mem_cons.1 h
    refine .outside ?_
    rw [htoken]
    exact ih hts

theorem CallForm.rulesClosed {ts us : List Token} {call : RuleCall} (h : CallForm ts call)
    (h' : RulesClosed true us) : RulesClosed true (ts ++ us) := by
  cases h with
  | bare => exact ⟨fun _ => id, h'⟩
  | applied => exact ⟨fun _ => id, fun _ => id, h'⟩

theorem RulesForm.rulesClosed {ts : List Token} {calls : List RuleCall} (h : RulesForm ts calls) :
    RulesClosed true ts := by
  induction h with
  | last h => exact h.rulesClosed ⟨fun _ => id, rfl⟩
  | more h _ ih => exact h.rulesClosed ⟨fun _ => id, ih⟩

theorem VariableForm.rulesClosed {ts : List Token} {tree : Tree} (h : VariableForm ts tree) :
    RulesClosed false ts := by
  cases h with
  | intro name hrules hdefault =>
    refine .outside (.outside (.append ?_ ?_))
    · cases hrules with
      | absent => rfl
      | given h => exact .outside h.rulesClosed
    · cases hdefault with
      | absent => rfl
      | given => exact rulesClosed_of_forall (by simp [Token.inRules])

/-- In a template rule lists are closed. -/
theorem PartsForm.rulesClosed {depth : Nat} {ts : List Token} {parts : List Tree}
    (h : PartsForm depth ts parts) : RulesClosed false ts := by
  induction h with
  | nil => rfl
  | @literal depth ts run parts texts _ _ _ hrun ih =>
    refine ih.append (rulesClosed_of_forall fun token htoken => ?_)
    have htext : token.literalText? ∈ texts.map some := hrun ▸ List.mem_map_of_mem htoken
    obtain ⟨text, -, htext⟩ := List.mem_map.1 htext
    cases token with
    | rulesOpen => cases htext
    | _ => rfl
  | «variable» _ hpart ih => exact ih.append hpart.rulesClosed
  | «optional» _ _ _ ih ihown =>
    have hclose : RulesClosed false [.optionalClose] := rulesClosed_of_forall (by simp [Token.inRules])
    exact ih.append (.outside (ihown.append hclose))

theorem rulesClosed_of_parse {raw : String} {tree : Tree} (h : Tree.parse raw = .ok tree) :
    RulesClosed false ((tokenize raw).map (·.token)) := by
  obtain ⟨last, hread⟩ := exists_parse_eq raw.toList
  rw [String.ofList_toList, h] at hread
  obtain ⟨parts, -, hform⟩ := exists_partsForm_of_readSegments hread.symm (.whole .nil)
  obtain ⟨ts, hscan, hcontent⟩ := exists_scan_eq_append (byteLength raw.toList) .segments raw.toList
  rw [List.nil_append, hcontent] at hform
  have hfinish : RulesClosed false [.finish] := rulesClosed_of_forall (by simp [Token.inRules])
  rw [tokenize, hscan, List.map_append]
  exact hform.rulesClosed.append hfinish

/-! ## Coverage -/

/-- A byte in front of the first parenthesis that closes a rule list. -/
def ClosesBehind (ls : List Lexeme) (place : Nat) : Prop :=
  ∃ between close behind, ls = between ++ close :: behind ∧ close.token = .rulesClose
    ∧ (∀ l ∈ between, l.token ≠ .rulesClose) ∧ place < close.position

/-- A byte between a parenthesis that opens a rule list and the next that closes one. -/
def InRuleList (ls : List Lexeme) (place : Nat) : Prop :=
  ∃ before paren behind, ls = before ++ paren :: behind ∧ paren.token = .rulesOpen ∧ paren.position < place
    ∧ ClosesBehind behind place

theorem ClosesBehind.cons {ls : List Lexeme} {place : Nat} (h : ClosesBehind ls place) {l : Lexeme}
    (hl : l.token ≠ .rulesClose) : ClosesBehind (l :: ls) place := by
  obtain ⟨between, close, behind, rfl, hclose, hbetween, hplace⟩ := h
  exact ⟨l :: between, close, behind, rfl, hclose, List.forall_mem_cons.2 ⟨hl, hbetween⟩, hplace⟩

theorem InRuleList.cons {ls : List Lexeme} {place : Nat} (h : InRuleList ls place) (l : Lexeme) :
    InRuleList (l :: ls) place := by
  obtain ⟨before, paren, behind, rfl, hopen⟩ := h
  exact ⟨l :: before, paren, behind, rfl, hopen⟩

/-- An open rule list is closed behind every byte in front of its tokens. -/
theorem closesBehind_of_rulesClosed {ls : List Lexeme} {place : Nat}
    (h : RulesClosed true (ls.map (·.token))) (hplace : ∀ l ∈ ls, place < l.position) :
    ClosesBehind ls place := by
  induction ls with
  | nil => cases h
  | cons l ls ih =>
    obtain ⟨hl, hls⟩ := List.forall_mem_cons.1 hplace
    by_cases hclose : l.token = .rulesClose
    · exact ⟨[], l, ls, rfl, hclose, List.forall_mem_nil _, hl⟩
    · refine (ih ?_ hls).cons hclose
      have hrest := h.2
      have hinside : l.token.inRules true = true := by
        cases htoken : l.token <;> simp_all [Token.inRules]
      rwa [hinside] at hrest

/-- A character of two texts one after another belongs to one of them. -/
theorem append_eq_append_cons {own rest before after : List Char} {c : Char}
    (h : own ++ rest = before ++ c :: after) :
    (∃ between, before = own ++ between ∧ rest = between ++ c :: after)
      ∨ ∃ between, own = before ++ c :: between ∧ after = between ++ rest := by
  rcases List.append_eq_append_iff.1 h with hrest | ⟨between, rfl, hrest⟩
  · exact Or.inl hrest
  · cases between with
    | nil => exact Or.inl ⟨[], by simp, hrest.symm⟩
    | cons d between =>
      cases hrest
      exact Or.inr ⟨between, rfl, rfl⟩

/-- A token holds the character in front of some end of the text. -/
def Held (total : Nat) (cs : List Char) (ls : List Lexeme) (c : Char) (after : List Char) : Prop :=
  ∃ l ∈ ls, ∃ behind, Occupies total cs l behind ∧ l.position ≤ total - byteLength (c :: after)
    ∧ byteLength behind ≤ byteLength after

/-- A byte in a rule list, which may be open in front of the tokens. -/
def InList (inside : Bool) (ls : List Lexeme) (place : Nat) : Prop :=
  InRuleList ls place ∨ inside = true ∧ ClosesBehind ls place

section

variable {total : Nat} {inside : Bool} {cs after : List Char} {c : Char} {l : Lexeme} {ls : List Lexeme}

theorem Held.prepend (h : Held total cs ls c after) (text : List Char) (front : List Lexeme) :
    Held total (text ++ cs) (front ++ ls) c after := by
  obtain ⟨l, hl, behind, hplace, hbounds⟩ := h
  exact ⟨l, List.mem_append_right front hl, behind, hplace.prepend text, hbounds⟩

/-- What is in a rule list behind a token is in one that opens at the token or in front of it. -/
theorem InList.cons {place : Nat} (h : InList (l.token.inRules inside) ls place)
    (hposition : l.position < place) : InList inside (l :: ls) place := by
  rcases h with hlist | ⟨hinside, hcloses⟩
  · exact Or.inl (hlist.cons l)
  cases htoken : l.token with
  | rulesOpen => exact Or.inl ⟨[], l, ls, rfl, htoken, hposition, hcloses⟩
  | rulesClose =>
    rw [htoken] at hinside
    cases hinside
  | _ =>
    rw [htoken] at hinside
    exact Or.inr ⟨hinside, hcloses.cons (by simp [htoken])⟩

/-- Where rule lists are closed, each character belongs to a token or is a blank in a rule list. -/
theorem Laid.covers (h : Laid total inside ls cs) (hle : byteLength cs ≤ total)
    (hclosed : RulesClosed inside (ls.map (·.token))) {before : List Char} (hcs : cs = before ++ c :: after) :
    Held total cs ls c after
      ∨ Text.isAsciiBlank c = true ∧ InList inside ls (total - byteLength (c :: after)) := by
  induction h generalizing before with
  | finish => simp at hcs
  | @token inside token own rest ls hne hown h ih =>
    have hpos := byteLength_pos hne
    rw [byteLength_append] at hle
    -- the character is behind the token or in it
    rcases append_eq_append_cons hcs with ⟨between, rfl, hrest⟩ | ⟨between, rfl, rfl⟩
    · have hbefore : byteLength (c :: after) ≤ byteLength rest := by
        rw [hrest, byteLength_append]
        omega
      have hposition : total - byteLength (own ++ rest) < total - byteLength (c :: after) := by
        rw [byteLength_append]
        omega
      rcases ih (by omega) hclosed.2 hrest with hheld | ⟨hblank, hlist⟩
      · exact Or.inl (hheld.prepend own [_])
      · exact Or.inr ⟨hblank, hlist.cons hposition⟩
    · refine Or.inl ⟨_, List.mem_cons_self, rest, ⟨[], _, rfl, hown, rfl⟩, ?_, ?_⟩
      · show total - byteLength _ ≤ total - byteLength _
        rw [List.append_assoc, byteLength_append before, List.cons_append]
        omega
      · rw [byteLength_append]
        omega
  | @blank d rest ls hc h ih =>
    rw [← List.singleton_append, byteLength_append] at hle
    rcases @append_eq_append_cons [d] _ _ _ _ hcs with ⟨between, rfl, hrest⟩ | ⟨between, hd, rfl⟩
    · rcases ih (by omega) hclosed hrest with hheld | hblank
      · exact Or.inl (hheld.prepend [d] [])
      · exact Or.inr hblank
    · obtain ⟨rfl, heq⟩ := List.append_eq_singleton_iff.1 hd.symm |>.resolve_right (by simp)
      cases heq
      have hpos := byteLength_pos (List.cons_ne_nil c [])
      refine Or.inr ⟨hc, Or.inr ⟨rfl, closesBehind_of_rulesClosed hclosed fun l hl => ?_⟩⟩
      have hposition := h.le_position hl
      rw [List.nil_append, ← List.singleton_append, byteLength_append]
      omega
  | @broken inside rest ls lost hends h ih =>
    -- the token behind the lost text is one that no closed rule list has
    exfalso
    cases ls with
    | nil => cases hclosed
    | cons l ls => exact hclosed.1 rfl (hends l rfl)

end

end Template

/-! ## Main statement -/

/-- Where a token stands in a text, from its position up to byte `stop`. -/
def Lexeme.Spans (l : Lexeme) (raw : String) (stop : Nat) : Prop :=
  ∃ before own after : String, raw = before ++ own ++ after ∧ l.token.WrittenAs own.toList
    ∧ l.position = before.utf8ByteSize ∧ stop = (before ++ own).utf8ByteSize

namespace Template

variable {raw : String} {l : Lexeme} {stop stop' : Nat}

/-- A token of a text ends at one place. -/
theorem spans_unique (h : l.Spans raw stop) (h' : l.Spans raw stop') : stop = stop' := by
  obtain ⟨before, own, after, rfl, hown, hposition, rfl⟩ := h
  obtain ⟨before', own', after', heq, hown', hposition', rfl⟩ := h'
  have hchars : before.toList ++ (own.toList ++ after.toList)
      = before'.toList ++ (own'.toList ++ after'.toList) := by
    simpa using congrArg String.toList heq
  have hlength : byteLength before.toList = byteLength before'.toList := by
    rw [byteLength_eq, byteLength_eq, String.ofList_toList, String.ofList_toList, ← hposition, hposition']
  have hsame := hown.append_inj hown' (eq_of_byteLength hchars hlength)
  rw [String.utf8ByteSize_append, String.utf8ByteSize_append, ← hposition, hposition',
    String.toList_inj.1 hsame]

theorem utf8ByteSize_eq (s : String) : s.utf8ByteSize = byteLength s.toList := by
  rw [byteLength_eq, String.ofList_toList]

/-- A token that is laid out in a text spans what it is written as. -/
theorem spans_of_occupies {behind : List Char} (h : Occupies raw.utf8ByteSize raw.toList l behind) :
    l.Spans raw (raw.utf8ByteSize - byteLength behind) := by
  obtain ⟨before, own, hraw, hown, hposition⟩ := h
  have hsize : raw.utf8ByteSize = byteLength before + (byteLength own + byteLength behind) := by
    rw [utf8ByteSize_eq, hraw, byteLength_append, byteLength_append]
  refine ⟨.ofList before, .ofList own, .ofList behind, ?_, by rwa [String.toList_ofList], ?_, ?_⟩
  · rw [← String.ofList_append, ← String.ofList_append, List.append_assoc, ← hraw, String.ofList_toList]
  · rw [hposition, utf8ByteSize_eq (String.ofList _), String.toList_ofList, byteLength_append]
    omega
  · rw [← String.ofList_append, utf8ByteSize_eq (String.ofList _), String.toList_ofList, byteLength_append]
    omega

theorem laid_tokenize (raw : String) : Laid raw.utf8ByteSize false (tokenize raw) raw.toList := by
  rw [tokenize, utf8ByteSize_eq]
  exact laidIn _ .segments _

/-- The end is marked once, behind the other tokens. -/
theorem exists_tokenize_eq_append (raw : String) :
    ∃ ls, tokenize raw = ls ++ [⟨.finish, raw.utf8ByteSize⟩] ∧ ∀ l ∈ ls, l.token.isFinish = false := by
  obtain ⟨ls, hscan, hcontent⟩ := exists_scan_eq_append (byteLength raw.toList) .segments raw.toList
  refine ⟨ls, by rw [utf8ByteSize_eq, tokenize, hscan], fun l hl => ?_⟩
  have htoken : l.token ∈ ls.map (·.token) := List.mem_map_of_mem hl
  rw [← hcontent] at htoken
  simpa using List.mem_takeWhile_imp htoken

/-- Each character of a template belongs to a token or is a blank in a rule list. -/
theorem covered_of_parse {tree : Tree} (htree : Tree.parse raw = .ok tree) {before after : String} {c : Char}
    (hraw : raw = before ++ String.singleton c ++ after) :
    (∃ l ∈ tokenize raw, ∃ stop, l.Spans raw stop ∧ l.position ≤ before.utf8ByteSize
        ∧ (before ++ String.singleton c).utf8ByteSize ≤ stop)
      ∨ Text.isAsciiBlank c = true ∧ InRuleList (tokenize raw) before.utf8ByteSize := by
  have hchars : raw.toList = before.toList ++ c :: after.toList := by
    rw [hraw]
    simp
  have hsize : raw.utf8ByteSize = before.utf8ByteSize + byteLength (c :: after.toList) := by
    rw [utf8ByteSize_eq, hchars, byteLength_append, ← utf8ByteSize_eq]
  have hplace : raw.utf8ByteSize - byteLength (c :: after.toList) = before.utf8ByteSize := by omega
  have hcovered := (laid_tokenize raw).covers (utf8ByteSize_eq raw).ge (rulesClosed_of_parse htree) hchars
  rw [hplace] at hcovered
  rcases hcovered with ⟨l, hl, behind, hstands, hstart, hstop⟩ | ⟨hblank, hlist | ⟨hinside, -⟩⟩
  · rw [hplace] at hstart
    refine Or.inl ⟨l, hl, _, spans_of_occupies hstands, hstart, ?_⟩
    have hbehind : byteLength (c :: after.toList) = byteLength [c] + byteLength after.toList :=
      byteLength_append [c] after.toList
    rw [String.utf8ByteSize_append, utf8ByteSize_eq (String.singleton c), String.toList_singleton]
    omega
  · exact Or.inr ⟨hblank, hlist⟩
  · cases hinside

/-- The tokens of a text stand in it one after another, each where it is written, and the end is marked behind
them. If the text is a template, they are all of it but for the blanks in rule lists. -/
theorem spans_tokenize (raw : String) :
    (∃ ls, tokenize raw = ls ++ [⟨.finish, raw.utf8ByteSize⟩] ∧ ∀ l ∈ ls, l.token.isFinish = false)
      ∧ (tokenize raw).Pairwise (fun l l' => l.position < l'.position)
      ∧ (∀ l ∈ tokenize raw, ∃ stop, l.Spans raw stop)
      ∧ (tokenize raw).Pairwise (fun l l' => ∀ stop, l.Spans raw stop → stop ≤ l'.position)
      ∧ ∀ tree, Tree.parse raw = .ok tree →
        ∀ (before after : String) (c : Char), raw = before ++ String.singleton c ++ after →
          (∃ l ∈ tokenize raw, ∃ stop, l.Spans raw stop ∧ l.position ≤ before.utf8ByteSize
              ∧ (before ++ String.singleton c).utf8ByteSize ≤ stop)
            ∨ Text.isAsciiBlank c = true ∧ InRuleList (tokenize raw) before.utf8ByteSize := by
  have hlaid := laid_tokenize raw
  have hordered := hlaid.pairwise (utf8ByteSize_eq raw).ge
  refine ⟨exists_tokenize_eq_append raw, ?_, ?_, ?_, ?_⟩
  · refine hordered.imp ?_
    rintro l l' ⟨behind, -, hlt, hle⟩
    exact hlt.trans_le hle
  · intro l hl
    obtain ⟨behind, hplace⟩ := hlaid.exists_occupies l hl
    exact ⟨_, spans_of_occupies hplace⟩
  · refine hordered.imp ?_
    rintro l l' ⟨behind, hplace, -, hle⟩ stop hstop
    rwa [spans_unique hstop (spans_of_occupies hplace)]
  · exact fun tree htree before after c hraw => covered_of_parse htree hraw

/-- A parenthesis in a quoted argument belongs to a token. -/
theorem spans_tokenize_quoted :
    let tree := Tree.sequence [.literal "é", .variable "x" [⟨"in", [.string ")"]⟩] none]
    Tree.parse "é:x( in(\")\"))" = .ok tree
      ∧ ∃ l ∈ tokenize "é:x( in(\")\"))", ∃ stop, l.Spans "é:x( in(\")\"))" stop
        ∧ l.position ≤ "é:x( in(\"".utf8ByteSize ∧ "é:x( in(\")".utf8ByteSize ≤ stop := by
  have h : Tree.parse "é:x( in(\")\"))" = .ok (.sequence [.literal "é",
      .variable "x" [⟨"in", [.string ")"]⟩] none]) := by
    cbv
    exact eq_of_bind_read (by cbv)
  refine ⟨h, ?_⟩
  obtain ⟨-, -, -, -, hcovered⟩ := spans_tokenize "é:x( in(\")\"))"
  rcases hcovered _ h "é:x( in(\"" "\"))" ')' rfl with htoken | ⟨hblank, -⟩
  · exact htoken
  · exact absurd hblank (by decide)

end Template

end UriRouting
