import UriRouting.Proofs.Number.Decimal
import UriRouting.Proofs.Template.Grammatical
/-!
# Trees in template syntax

A tree that was read from a text is written back as a text that reads as the same tree. Each part is
read back on its own: in front of it stand parts that it adjoins, and behind it comes what is not taken
to be a part of it.

* `readArguments_joinCommas`, `readRules_joinCommas` and `readVariable_written` read back the pieces of a
  variable;
* `ReadsBack` says that a part is read back, and `readsBack_of_grammatical` that every part of a template
  is;
* `exists_parse_eq_ok_iff` and `parse_text` are the main statements.
-/

namespace UriRouting

open UriRouting.Number UriRouting.Tree UriRouting.Template

namespace Template

/-! ## Arguments -/

/-- A text in quotes reads as the text, whatever its characters. -/
theorem readQuoted_escaped (cs rest : List Char) :
    readQuoted (cs.flatMap (fun c => if c == '"' || c == '\\' then ['\\', c] else [c]) ++ '"' :: rest)
      = some (cs, rest) := by
  induction cs with
  | nil => rfl
  | cons c cs ih =>
    rw [List.flatMap_cons, List.append_assoc]
    generalize cs.flatMap _ ++ '"' :: rest = written at ih ⊢
    by_cases hquote : c = '"'
    · subst hquote
      simp [readQuoted, ih]
    by_cases hslash : c = '\\'
    · subst hslash
      simp [readQuoted, ih]
    · simp [readQuoted, hquote, hslash, ih]

/-- A character that stands for itself in a bare argument. -/
def isBare (c : Char) : Bool :=
  !endsArgument c && c != '"' && !Text.isBlank c

theorem isBare_of_isNumeric {c : Char} (h : Binary64.isNumeric c = true) : isBare c = true := by
  by_cases hc : c.isDigit = true
  · have hrange : 48 ≤ c.toNat ∧ c.toNat ≤ 57 := by
      simpa [Char.isDigit, UInt32.le_iff_toNat_le] using hc
    have hdigits : ∀ n ≤ 57, 48 ≤ n → isBare (Char.ofNat n) = true := by decide
    rw [← Char.ofNat_toNat c]
    exact hdigits c.toNat hrange.2 hrange.1
  · simp only [Binary64.isNumeric, hc, Bool.false_or, Bool.or_eq_true, beq_iff_eq] at h
    rcases h with (((((((rfl | rfl) | rfl) | rfl) | rfl) | rfl) | rfl) | rfl) <;> decide

theorem trimBlanks_of_isBare {cs : List Char} (h : ∀ c ∈ cs, isBare c = true) :
    Text.trimBlanks cs = cs := by
  have hkeep : ∀ ds : List Char, (∀ c ∈ ds, isBare c = true) → ds.dropWhile Text.isBlank = ds := by
    intro ds hds
    cases ds with
    | nil => rfl
    | cons d ds =>
      have hd := hds d List.mem_cons_self
      exact List.dropWhile_cons_of_neg (by simp_all [isBare])
  rw [Text.trimBlanks, hkeep cs h, hkeep cs.reverse (by simpa using h), List.reverse_reverse]

/-- What an argument list does at its first character that is no blank. -/
theorem readArguments_of_dropWhile {c : Char} {cs rest : List Char}
    (h : cs.dropWhile Text.isAsciiBlank = c :: rest) :
    readArguments cs =
      if c == '(' then (none, c :: rest)
      else if c == ')' then (some [], rest)
      else if c == ',' then readArguments rest
      else if c == '"' then
        match readQuoted rest with
        | none => (none, [])
        | some (text, left) =>
          ((readArguments left).1.map (.string (String.ofList text) :: ·), (readArguments left).2)
      else
        let left := readArguments (rest.dropWhile (!endsArgument ·))
        (left.1.map (.ofLiteral (String.ofList
          (Text.trimBlanks (c :: rest.takeWhile (!endsArgument ·)))) :: ·), left.2) := by
  rw [readArguments]
  split
  · rename_i hnil
    rw [h] at hnil
    cases hnil
  · rename_i d rest' hcons
    rw [h] at hcons
    cases hcons
    split
    · rfl
    split
    · rfl
    split
    · rfl
    split
    · split <;> simp_all
    · rfl

/-- A text in quotes is one argument. -/
theorem readArguments_quote {cs text rest : List Char} (h : readQuoted cs = some (text, rest)) :
    readArguments ('"' :: cs) = ((readArguments rest).1.map (.string (String.ofList text) :: ·),
      (readArguments rest).2) := by
  rw [readArguments_of_dropWhile (List.dropWhile_cons_of_neg (by decide)), if_neg (by decide),
    if_neg (by decide), if_neg (by decide), if_pos (by decide), h]

/-- A text that ends where the next argument does, or the list, is one argument. -/
theorem readArguments_word {c : Char} {word rest : List Char} (hblank : Text.isAsciiBlank c = false)
    (hends : endsArgument c = false) (hquote : c ≠ '"') (hword : ∀ d ∈ word, endsArgument d = false)
    (hrest : ∀ d ∈ rest.head?, endsArgument d = true) :
    readArguments (c :: word ++ rest)
      = ((readArguments rest).1.map
          (.ofLiteral (String.ofList (Text.trimBlanks (c :: word))) :: ·), (readArguments rest).2) := by
  have hrun : ∀ d ∈ word, (!endsArgument d) = true := fun d hd => by rw [hword d hd, Bool.not_false]
  have hstop : ∀ d ∈ rest.head?, (!endsArgument d) = false :=
    fun d hd => by rw [hrest d hd, Bool.not_true]
  simp only [endsArgument, Bool.or_eq_false_iff] at hends
  rw [List.cons_append, readArguments_of_dropWhile (List.dropWhile_cons_of_neg (by simp [hblank])),
    hends.1.1, hends.1.2, hends.2, beq_false_of_ne hquote, Text.takeWhile_run_append hrun hstop,
    Text.dropWhile_run_append hrun hstop]
  simp only [Bool.false_eq_true, if_false]

section

variable (more : List Char)

theorem readArguments_close : readArguments (')' :: more) = (some [], more) := by
  rw [readArguments_of_dropWhile (List.dropWhile_cons_of_neg (by decide))]
  rfl

theorem readArguments_comma : readArguments (',' :: more) = readArguments more := by
  rw [readArguments_of_dropWhile (List.dropWhile_cons_of_neg (by decide))]
  rfl

theorem readArguments_quoted (cs : List Char) :
    readArguments (Text.quoteArgument cs ++ more)
      = ((readArguments more).1.map (.string (String.ofList cs) :: ·), (readArguments more).2) := by
  have hquoted : Text.quoteArgument cs ++ more
      = '"' :: (cs.flatMap (fun c => if c == '"' || c == '\\' then ['\\', c] else [c]) ++ '"' :: more) := by
    simp [Text.quoteArgument]
  rw [hquoted, readArguments_quote (readQuoted_escaped cs more)]

theorem readArguments_bare {word : List Char} (hne : word ≠ [])
    (hword : ∀ c ∈ word, isBare c = true) {stop : Char} (hstop : endsArgument stop = true) :
    readArguments (word ++ stop :: more)
      = ((readArguments (stop :: more)).1.map (.ofLiteral (String.ofList word) :: ·),
        (readArguments (stop :: more)).2) := by
  have hends : ∀ c ∈ word, endsArgument c = false := fun c hc => by
    have := hword c hc
    simp_all [isBare]
  have htrim := trimBlanks_of_isBare hword
  obtain ⟨c, cs, rfl⟩ := List.exists_cons_of_ne_nil hne
  obtain ⟨hc, hcs⟩ := List.forall_mem_cons.1 hends
  have hbare := hword c List.mem_cons_self
  have hblank : Text.isAsciiBlank c = false := by
    cases hascii : Text.isAsciiBlank c with
    | false => rfl
    | true => simp [isBare, Text.isBlank_of_isAsciiBlank hascii] at hbare
  have hquote : c ≠ '"' := by
    rintro rfl
    simp [isBare] at hbare
  rw [readArguments_word hblank hc hquote hcs (by simpa using hstop), htrim]

end

/-! ## Values as arguments -/

theorem looksNumeric_of_isDigit {c : Char} (hc : c.isDigit = true) (cs : List Char) :
    Value.looksNumeric (c :: cs) = true := by
  unfold Value.looksNumeric
  split <;> simp_all

/-- A finite number is written so that it reads as this number and not as an integer. -/
theorem ofLiteral_write {x : Binary64} (h : x.isFinite = true) :
    Value.ofLiteral (String.ofList (x.write Binary64.argumentStyle)) = .float x := by
  have hlooks : Value.looksNumeric (x.write Binary64.argumentStyle) = true := by
    obtain ⟨c, cs, hbody, hc⟩ := Binary64.exists_cons_bodyChars Binary64.argumentStyle h
    rw [Binary64.write_eq _ h, hbody]
    split
    · simp [Value.looksNumeric, hc]
    · exact looksNumeric_of_isDigit hc cs
  simp [Value.ofLiteral, Binary64.readInteger_write h, Binary64.ofText?_write _ h, hlooks, h,
    Option.filter_some]

theorem ofLiteral_writeInteger (i : Int64) :
    Value.ofLiteral (String.ofList (writeInteger i)) = .int i := by
  simp [Value.ofLiteral, readInteger_writeInteger]

theorem ofLiteral_bool (b : Bool) : Value.ofLiteral (Value.bool b).text = .bool b := by
  cases b <;> decide

/-- A value in an argument list reads as itself. -/
theorem readArguments_argument {value : Value} (h : value.IsArgument) (more : List Char) {stop : Char}
    (hstop : endsArgument stop = true) :
    readArguments (value.argumentChars ++ stop :: more)
      = ((readArguments (stop :: more)).1.map (value :: ·), (readArguments (stop :: more)).2) := by
  cases value with
  | string s =>
    have hquoted := readArguments_quoted (stop :: more) s.toList
    rwa [String.ofList_toList] at hquoted
  | int i =>
    have hchars : (Value.int i).argumentChars = writeInteger i := String.toList_ofList
    have hne : writeInteger i ≠ [] := writeSigned_ne_nil _
    rw [hchars, readArguments_bare more hne ?_ hstop, ofLiteral_writeInteger]
    exact fun c hc => isBare_of_isNumeric (Binary64.isNumeric_of_mem_writeSigned _ c hc)
  | float x =>
    rw [Value.argumentChars, readArguments_bare more (Binary64.write_ne_nil _ x) ?_ hstop, ofLiteral_write h]
    exact fun c hc => isBare_of_isNumeric (Binary64.isNumeric_of_mem_write _ x c hc)
  | bool b =>
    have hchars : (Value.bool b).argumentChars = (Value.bool b).text.toList := rfl
    rw [hchars, readArguments_bare more ?_ ?_ hstop, String.ofList_toList, ofLiteral_bool]
    · cases b <;> decide
    · cases b <;> simp [Value.text, isBare, endsArgument] <;> decide

/-- An argument list reads as its values. -/
theorem readArguments_joinCommas {values : List Value} (hne : values ≠ [])
    (h : ∀ value ∈ values, value.IsArgument) (more : List Char) :
    readArguments (Text.joinCommas (values.map Value.argumentChars) ++ ')' :: more)
      = (some values, more) := by
  induction values with
  | nil => exact absurd rfl hne
  | cons value values ih =>
    obtain ⟨hvalue, hvalues⟩ := List.forall_mem_cons.1 h
    cases values with
    | nil =>
      rw [List.map_singleton, Text.joinCommas, readArguments_argument hvalue more (by decide),
        readArguments_close]
      rfl
    | cons value' values =>
      have hmore := ih (List.cons_ne_nil _ _) hvalues
      have hjoin : Text.joinCommas ((value :: value' :: values).map Value.argumentChars) ++ ')' :: more
          = value.argumentChars
            ++ ',' :: (Text.joinCommas ((value' :: values).map Value.argumentChars) ++ ')' :: more) := by
        simp [Text.joinCommas]
      rw [hjoin, readArguments_argument hvalue _ (by decide), readArguments_comma, hmore]
      rfl

/-! ## Rules -/

section

variable (total : Nat)

theorem scan_rules_close (cs : List Char) :
    scan total .rules (')' :: cs)
      = ⟨.rulesClose, total - byteLength (')' :: cs)⟩ :: scan total .default cs := by
  rw [scan]
  simp [step, Text.isAsciiBlank]

theorem scan_rules_comma (cs : List Char) :
    scan total .rules (',' :: cs)
      = ⟨.comma, total - byteLength (',' :: cs)⟩ :: scan total .rules cs := by
  rw [scan]
  simp [step, Text.isAsciiBlank]

/-- At the first letter of a name, a rule list goes on with a rule. -/
theorem ne_of_startsName {c : Char} (h : startsName c = true) :
    Text.isAsciiBlank c = false ∧ c ≠ ')' ∧ c ≠ ',' := by
  refine ⟨?_, ?_, ?_⟩
  · by_contra hblank
    simp only [Text.isAsciiBlank, Bool.not_eq_false, Bool.or_eq_true, beq_iff_eq] at hblank
    rcases hblank with (((rfl | rfl) | rfl) | rfl) | rfl <;> cases h
  · rintro rfl
    cases h
  · rintro rfl
    cases h

/-- A rule without arguments. -/
theorem scan_rules_slug {name rest : List Char} (hname : IsName name)
    (hrest : ∀ c ∈ rest.head?, continuesName c = false ∧ c ≠ '(') :
    scan total .rules (name ++ rest)
      = ⟨.identifier (String.ofList name), total - byteLength (name ++ rest)⟩
        :: scan total .rules rest := by
  have htake : takeName? (name ++ rest) = some (name, rest) :=
    takeName?_eq_some_iff.2 ⟨rfl, hname, fun c hc => (hrest c hc).1⟩
  obtain ⟨c, cs, rfl, hstart, -⟩ := hname
  obtain ⟨hblank, hclose, hcomma⟩ := ne_of_startsName hstart
  rw [List.cons_append] at htake ⊢
  rw [scan]
  cases rest with
  | nil =>
    rw [List.append_nil] at htake ⊢
    simp [step, hblank, hclose, hcomma, htake]
  | cons d rest => simp [step, hblank, hclose, hcomma, htake, (hrest d rfl).2]

/-- A rule with an argument list, which is dropped if it breaks off. -/
theorem scan_rules_paren {name : List Char} (hname : IsName name) (more : List Char) :
    scan total .rules (name ++ '(' :: more)
      = ⟨.identifier (String.ofList name), total - byteLength (name ++ '(' :: more)⟩
        :: match readArguments more with
          | (some values, left) =>
            ⟨.arguments values, total - byteLength ('(' :: more)⟩ :: scan total .rules left
          | (none, left) => scan total .rules left := by
  have htake : takeName? (name ++ '(' :: more) = some (name, '(' :: more) := by
    refine takeName?_eq_some_iff.2 ⟨rfl, hname, ?_⟩
    rintro _ ⟨⟩
    rfl
  obtain ⟨c, cs, rfl, hstart, -⟩ := hname
  obtain ⟨hblank, hclose, hcomma⟩ := ne_of_startsName hstart
  rw [List.cons_append] at htake ⊢
  rw [scan]
  rcases hread : readArguments more with ⟨_ | values, left⟩
  · simp [step, hblank, hclose, hcomma, htake, hread]
  · simp [step, hblank, hclose, hcomma, htake, hread]

/-- A rule with arguments. -/
theorem scan_rules_call {name more left : List Char} {values : List Value} (hname : IsName name)
    (hvalues : readArguments more = (some values, left)) :
    scan total .rules (name ++ '(' :: more)
      = ⟨.identifier (String.ofList name), total - byteLength (name ++ '(' :: more)⟩
        :: ⟨.arguments values, total - byteLength ('(' :: more)⟩ :: scan total .rules left := by
  rw [scan_rules_paren total hname, hvalues]

/-- A rule is read with its arguments, up to what ends it. -/
theorem exists_scan_rules {call : RuleCall} (h : call.IsListed) (more : List Char) {stop : Char}
    (hstop : stop = ',' ∨ stop = ')') :
    ∃ position rest, scan total .rules (call.chars ++ stop :: more)
        = ⟨.identifier call.slug, position⟩ :: rest
      ∧ takeArguments rest = (call.arguments, scan total .rules (stop :: more)) := by
  obtain ⟨slug, arguments⟩ := call
  obtain ⟨hname, harguments⟩ := h
  cases arguments with
  | nil =>
    have hends : ∀ c ∈ (stop :: more).head?, continuesName c = false ∧ c ≠ '(' := by
      rintro _ ⟨⟩
      rcases hstop with rfl | rfl <;> exact ⟨rfl, by decide⟩
    have hscan := scan_rules_slug total hname hends
    rw [String.ofList_toList] at hscan
    exact ⟨_, _, hscan, takeArguments_of_rulesLexed (rulesLexed_scan _ _)⟩
  | cons value values =>
    have hread := readArguments_joinCommas (List.cons_ne_nil _ _) harguments (stop :: more)
    have hscan := scan_rules_call total hname hread
    rw [String.ofList_toList] at hscan
    have hchars : (RuleCall.mk slug (value :: values)).chars ++ stop :: more = slug.toList
        ++ '(' :: (Text.joinCommas ((value :: values).map Value.argumentChars) ++ ')' :: stop :: more) := by
      simp [RuleCall.chars]
    rw [hchars]
    exact ⟨_, _, hscan, takeArguments.eq_1 _ _ _⟩

/-- A rule list reads as its rules. -/
theorem readRules_joinCommas {last : Nat} {calls : List RuleCall} (hne : calls ≠ [])
    (h : ∀ call ∈ calls, call.IsListed) (more : List Char) :
    readRules last (scan total .rules (Text.joinCommas (calls.map RuleCall.chars) ++ ')' :: more))
      = .ok (calls, scan total .default more) := by
  induction calls with
  | nil => exact absurd rfl hne
  | cons call calls ih =>
    obtain ⟨hcall, hcalls⟩ := List.forall_mem_cons.1 h
    cases calls with
    | nil =>
      obtain ⟨position, rest, hscan, htake⟩ := exists_scan_rules total hcall more (Or.inr rfl)
      rw [scan_rules_close] at htake
      rw [List.map_singleton, Text.joinCommas, hscan, readRules, htake]
    | cons call' calls =>
      have hmore := ih (List.cons_ne_nil _ _) hcalls
      have hjoin : Text.joinCommas ((call :: call' :: calls).map RuleCall.chars) ++ ')' :: more
          = call.chars ++ ',' :: (Text.joinCommas ((call' :: calls).map RuleCall.chars) ++ ')' :: more) := by
        simp [Text.joinCommas]
      obtain ⟨position, rest, hscan, htake⟩ := exists_scan_rules total hcall _ (Or.inl rfl)
      rw [scan_rules_comma] at htake
      rw [hjoin, hscan, readRules, htake]
      simp only [hmore]

/-! ## Variables -/

/-- A text between segments goes on to the next punctuation. -/
theorem scan_segments_text {text rest : List Char} (hne : text ≠ [])
    (htext : ∀ c ∈ text, isStructural c = false) (hrest : ∀ c ∈ rest.head?, isStructural c = true) :
    scan total .segments (text ++ rest)
      = ⟨.text (String.ofList text), total - byteLength (text ++ rest)⟩ :: scan total .segments rest := by
  have hnot : ∀ c ∈ text, (!isStructural c) = true := fun c hc => by rw [htext c hc, Bool.not_false]
  have hrest' : ∀ c ∈ rest.head?, (!isStructural c) = false :=
    fun c hc => by rw [hrest c hc, Bool.not_true]
  obtain ⟨c, cs, rfl⟩ := List.exists_cons_of_ne_nil hne
  obtain ⟨hc, hcs⟩ := List.forall_mem_cons.1 hnot
  have hne : c ≠ ':' ∧ c ≠ '[' ∧ c ≠ ']' ∧ c ≠ '/' := by simpa [isStructural, and_assoc] using hc
  rw [List.cons_append, scan]
  simp [step, hne, Text.takeWhile_run_append hcs hrest', Text.dropWhile_run_append hcs hrest']

/-- A default ends where the next part starts. -/
theorem readDefault_written {last : Nat} {default : Option String} {calls : List RuleCall}
    {rest : List Char} (hdefault : ∀ text ∈ default, IsDefault text.toList)
    (hrest : ∀ c ∈ rest.head?, standsBehind calls default c = true) :
    readDefault last (scan total .default (defaultChars default ++ rest))
      = .ok (default, scan total .segments rest) := by
  cases default with
  | none =>
    have hequals : ∀ c ∈ rest.head?, c ≠ '=' := by
      intro c hc
      have hstands := hrest c hc
      simp only [standsBehind, Bool.and_eq_true, bne_iff_ne] at hstands
      exact hstands.1
    rw [defaultChars, List.nil_append, scan_default_of_ne total hequals, readDefault_segments]
  | some text =>
    obtain ⟨hne, hstays⟩ := hdefault text rfl
    simp only [standsBehind] at hrest
    obtain ⟨c, cs, htext⟩ := List.exists_cons_of_ne_nil hne
    rw [htext] at hne hstays hrest
    have hofList : String.ofList (c :: cs) = text := by rw [← htext, String.ofList_toList]
    rw [defaultChars, htext, List.cons_append]
    cases hc : endsDefault c with
    | false =>
      rw [defaultStop_of_stays hc] at hstays hrest
      have hall : ∀ d ∈ c :: cs, (!endsDefault d) = true :=
        fun d hd => by rw [hstays d hd, Bool.not_false]
      have hend : ∀ d ∈ rest.head?, (!endsDefault d) = false :=
        fun d hd => by rw [hrest d hd, Bool.not_true]
      rw [scan_default_text total hne (Text.takeWhile_run_append hall hend)
        (Text.dropWhile_run_append hall hend), readDefault, hofList]
    | true =>
      -- the equals sign stands alone, and the default is the text behind it
      rw [defaultStop_of_ends hc] at hstays hrest
      rw [scan_default_equals total (by rw [List.cons_append, List.takeWhile_cons_of_neg (by simp [hc])]),
        scan_segments_text total hne hstays hrest, readDefault, hofList]

/-- A rule list is read up to where a default may start. -/
theorem readRuleList_written {last : Nat} {calls : List RuleCall}
    (hcalls : ∀ call ∈ calls, call.IsListed) {more : List Char}
    (hmore : calls = [] → ∀ c ∈ more.head?, c ≠ '(') :
    readRuleList last (scan total .named (RuleCall.listChars calls ++ more))
      = .ok (calls, scan total .default more) := by
  cases calls with
  | nil =>
    rw [RuleCall.listChars, List.nil_append, scan_named_of_ne total (hmore rfl), readRuleList_default]
  | cons call calls =>
    have hlist : RuleCall.listChars (call :: calls) ++ more
        = '(' :: (Text.joinCommas ((call :: calls).map RuleCall.chars) ++ ')' :: more) := by
      simp [RuleCall.listChars]
    rw [hlist, scan_named_rules, readRuleList,
      readRules_joinCommas total (List.cons_ne_nil _ _) hcalls more]

/-- What comes behind the name of a variable is no part of the name. -/
theorem head?_listChars_append {calls : List RuleCall} {default : Option String} {rest : List Char}
    (hrest : ∀ c ∈ rest.head?, standsBehind calls default c = true) :
    (∀ c ∈ (RuleCall.listChars calls ++ (defaultChars default ++ rest)).head?, continuesName c = false)
      ∧ (calls = [] → ∀ c ∈ (defaultChars default ++ rest).head?, c ≠ '(') := by
  cases calls with
  | nil =>
    cases default with
    | some text => simp [RuleCall.listChars, defaultChars, continuesName]
    | none =>
      rw [RuleCall.listChars, defaultChars, List.nil_append, List.nil_append]
      refine ⟨fun c hc => ?_, fun _ c hc => ?_⟩
      · have hstands := hrest c hc
        simp_all [standsBehind]
      · have hstands := hrest c hc
        simp_all [standsBehind]
  | cons call calls => simp [RuleCall.listChars, continuesName]

theorem scan_segments_variable {name more : List Char} (hname : IsName name)
    (hmore : ∀ c ∈ more.head?, continuesName c = false) :
    scan total .segments (':' :: (name ++ more))
      = ⟨.variableOpen, total - byteLength (':' :: (name ++ more))⟩
        :: ⟨.identifier (String.ofList name), total - byteLength (name ++ more)⟩
        :: scan total .named more := by
  rw [scan]
  simp [step, takeName?_eq_some_iff.2 ⟨rfl, hname, hmore⟩]

theorem scan_segments_slash (cs : List Char) :
    scan total .segments ('/' :: cs)
      = ⟨.slash, total - byteLength ('/' :: cs)⟩ :: scan total .segments cs := by
  rw [scan]
  rfl

theorem scan_segments_open (cs : List Char) :
    scan total .segments ('[' :: cs)
      = ⟨.optionalOpen, total - byteLength ('[' :: cs)⟩ :: scan total .segments cs := by
  rw [scan]
  rfl

theorem scan_segments_close (cs : List Char) :
    scan total .segments (']' :: cs)
      = ⟨.optionalClose, total - byteLength (']' :: cs)⟩ :: scan total .segments cs := by
  rw [scan]
  rfl

/-- A variable is read back with its rules and its default. -/
theorem readVariable_written {last position : Nat} {name : String} {calls : List RuleCall}
    {default : Option String} {rest : List Char} (hcalls : ∀ call ∈ calls, call.IsListed)
    (hdefault : ∀ text ∈ default, IsDefault text.toList)
    (hrest : ∀ c ∈ rest.head?, standsBehind calls default c = true) :
    readVariable last (⟨.identifier name, position⟩
        :: scan total .named (RuleCall.listChars calls ++ (defaultChars default ++ rest)))
      = .ok (.variable name calls default, scan total .segments rest) := by
  have hlist := @readRuleList_written total last _ hcalls _ (head?_listChars_append hrest).2
  have hread := @readDefault_written total last _ _ _ hdefault hrest
  simp only [readVariable, hlist, hread, bind, Except.bind, pure, Except.pure]

end

/-! ## Segments -/

/-- A part that is read back as itself: behind parts that it adjoins, in front of what it precedes, and
where as many segments can be opened as are nested in it. -/
def ReadsBack (depth : Nat) (tree : Tree) : Prop :=
  ∀ (total last : Nat) (segments : List OpenSegment) (parts : List Tree) (rest : List Char),
    segments.length + depth ≤ maxNesting → (∀ before ∈ parts.head?, Adjoins before tree) →
    (∀ c ∈ rest.head?, Precedes tree c) →
    readSegments last segments parts (scan total .segments (tree.chars ++ rest))
      = readSegments last segments (tree :: parts) (scan total .segments rest)

theorem addLiteral_addLiteral (a b : String) (parts : List Tree) :
    addLiteral b (addLiteral a parts) = addLiteral (a ++ b) parts := by
  fun_cases addLiteral a parts with
  | case1 before parts => simp [addLiteral, String.append_assoc]
  | case2 parts hother => simp [addLiteral]

/-- Literal text starts with a slash or with a text without slashes, and each is one token. -/
theorem exists_piece {own rest : List Char} (hne : own ≠ [])
    (hown : ∀ c ∈ own, isStructural c = true → c = '/')
    (hrest : ∀ c ∈ rest.head?, isStructural c = true) :
    ∃ piece more, own = piece ++ more ∧ piece ≠ [] ∧ ∀ total last segments parts,
      readSegments last segments parts (scan total .segments (piece ++ (more ++ rest)))
        = readSegments last segments (addLiteral (String.ofList piece) parts)
            (scan total .segments (more ++ rest)) := by
  obtain ⟨c, cs, rfl⟩ := List.exists_cons_of_ne_nil hne
  by_cases hc : c = '/'
  · subst hc
    refine ⟨['/'], cs, rfl, List.cons_ne_nil _ _, ?_⟩
    intro total last segments parts
    rw [List.singleton_append, scan_segments_slash, readSegments]
  · have hplain : isStructural c = false := by
      by_contra hnot
      exact hc (hown c List.mem_cons_self (by simpa using hnot))
    have htext : ∀ d ∈ c :: cs.takeWhile (!isStructural ·), isStructural d = false :=
      List.forall_mem_cons.2 ⟨hplain, forall_mem_takeWhile_not isStructural cs⟩
    have hmore : ∀ d ∈ (cs.dropWhile (!isStructural ·) ++ rest).head?, isStructural d = true := by
      cases hdrop : cs.dropWhile (!isStructural ·) with
      | nil => exact hrest
      | cons e more =>
        rintro d ⟨⟩
        exact forall_head?_dropWhile_not isStructural cs e (by rw [hdrop]; rfl)
    refine ⟨c :: cs.takeWhile (!isStructural ·), cs.dropWhile (!isStructural ·), ?_,
      List.cons_ne_nil _ _, ?_⟩
    · rw [List.cons_append, List.takeWhile_append_dropWhile]
    · intro total last segments parts
      rw [scan_segments_text total (List.cons_ne_nil _ _) htext hmore]
      rw [readSegments]

/-- Literal text is read piece by piece, and the pieces are put together again. -/
theorem readSegments_literal (total last : Nat) (segments : List OpenSegment) (parts : List Tree)
    {own rest : List Char} (hne : own ≠ []) (hown : ∀ c ∈ own, isStructural c = true → c = '/')
    (hrest : ∀ c ∈ rest.head?, isStructural c = true) :
    readSegments last segments parts (scan total .segments (own ++ rest))
      = readSegments last segments (addLiteral (String.ofList own) parts)
          (scan total .segments rest) := by
  induction hlen : own.length using Nat.strong_induction_on generalizing own parts with
  | _ n ih =>
    obtain ⟨piece, more, rfl, hpiece, hread⟩ := exists_piece hne hown hrest
    rw [List.append_assoc, hread]
    cases more with
    | nil => rw [List.nil_append, List.append_nil]
    | cons d more =>
      have hshorter : (d :: more).length < n := by
        have := List.length_pos_of_ne_nil hpiece
        rw [← hlen, List.length_append]
        omega
      rw [ih _ hshorter _ (List.cons_ne_nil _ _) (List.forall_mem_append.1 hown).2 rfl,
        addLiteral_addLiteral, ← String.ofList_append]

theorem readsBack_literal {depth : Nat} {own : String} (hne : own.toList ≠ [])
    (hown : ∀ c ∈ own.toList, isStructural c = true → c = '/') : ReadsBack depth (.literal own) := by
  intro total last segments parts rest _ hbefore hrest
  rw [chars, readSegments_literal total last segments parts hne hown fun c hc => (hrest c hc).1,
    String.ofList_toList]
  fun_cases addLiteral own parts with
  | case1 before parts => exact (hbefore (.literal before) rfl).elim
  | case2 => rfl

theorem readsBack_variable {depth : Nat} {name : String} {calls : List RuleCall}
    {default : Option String} (hname : IsName name.toList) (hcalls : ∀ call ∈ calls, call.IsListed)
    (hdefault : ∀ text ∈ default, IsDefault text.toList) :
    ReadsBack depth (.variable name calls default) := by
  intro total last segments parts rest _ _ hrest
  have hchars : (Tree.variable name calls default).chars ++ rest
      = ':' :: (name.toList ++ (RuleCall.listChars calls ++ (defaultChars default ++ rest))) := by
    simp [chars]
  rw [hchars, scan_segments_variable total hname (head?_listChars_append hrest).1,
    String.ofList_toList, readSegments, readVariable_written total hcalls hdefault hrest]

/-- Brackets and colons are not taken to be a part of anything. -/
theorem precedes_of_mark {c : Char} (hc : c = ']' ∨ c = '[' ∨ c = ':') (part : Tree) :
    Precedes part c := by
  cases part with
  | literal => rcases hc with rfl | rfl | rfl <;> exact ⟨rfl, by decide⟩
  | «variable» name calls default =>
    have hplain : standsBehind calls none c = true := by
      rcases hc with rfl | rfl | rfl <;> simp [standsBehind, continuesName]
    have hends : endsDefault c = true ∧ isStructural c = true := by
      rcases hc with rfl | rfl | rfl <;> exact ⟨rfl, rfl⟩
    cases default with
    | none => exact hplain
    | some text =>
      simp only [Precedes, standsBehind]
      fun_cases defaultStop text.toList c with
      | case1 => rfl
      | case2 d ds hd => exact hends.2
      | case3 d ds hd => exact hends.1
  | _ => trivial

/-- What comes behind a part is not taken to be a part of it. -/
theorem precedes_head?_charsOf {depth : Nat} {part : Tree} {written : List Tree} {rest : List Char}
    (h : ∀ next ∈ written, Grammatical depth next) (hpart : ∀ next ∈ written.head?, Adjoins part next)
    (hrest : ∀ c ∈ rest.head?, c = ']') : ∀ c ∈ (charsOf written ++ rest).head?, Precedes part c := by
  cases written with
  | nil => exact fun c hc => precedes_of_mark (Or.inl (hrest c hc)) part
  | cons next written =>
    have hadjoins := hpart next rfl
    cases h next List.mem_cons_self with
    | @literal _ own hne _ =>
      intro c hc
      rw [charsOf, chars, List.append_assoc, List.head?_append_of_ne_nil _ hne] at hc
      cases part with
      | literal => cases hadjoins
      | «variable» => exact hadjoins c hc
      | _ => trivial
    | «variable» =>
      rintro c ⟨⟩
      exact precedes_of_mark (Or.inr (Or.inr rfl)) part
    | optional =>
      rintro c ⟨⟩
      exact precedes_of_mark (Or.inr (Or.inl rfl)) part

/-- Parts are read back one after another, if each is. -/
theorem readSegments_charsOf {depth : Nat} {written : List Tree}
    (hwritten : AllGrammatical depth written) (h : ∀ part ∈ written, ReadsBack depth part)
    (total last : Nat) (segments : List OpenSegment) (parts : List Tree) {rest : List Char}
    (hdepth : segments.length + depth ≤ maxNesting)
    (hbefore : ∀ before ∈ parts.head?, ∀ part ∈ written.head?, Adjoins before part)
    (hrest : ∀ c ∈ rest.head?, c = ']') :
    readSegments last segments parts (scan total .segments (charsOf written ++ rest))
      = readSegments last segments (written.reverse ++ parts) (scan total .segments rest) := by
  obtain ⟨hgrammatical, hchain⟩ := hwritten
  induction written generalizing parts with
  | nil => rfl
  | cons part written ih =>
    obtain ⟨hpart, hmore⟩ := List.forall_mem_cons.1 h
    have hadjoins := (List.isChain_cons.1 hchain).1
    have hgrammatical' := (List.forall_mem_cons.1 hgrammatical).2
    rw [charsOf, List.append_assoc, hpart total last segments parts _ hdepth
      (fun before hhead => hbefore before hhead part rfl)
      (precedes_head?_charsOf hgrammatical' hadjoins hrest),
      ih hmore (part :: parts) _ hgrammatical' (List.isChain_cons.1 hchain).2,
      List.reverse_cons, List.append_assoc, List.singleton_append]
    rintro before ⟨⟩
    exact hadjoins

/-- Every part of a template is read back. -/
theorem readsBack_of_grammatical {depth : Nat} {tree : Tree} (h : Grammatical depth tree) :
    ReadsBack depth tree := by
  induction h with
  | literal hne hown => exact readsBack_literal hne hown
  | «variable» hname hcalls hdefault => exact readsBack_variable hname hcalls hdefault
  | @optional depth written hne hwritten hchain ih =>
    intro total last segments parts rest hdepth _ _
    have hchars : (Tree.optional written).chars ++ rest = '[' :: (charsOf written ++ ']' :: rest) := by
      simp [chars]
    have hinside : ∀ position, readSegments last (⟨position, parts⟩ :: segments) []
          (scan total .segments (charsOf written ++ ']' :: rest))
        = readSegments last (⟨position, parts⟩ :: segments) written.reverse
          (scan total .segments (']' :: rest)) := by
      intro position
      have hread := @readSegments_charsOf depth written ⟨hwritten, hchain⟩ ih total last
        (⟨position, parts⟩ :: segments) [] (']' :: rest) (by rw [List.length_cons]; omega) (by simp)
        (by simp)
      rwa [List.append_nil] at hread
    rw [hchars, scan_segments_open, readSegments, if_pos (by omega), hinside, scan_segments_close,
      readSegments, List.reverse_reverse]
    simpa using hne

/-- Parts that can stand one after another are read from what they are written as. -/
theorem parse_text_of_allGrammatical {parts : List Tree} (h : AllGrammatical maxNesting parts) :
    Tree.parse (Tree.sequence parts).text = .ok (.sequence parts) := by
  have hreads : ∀ part ∈ parts, ReadsBack maxNesting part :=
    fun part hpart => readsBack_of_grammatical (h.part part hpart)
  have hread : ∀ total last, readSegments last [] [] (scan total .segments (charsOf parts))
      = .ok (.sequence parts) := by
    intro total last
    have hall := @readSegments_charsOf _ parts h hreads total last [] [] [] (by simp) (by simp)
      (by simp)
    rw [List.append_nil, List.append_nil] at hall
    rw [hall, scan, readSegments, List.reverse_reverse]
  rw [Tree.parse, Tree.ofLexemes, tokenize, Tree.text, String.toList_ofList]
  exact hread _ _

/-- A text without punctuation but slashes is one literal. -/
theorem parse_literal {own : String} (hne : own.toList ≠ [])
    (h : ∀ c ∈ own.toList, isStructural c = true → c = '/') :
    Tree.parse own = .ok (.sequence [.literal own]) := by
  have htext : (Tree.sequence [.literal own]).text = own := by
    rw [Tree.text, Tree.chars, charsOf, Tree.chars, charsOf, List.append_nil, String.ofList_toList]
  have hparse := @parse_text_of_allGrammatical [.literal own]
    ⟨by simpa using Grammatical.literal hne h, by simp⟩
  rwa [htext] at hparse

/-- The trees that are read from texts are the sequences of parts that can stand one after another. -/
theorem exists_parse_eq_ok_iff {tree : Tree} :
    (∃ text, Tree.parse text = .ok tree)
      ↔ ∃ parts, tree = .sequence parts ∧ AllGrammatical maxNesting parts := by
  constructor
  · rintro ⟨text, h⟩
    exact grammatical_of_parse h
  · rintro ⟨parts, rfl, hparts⟩
    exact ⟨_, parse_text_of_allGrammatical hparts⟩

/-- A tree that was read from a text is read from what it is written as. -/
theorem parse_text {raw : String} {tree : Tree} (h : Tree.parse raw = .ok tree) :
    Tree.parse tree.text = .ok tree := by
  obtain ⟨parts, rfl, hparts⟩ := grammatical_of_parse h
  exact parse_text_of_allGrammatical hparts

/-- Blanks and leading zeros are not kept, quotes and an odd default are. -/
theorem parse_text_quoted :
    let tree := Tree.sequence [.literal "a/",
      .variable "x" [⟨"in", [.string "b\",", .int 7, .bool true]⟩] (some "(c"),
      .optional [.literal "/", .variable "y" [] none]]
    Tree.parse "a/:x( in(\"b\\\",\", 07,true))=(c[/:y]" = .ok tree
      ∧ Tree.parse tree.text = .ok tree := by
  have h : Tree.parse "a/:x( in(\"b\\\",\", 07,true))=(c[/:y]" = .ok (.sequence [.literal "a/",
      .variable "x" [⟨"in", [.string "b\",", .int 7, .bool true]⟩] (some "(c"),
      .optional [.literal "/", .variable "y" [] none]]) := by
    cbv
    exact eq_of_bind_read (by cbv)
  exact ⟨h, parse_text h⟩

end Template

end UriRouting
