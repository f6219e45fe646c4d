import UriRouting.Proofs.Template.FaultPlace
import UriRouting.Proofs.Template.Returned
import UriRouting.Proofs.Template.TokenGrammar
/-!
# The text of a default

A default is the text from the equals sign to the next of seven characters. Where one of the seven follows
the equals sign at once, the reader adds no token, and the text that is read next stands in for the
default. So a default can start with a parenthesis or a comma, and then it only ends where a literal text
would. The other four characters, and the end of the text, are no default.

* `Fed` says of tokens that each equals sign has a text behind it, and `fed_of_partsForm` that the tokens of
  every template are so;
* `exists_scan_of_equals` finds the place at which an equals sign was read;
* `default_of_parse` is the main statement.
-/

namespace UriRouting

open UriRouting.Tree UriRouting.Template

namespace Template

/-! ## Tokens behind an equals sign -/

/-- Each equals sign has a text behind it. -/
def Fed (ts : List Token) : Prop :=
  ∀ before after, ts = before ++ .equals :: after → ∃ text, after.head? = some (.text text)

theorem fed_of_notMem {ts : List Token} (h : Token.equals ∉ ts) : Fed ts := by
  rintro before after rfl
  exact absurd List.mem_append_cons_self h

theorem Fed.append {ts us : List Token} (h : Fed ts) (h' : Fed us) : Fed (ts ++ us) := by
  intro before after heq
  rcases List.append_eq_append_iff.1 heq with ⟨behind, rfl, hus⟩ | ⟨behind, hts, hafter⟩
  · exact h' behind after hus
  · cases behind with
    | nil => exact h' [] after hafter.symm
    | cons token behind =>
      cases hafter
      obtain ⟨text, htext⟩ := h before behind hts
      obtain ⟨behind, rfl⟩ := List.head?_eq_some_iff.1 htext
      exact ⟨text, rfl⟩

theorem equals_notMem_of_callForm {ts : List Token} {call : RuleCall} (h : CallForm ts call) :
    Token.equals ∉ ts := by
  cases h <;> simp

theorem equals_notMem_of_rulesForm {ts : List Token} {calls : List RuleCall} (h : RulesForm ts calls) :
    Token.equals ∉ ts := by
  induction h with
  | last h => simpa using equals_notMem_of_callForm h
  | more h _ ih => simpa using ⟨equals_notMem_of_callForm h, ih⟩

theorem fed_of_variableForm {ts : List Token} {tree : Tree} (h : VariableForm ts tree) : Fed ts := by
  cases h with
  | @intro name rules behind calls default hrules hdefault =>
    have hfront : Token.equals ∉ .variableOpen :: .identifier name :: rules := by
      cases hrules with
      | absent => simp
      | given h => simpa using equals_notMem_of_rulesForm h
    refine (fed_of_notMem hfront).append ?_
    cases hdefault with
    | absent => exact fed_of_notMem List.not_mem_nil
    | given text =>
      intro before after heq
      cases before with
      | nil =>
        cases heq
        exact ⟨text, rfl⟩
      | cons token before =>
        cases before with
        | nil => cases heq
        | cons => simp at heq

/-- In a template each equals sign has a text behind it. -/
theorem fed_of_partsForm {depth : Nat} {ts : List Token} {parts : List Tree}
    (h : PartsForm depth ts parts) : Fed ts := by
  induction h with
  | nil => exact fed_of_notMem List.not_mem_nil
  | @literal depth ts run parts texts _ _ _ hrun ih =>
    refine ih.append (fed_of_notMem fun hmem => ?_)
    have htext : Token.literalText? .equals ∈ texts.map some := hrun ▸ List.mem_map_of_mem hmem
    obtain ⟨text, -, htext⟩ := List.mem_map.1 htext
    cases htext
  | «variable» _ hpart ih => exact ih.append (fed_of_variableForm hpart)
  | «optional» _ _ _ ih ihown =>
    have hopen : Fed [.optionalOpen] := fed_of_notMem (by simp)
    have hclose : Fed [.optionalClose] := fed_of_notMem (by simp)
    exact ih.append (hopen.append (ihown.append hclose))

/-! ## Places of equals signs -/

theorem isFinish_of_mem_step (mode : Mode) (c : Char) (cs : List Char) :
    ∀ entry ∈ (step mode c cs).tokens, entry.1.isFinish = false := by
  cases mode with
  | segments =>
    simp only [step]
    repeat' split
    all_goals simp [Token.isFinish]
  | named =>
    simp only [step]
    split <;> simp [Token.isFinish]
  | rules =>
    simp only [step]
    repeat' split
    all_goals simp [Token.isFinish]
  | default =>
    simp only [step]
    repeat' split
    all_goals simp [Token.isFinish]

/-- The end is marked behind all other tokens. -/
theorem exists_scan_eq_append (total : Nat) (mode : Mode) (cs : List Char) :
    ∃ ts, scan total mode cs = ts ++ [⟨.finish, total⟩] ∧ content (scan total mode cs) = ts.map (·.token) := by
  fun_induction scan total mode cs with
  | case1 => exact ⟨[], rfl, rfl⟩
  | case2 mode c cs next ih =>
    obtain ⟨ts, hscan, hcontent⟩ := ih
    refine ⟨_, (congrArg _ hscan).trans (List.append_assoc ..).symm, ?_⟩
    rw [content, List.map_append, List.takeWhile_append_of_pos, List.map_append, ← hcontent, content]
    simpa using fun token start hmem => isFinish_of_mem_step mode c cs (token, start) hmem

/-- Only where a default may start, an equals sign is read as one. -/
theorem equals_of_mem_step {mode : Mode} {c : Char} {cs start : List Char}
    (h : (Token.equals, start) ∈ (step mode c cs).tokens) :
    mode = .default ∧ c = '=' ∧ start = c :: cs := by
  cases mode with
  | segments =>
    simp only [step] at h
    repeat' split at h
    all_goals simp at h
  | named =>
    simp only [step] at h
    split at h <;> simp at h
  | rules =>
    simp only [step] at h
    repeat' split at h
    all_goals simp at h
  | default =>
    simp only [step] at h
    split at h
    · rename_i hc
      rw [beq_iff_eq] at hc
      split at h <;> exact ⟨rfl, hc, by simpa using h⟩
    · simp at h

/-- An equals sign is read at a place of the text, and from there on as where a default may start. -/
theorem exists_scan_of_equals {total position : Nat} {mode : Mode} {cs : List Char}
    (h : ⟨.equals, position⟩ ∈ scan total mode cs) :
    ∃ before rest ts, cs = before ++ '=' :: rest ∧ position = total - byteLength ('=' :: rest)
      ∧ scan total mode cs = ts ++ scan total .default ('=' :: rest) := by
  fun_induction scan total mode cs with
  | case1 => simp at h
  | case2 mode c cs next ih =>
    rcases List.mem_append.1 h with h | h
    · obtain ⟨⟨token, start⟩, hmem, heq⟩ := List.mem_map.1 h
      cases heq
      obtain ⟨rfl, rfl, rfl⟩ := equals_of_mem_step hmem
      exact ⟨[], cs, [], rfl, rfl, by rw [List.nil_append, scan]⟩
    · obtain ⟨before, rest, ts, hrest, hposition, hscan⟩ := ih h
      obtain ⟨front, hfront⟩ := suffix_step mode c cs
      refine ⟨front ++ before, rest, _, ?_, hposition,
        (congrArg _ hscan).trans (List.append_assoc ..).symm⟩
      rw [List.append_assoc, ← hrest, hfront]

/-- A place of a text is known by its byte. -/
theorem eq_of_byteLength {text text' rest rest' : List Char} (h : text ++ rest = text' ++ rest')
    (hlength : byteLength text = byteLength text') : rest = rest' := by
  simp only [byteLength_eq, String.utf8ByteSize_ofList] at hlength
  rcases List.append_eq_append_iff.1 h with ⟨between, rfl, rfl⟩ | ⟨between, rfl, rfl⟩
  · rw [String.utf8Len_append] at hlength
    obtain rfl : between = [] := String.utf8Len_eq_zero.1 (by omega)
    rfl
  · rw [String.utf8Len_append] at hlength
    obtain rfl : between = [] := String.utf8Len_eq_zero.1 (by omega)
    rfl

/-! ## Defaults of a template -/

/-- Four characters stand in no default; three more only stand in one that starts with one of them. -/
theorem IsDefault.notMem {text : List Char} (h : IsDefault text) :
    (∀ c ∈ text, c ∉ ['/', '[', ']', ':'])
      ∧ ((∀ c ∈ text.head?, c ∉ ['(', ')', ',']) → ∀ c ∈ text, c ∉ ['(', ')', ',']) := by
  obtain ⟨hne, hstays⟩ := h
  obtain ⟨d, ds, rfl⟩ := List.exists_cons_of_ne_nil hne
  cases hends : endsDefault d with
  | false =>
    rw [defaultStop_of_stays hends] at hstays
    refine ⟨fun c hc => ?_, fun _ c hc => ?_⟩
    · have := hstays c hc
      simp_all [endsDefault]
    · have := hstays c hc
      simp_all [endsDefault]
  | true =>
    rw [defaultStop_of_ends hends] at hstays
    refine ⟨fun c hc => ?_, fun hhead => ?_⟩
    · have := hstays c hc
      simp_all [isStructural]
    · have hmark := hstays d List.mem_cons_self
      have hd := hhead d rfl
      simp_all [isStructural, endsDefault]

/-- An equals sign in front of the next part, or of the end, is in no template. -/
theorem exists_error_of_equals {cs rest : List Char} {ts : List Lexeme}
    (hscan : scan (byteLength cs) .segments cs = ts ++ scan (byteLength cs) .default ('=' :: rest))
    (hrest : ∀ c ∈ rest.head?, isStructural c = true) :
    ∃ fault, Tree.parse (String.ofList cs) = .error fault := by
  cases hparse : Tree.parse (String.ofList cs) with
  | error fault => exact ⟨fault, rfl⟩
  | ok tree =>
    exfalso
    obtain ⟨last, hread⟩ := exists_parse_eq cs
    obtain ⟨parts, -, hform⟩ := exists_partsForm_of_readSegments (hread.symm.trans hparse) (.whole .nil)
    obtain ⟨us, hus, hcontent⟩ := exists_scan_eq_append (byteLength cs) .segments cs
    obtain ⟨vs, hvs, -⟩ := exists_scan_eq_append (byteLength cs) .segments rest
    have hdefault := scan_default_equals (byteLength cs) (takeWhile_eq_nil_of_isStructural hrest)
    -- the tokens of the template are those in front of the equals sign, the sign, and those behind it
    have hsame : us ++ [⟨.finish, byteLength cs⟩]
        = (ts ++ ⟨.equals, byteLength cs - byteLength ('=' :: rest)⟩ :: vs) ++ [⟨.finish, byteLength cs⟩] := by
      rw [← hus, hscan, hdefault, hvs, List.append_assoc, List.cons_append]
    have hsplit := List.append_cancel_right hsame
    have hfed : Fed (us.map (·.token)) := hcontent ▸ fed_of_partsForm hform
    obtain ⟨text, htext⟩ := hfed (ts.map (·.token)) (vs.map (·.token)) (by simp [hsplit])
    obtain ⟨⟨token, position⟩, hhead, rfl⟩ := Option.map_eq_some_iff.1 (List.head?_map ▸ htext)
    obtain ⟨vs, rfl⟩ := List.head?_eq_some_iff.1 hhead
    obtain ⟨token, herror⟩ := readDefault_equals hrest (byteLength cs) last
    rw [hdefault, hvs] at herror
    cases herror

/-- A default is a text without the characters that start the next part. A parenthesis or a comma it only
holds if it starts with one, and an equals sign with no default behind it is a fault. -/
theorem default_of_parse (raw : String) :
    (∀ tree, Tree.parse raw = .ok tree → ∀ site ∈ sites false tree, ∀ text ∈ site.default,
      text ≠ "" ∧ (∀ c ∈ text.toList, c ∉ ['/', '[', ']', ':'])
        ∧ ((∀ c ∈ text.toList.head?, c ∉ ['(', ')', ',']) → ∀ c ∈ text.toList, c ∉ ['(', ')', ',']))
    ∧ ∀ before after : String, raw = before ++ "=" ++ after →
      ⟨.equals, before.utf8ByteSize⟩ ∈ tokenize raw →
      (∀ c ∈ after.toList.head?, c ∈ ['/', '[', ']', ':']) → ∃ fault, Tree.parse raw = .error fault := by
  refine ⟨fun tree hparse site hsite text htext => ?_, fun before after hraw hequals hafter => ?_⟩
  · have hdefault := isDefault_of_parse hparse hsite text htext
    refine ⟨?_, hdefault.notMem⟩
    rintro rfl
    exact hdefault.ne_nil rfl
  · obtain rfl : raw = String.ofList (before.toList ++ '=' :: after.toList) := by
      rw [hraw, String.ofList_append, String.ofList_cons, String.ofList_toList, String.ofList_toList,
        String.append_assoc]
      rfl
    rw [tokenize, String.toList_ofList] at hequals
    obtain ⟨front, rest, ts, hplace, hposition, hscan⟩ := exists_scan_of_equals hequals
    have hlength : byteLength before.toList = byteLength front := by
      rw [byteLength_eq, byteLength_eq, String.ofList_toList, hposition, hplace, byteLength_append_sub]
    cases eq_of_byteLength hplace hlength
    refine exists_error_of_equals hscan fun c hc => ?_
    have hmark := hafter c hc
    simp only [List.mem_cons, List.not_mem_nil, or_false] at hmark
    rcases hmark with rfl | rfl | rfl | rfl <;> rfl

/-- A default that ends at a bracket, and an equals sign in front of a slash. -/
theorem default_of_parse_bracket :
    let tree := Tree.sequence [.literal "a/", .variable "x" [⟨"in", [.int 1]⟩] (some "b"),
      .optional [.literal "c"]]
    (Tree.parse "a/:x(in(1))=b[c]" = .ok tree
        ∧ ∀ site ∈ sites false tree, ∀ text ∈ site.default, ∀ c ∈ text.toList, c ∉ ['(', ')', ','])
      ∧ ∃ fault, Tree.parse "a:x=/b" = .error fault := by
  have h : Tree.parse "a/:x(in(1))=b[c]" = .ok (.sequence [.literal "a/",
      .variable "x" [⟨"in", [.int 1]⟩] (some "b"), .optional [.literal "c"]]) := by
    cbv
    exact eq_of_bind_read (by cbv)
  have htokens : tokenize "a:x=/b" = [⟨.text "a", 0⟩, ⟨.variableOpen, 1⟩, ⟨.identifier "x", 2⟩,
      ⟨.equals, 3⟩, ⟨.slash, 4⟩, ⟨.text "b", 5⟩, ⟨.finish, 6⟩] := by
    cbv
  have hequals : ⟨.equals, "a:x".utf8ByteSize⟩ ∈ tokenize "a:x=/b" := by
    rw [htokens]
    simp
    rfl
  refine ⟨⟨h, fun site hsite text htext => ?_⟩, ?_⟩
  · refine ((default_of_parse _).1 _ h site hsite text htext).2.2 ?_
    simp only [sites, sitesOf, List.append_nil, List.nil_append, List.mem_singleton] at hsite
    subst hsite
    cases htext
    simp
  · exact (default_of_parse "a:x=/b").2 "a:x" "/b" rfl hequals (by simp)

/-- A parenthesis right behind the equals sign is taken up in the default. -/
theorem default_of_parse_parenthesis :
    ∃ tree, Tree.parse ":x=(a" = .ok tree
      ∧ ∃ site ∈ sites false tree, ∃ text ∈ site.default, '(' ∈ text.toList := by
  refine ⟨.sequence [.variable "x" [] (some "(a")], ?_, ⟨"x", [], some "(a", false⟩, ?_, "(a", rfl, ?_⟩
  · cbv
  · simp [sites, sitesOf]
  · decide

end Template

end UriRouting
