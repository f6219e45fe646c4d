import UriRouting.Proofs.Template.Written
/-!
# Argument lists that are cut off

An argument list is read from the left, and what is read of it does not depend on what comes behind. A
list that is closed stays as it is, whatever follows. A list that breaks off does so at the end of the
text or at a parenthesis; up to there it can still be closed, and behind the parenthesis nothing helps.

* `GoesOn` says which other texts may stand where one stands;
* `readQuoted_prefix` and `exists_readQuoted_closed` say this of a text in quotes;
* `ArgumentsRead` says it of an argument list, and `argumentsRead` that it holds of every text.
-/

namespace UriRouting.Template

/-! ## What may follow -/

/-- A text that starts as another one does, or else with a character that ends what stands in front. -/
def GoesOn (stop : Char) (rest rest' : List Char) : Prop :=
  rest'.head? = rest.head? ∨ rest'.head? = some stop

section

variable {stop : Char} {rest rest' : List Char}

theorem GoesOn.append_left (text : List Char) (h : GoesOn stop rest rest') :
    GoesOn stop (text ++ rest) (text ++ rest') := by
  cases text with
  | nil => exact h
  | cons => exact Or.inl rfl

theorem goesOn_of_ne_nil {text : List Char} (hne : text ≠ []) (rest rest' : List Char) :
    GoesOn stop (text ++ rest) (text ++ rest') := by
  left
  rw [List.head?_append_of_ne_nil _ hne, List.head?_append_of_ne_nil _ hne]

/-- What holds of the first character, and of the stop, holds of the first character there may be. -/
theorem GoesOn.forall_head? {P : Char → Prop} (h : GoesOn stop rest rest')
    (hrest : ∀ c ∈ rest.head?, P c) (hstop : P stop) : ∀ c ∈ rest'.head?, P c := by
  intro c hc
  rcases h with h | h
  · exact hrest c (h ▸ hc)
  · rw [h] at hc
    obtain rfl := Option.some.inj hc
    exact hstop

end

/-! ## Texts in quotes -/

/-- Any other character stands for itself. -/
theorem readQuoted_cons {c : Char} {cs : List Char} (hquote : c ≠ '"')
    (hslash : c = '\\' → ∀ d ∈ cs.head?, d ≠ '"' ∧ d ≠ '\\') :
    readQuoted (c :: cs) = (readQuoted cs).map fun (text, rest) => (c :: text, rest) := by
  rw [readQuoted]
  · exact hquote
  · rintro rest rfl rfl
    exact (hslash rfl '"' rfl).1 rfl
  · rintro rest rfl rfl
    exact (hslash rfl '\\' rfl).2 rfl

/-- What is read in quotes does not depend on what follows the closing quote. -/
theorem readQuoted_prefix {cs text rest : List Char} (h : readQuoted cs = some (text, rest)) :
    ∃ own, cs = own ++ rest ∧ own ≠ [] ∧ ∀ rest', readQuoted (own ++ rest') = some (text, rest') := by
  fun_induction readQuoted cs generalizing text with
  | case1 => cases h
  | case2 rest' =>
    cases h
    exact ⟨['"'], rfl, List.cons_ne_nil _ _, fun _ => rfl⟩
  | case3 rest' ih =>
    obtain ⟨⟨text', left⟩, hread, heq⟩ := Option.map_eq_some_iff.1 h
    cases heq
    obtain ⟨own, rfl, -, hown⟩ := ih hread
    exact ⟨'\\' :: '"' :: own, rfl, List.cons_ne_nil _ _, fun rest' => by simp [readQuoted, hown]⟩
  | case4 rest' ih =>
    obtain ⟨⟨text', left⟩, hread, heq⟩ := Option.map_eq_some_iff.1 h
    cases heq
    obtain ⟨own, rfl, -, hown⟩ := ih hread
    exact ⟨'\\' :: '\\' :: own, rfl, List.cons_ne_nil _ _, fun rest' => by simp [readQuoted, hown]⟩
  | case5 c rest' hquote hescaped hslash ih =>
    obtain ⟨⟨text', left⟩, hread, heq⟩ := Option.map_eq_some_iff.1 h
    cases heq
    obtain ⟨own, rfl, hne, hown⟩ := ih hread
    refine ⟨c :: own, rfl, List.cons_ne_nil _ _, fun rest' => ?_⟩
    obtain ⟨d, own, rfl⟩ := List.exists_cons_of_ne_nil hne
    rw [List.cons_append, readQuoted_cons hquote, hown]
    · rfl
    · rintro rfl _ ⟨⟩
      refine ⟨?_, ?_⟩
      · rintro rfl
        exact hescaped _ rfl rfl
      · rintro rfl
        exact hslash _ rfl rfl

/-- A text in quotes that is not closed can be closed. A backslash at its end takes one more quote. -/
theorem exists_readQuoted_closed {cs : List Char} (h : readQuoted cs = none) :
    ∃ closing, ∀ rest, ∃ text, readQuoted (cs ++ (closing ++ rest)) = some (text, rest) := by
  fun_induction readQuoted cs with
  | case1 => exact ⟨['"'], fun rest => ⟨[], rfl⟩⟩
  | case2 => cases h
  | case3 rest' ih =>
    obtain ⟨closing, hclosing⟩ := ih (Option.map_eq_none_iff.1 h)
    refine ⟨closing, fun rest => ?_⟩
    obtain ⟨text, htext⟩ := hclosing rest
    exact ⟨'"' :: text, by simp [readQuoted, htext]⟩
  | case4 rest' ih =>
    obtain ⟨closing, hclosing⟩ := ih (Option.map_eq_none_iff.1 h)
    refine ⟨closing, fun rest => ?_⟩
    obtain ⟨text, htext⟩ := hclosing rest
    exact ⟨'\\' :: text, by simp [readQuoted, htext]⟩
  | case5 c rest' hquote hescaped hslash ih =>
    cases rest' with
    | nil =>
      by_cases hc : c = '\\'
      · subst hc
        exact ⟨['"', '"'], fun rest => ⟨['"'], rfl⟩⟩
      · refine ⟨['"'], fun rest => ⟨[c], ?_⟩⟩
        rw [List.singleton_append, readQuoted_cons hquote (fun h => absurd h hc)]
        rfl
    | cons d rest' =>
      obtain ⟨closing, hclosing⟩ := ih (Option.map_eq_none_iff.1 h)
      refine ⟨closing, fun rest => ?_⟩
      obtain ⟨text, htext⟩ := hclosing rest
      refine ⟨c :: text, ?_⟩
      rw [List.cons_append, readQuoted_cons hquote, htext]
      · rfl
      · rintro rfl _ ⟨⟩
        refine ⟨?_, ?_⟩
        · rintro rfl
          exact hescaped _ rfl rfl
        · rintro rfl
          exact hslash _ rfl rfl

/-! ## Argument lists -/

/-- A text of blanks is no argument list. -/
theorem readArguments_of_dropWhile_nil {cs : List Char} (h : cs.dropWhile Text.isAsciiBlank = []) :
    readArguments cs = (none, []) := by
  rw [readArguments]
  split
  · rfl
  · rename_i hcons
    rw [h] at hcons
    cases hcons

theorem readArguments_blank {c : Char} (hblank : Text.isAsciiBlank c = true) (rest : List Char) :
    readArguments (c :: rest) = readArguments rest := by
  have hdrop : (c :: rest).dropWhile Text.isAsciiBlank = rest.dropWhile Text.isAsciiBlank :=
    List.dropWhile_cons_of_pos hblank
  cases hcs : rest.dropWhile Text.isAsciiBlank with
  | nil =>
    rw [readArguments_of_dropWhile_nil hcs, readArguments_of_dropWhile_nil (hdrop.trans hcs)]
  | cons d left =>
    rw [readArguments_of_dropWhile hcs, readArguments_of_dropWhile (hdrop.trans hcs)]

/-- How an argument list is read that starts with a text. -/
inductive ArgumentsRead : List Char → Prop
  /-- The list is closed. -/
  | closed (text left : List Char) (values : List Value) (hne : text ≠ [])
      (h : ∀ left', readArguments (text ++ left') = (some values, left')) : ArgumentsRead (text ++ left)
  /-- The list breaks off, at a parenthesis or at the end of the text; it could have been closed. -/
  | broken (text left closing : List Char) (hleft : ∀ c ∈ left.head?, c = '(')
      (h : ∀ left', left'.head? = left.head? → readArguments (text ++ left') = (none, left'))
      (hclosing : text = [] → closing.head? = some ')')
      (hclosed : ∀ rest, ∃ values, readArguments (text ++ (closing ++ rest)) = (some values, rest)) :
      ArgumentsRead (text ++ left)

/-- An argument, or what separates two of them, does not change how the list goes on. -/
theorem ArgumentsRead.prepend {item rest : List Char} (f : List Value → List Value)
    (hitem : item ≠ [])
    (hread : ∀ rest', GoesOn ')' rest rest' →
      readArguments (item ++ rest') = ((readArguments rest').1.map f, (readArguments rest').2))
    (h : ArgumentsRead rest) : ArgumentsRead (item ++ rest) := by
  cases h with
  | closed text left values hne h =>
    rw [← List.append_assoc]
    refine .closed _ _ (f values) (List.append_ne_nil_of_left_ne_nil hitem _) fun left' => ?_
    rw [List.append_assoc, hread _ (goesOn_of_ne_nil hne _ _), h]
    rfl
  | broken text left closing hleft h hclosing hclosed =>
    rw [← List.append_assoc]
    refine .broken _ _ closing hleft (fun left' hhead => ?_)
      (fun hnil => absurd (List.append_eq_nil_iff.1 hnil).1 hitem) (fun rest => ?_)
    · rw [List.append_assoc, hread _ (GoesOn.append_left text (Or.inl hhead)), h left' hhead]
      rfl
    · have hgoes : GoesOn ')' (text ++ left) (text ++ (closing ++ rest)) := by
        cases text with
        | nil =>
          right
          rw [List.nil_append, List.head?_append, hclosing rfl]
          rfl
        | cons => exact Or.inl rfl
      obtain ⟨values, hvalues⟩ := hclosed rest
      refine ⟨f values, ?_⟩
      rw [List.append_assoc, hread _ hgoes, hvalues]
      rfl

/-- A text in quotes is an argument, or the list ends with the text. -/
theorem argumentsRead_quote {cs : List Char}
    (ih : ∀ left : List Char, left.length < cs.length → ArgumentsRead left) : ArgumentsRead ('"' :: cs) := by
  cases hread : readQuoted cs with
  | none =>
    obtain ⟨closing, hclosing⟩ := exists_readQuoted_closed hread
    rw [← List.append_nil ('"' :: cs)]
    refine .broken _ _ (closing ++ [')']) (by simp) ?_ (fun h => nomatch h) fun rest => ?_
    · intro left' hleft'
      obtain rfl := List.head?_eq_none_iff.1 hleft'
      rw [List.append_nil, readArguments_of_dropWhile (List.dropWhile_cons_of_neg (by decide)), hread]
      rfl
    · obtain ⟨text, htext⟩ := hclosing (')' :: rest)
      refine ⟨[.string (String.ofList text)], ?_⟩
      rw [List.append_assoc, List.singleton_append, List.cons_append, readArguments_quote htext,
        readArguments_close]
      rfl
  | some read =>
    obtain ⟨text, left⟩ := read
    have hleft := ih left (length_lt_of_readQuoted hread)
    obtain ⟨own, rfl, -, hown⟩ := readQuoted_prefix hread
    exact hleft.prepend _ (List.cons_ne_nil '"' own) fun rest' _ => readArguments_quote (hown rest')

/-- A text without quotes is an argument up to where the next one starts. -/
theorem argumentsRead_word {c : Char} {cs : List Char} (hblank : Text.isAsciiBlank c = false)
    (hends : endsArgument c = false) (hquote : c ≠ '"')
    (ih : ArgumentsRead (cs.dropWhile (!endsArgument ·))) : ArgumentsRead (c :: cs) := by
  have hsplit : c :: cs = c :: cs.takeWhile (!endsArgument ·) ++ cs.dropWhile (!endsArgument ·) := by
    rw [List.cons_append, List.takeWhile_append_dropWhile]
  rw [hsplit]
  exact ih.prepend _ (List.cons_ne_nil _ _) fun rest' hrest' => readArguments_word hblank hends hquote
    (forall_mem_takeWhile_not endsArgument cs)
    (hrest'.forall_head? (forall_head?_dropWhile_not endsArgument cs) rfl)

/-- Every text is read in one of these ways. -/
theorem argumentsRead (cs : List Char) : ArgumentsRead cs := by
  -- on the length, since an argument takes a whole run of characters off the front
  induction hlen : cs.length using Nat.strong_induction_on generalizing cs with
  | _ n ih =>
    cases cs with
    | nil =>
      refine .broken [] [] [')'] (by simp) (fun left' hleft' => ?_) (fun _ => rfl) fun rest => ?_
      · obtain rfl := List.head?_eq_none_iff.1 hleft'
        exact readArguments_of_dropWhile_nil rfl
      · exact ⟨[], readArguments_close rest⟩
    | cons c rest =>
      have hshorter : ∀ left : List Char, left.length ≤ rest.length → ArgumentsRead left :=
        fun left hleft => ih left.length (by rw [← hlen, List.length_cons]; omega) left rfl
      by_cases hblank : Text.isAsciiBlank c = true
      · refine (hshorter rest le_rfl).prepend id (List.cons_ne_nil c []) fun rest' _ => ?_
        rw [List.singleton_append, readArguments_blank hblank, Option.map_id, id]
      by_cases hopen : c = '('
      · subst hopen
        refine .broken [] _ [')'] (by simp) (fun left' hleft' => ?_) (fun _ => rfl) fun rest => ?_
        · obtain ⟨more, rfl⟩ := List.head?_eq_some_iff.1 hleft'
          rw [List.nil_append, readArguments_of_dropWhile (List.dropWhile_cons_of_neg (by decide))]
          rfl
        · exact ⟨[], readArguments_close rest⟩
      by_cases hclose : c = ')'
      · subst hclose
        exact .closed [')'] rest [] (List.cons_ne_nil _ _) readArguments_close
      by_cases hcomma : c = ','
      · subst hcomma
        refine (hshorter rest le_rfl).prepend id (List.cons_ne_nil ',' []) fun rest' _ => ?_
        rw [List.singleton_append, readArguments_comma, Option.map_id, id]
      by_cases hquote : c = '"'
      · subst hquote
        exact argumentsRead_quote fun left hleft => hshorter left hleft.le
      · exact argumentsRead_word (by simpa using hblank) (by simp [endsArgument, hopen, hclose, hcomma]) hquote
          (hshorter _ (List.length_dropWhile_le _ rest))

end UriRouting.Template
