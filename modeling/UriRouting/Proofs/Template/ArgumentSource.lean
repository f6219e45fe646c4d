import UriRouting.Proofs.Template.OpenArguments
/-!
# The texts of argument lists

Between the parentheses of a rule stand arguments, each a text in quotes or a word. What separates them is a
gap of blanks and commas. Any gap will do, in front of the arguments, between two of them and behind them,
and no gap at all, except that a word goes on to the next comma. So commas may be missing behind quotes, or
stand twice, or at the start or the end of the list.

* `Quotes` says how a text is written in quotes;
* `ArgumentsSource` is the grammar of argument lists;
* `readArguments_eq_iff` says that the reader takes these lists and no others, each up to the closing
  parenthesis.
-/

namespace UriRouting.Template

/-! ## Quotes -/

/-- How a text is written between quotes: a backslash in front of a quote or a backslash is left out. -/
inductive Quotes : List Char → List Char → Prop where
  | nil : Quotes [] []
  /-- A quote needs a backslash. -/
  | quote {written text : List Char} (h : Quotes written text) :
      Quotes ('\\' :: '"' :: written) ('"' :: text)
  /-- A backslash may have one. -/
  | backslash {written text : List Char} (h : Quotes written text) :
      Quotes ('\\' :: '\\' :: written) ('\\' :: text)
  /-- Any other character stands for itself, and so does a backslash in front of any other. -/
  | own {c : Char} {written text : List Char} (hquote : c ≠ '"')
      (hslash : c = '\\' → ∃ d ∈ written.head?, d ≠ '"' ∧ d ≠ '\\') (h : Quotes written text) :
      Quotes (c :: written) (c :: text)

/-- A text in quotes is read up to the first quote without a backslash. -/
theorem readQuoted_eq_some_iff {cs text rest : List Char} :
    readQuoted cs = some (text, rest) ↔ ∃ written, cs = written ++ '"' :: rest ∧ Quotes written text := by
  constructor
  · intro h
    fun_induction readQuoted cs generalizing text with
    | case1 => cases h
    | case2 rest' =>
      cases h
      exact ⟨[], rfl, .nil⟩
    | case3 rest' ih =>
      obtain ⟨⟨text', left⟩, hread, heq⟩ := Option.map_eq_some_iff.1 h
      cases heq
      obtain ⟨written, rfl, hwritten⟩ := ih hread
      exact ⟨_, rfl, .quote hwritten⟩
    | case4 rest' ih =>
      obtain ⟨⟨text', left⟩, hread, heq⟩ := Option.map_eq_some_iff.1 h
      cases heq
      obtain ⟨written, rfl, hwritten⟩ := ih hread
      exact ⟨_, rfl, .backslash hwritten⟩
    | case5 c rest' hquote hescaped hslash ih =>
      obtain ⟨⟨text', left⟩, hread, heq⟩ := Option.map_eq_some_iff.1 h
      cases heq
      obtain ⟨written, rfl, hwritten⟩ := ih hread
      refine ⟨c :: written, rfl, .own hquote ?_ hwritten⟩
      rintro rfl
      -- the closing quote would belong to a backslash in front of it
      cases written with
      | nil => exact (hescaped _ rfl rfl).elim
      | cons d written =>
        refine ⟨d, rfl, ?_, ?_⟩
        · rintro rfl
          exact hescaped _ rfl rfl
        · rintro rfl
          exact hslash _ rfl rfl
  · rintro ⟨written, rfl, h⟩
    induction h with
    | nil => rfl
    | quote _ ih => simp [readQuoted, ih]
    | backslash _ ih => simp [readQuoted, ih]
    | @own c written text hquote hslash _ ih =>
      rw [List.cons_append, readQuoted_cons hquote, ih]
      · rfl
      · intro hc d hd
        obtain ⟨e, he, hne⟩ := hslash hc
        obtain ⟨written, rfl⟩ := List.head?_eq_some_iff.1 he
        cases hd
        exact hne

/-! ## Argument lists -/

/-- What may stand between two arguments: blanks and commas. -/
def IsGap (gap : List Char) : Prop :=
  ∀ c ∈ gap, Text.isAsciiBlank c = true ∨ c = ','

/-- An argument without quotes. It starts with no blank. -/
structure IsWord (word : List Char) : Prop where
  /-- There is a first character, which is no blank and no quote. -/
  start : ∃ c ∈ word.head?, Text.isAsciiBlank c = false ∧ c ≠ '"'
  /-- No comma and no parenthesis stands in it. -/
  stays : ∀ c ∈ word, endsArgument c = false

/-- The text of an argument list, without its parentheses, and the arguments. -/
inductive ArgumentsSource : List Char → List Value → Prop where
  /-- Behind the last argument a gap may come. -/
  | nil {gap : List Char} (hgap : IsGap gap) : ArgumentsSource gap []
  /-- An argument in quotes, with a gap in front of it. -/
  | quoted {gap written text rest : List Char} {values : List Value} (hgap : IsGap gap)
      (hwritten : Quotes written text) (hrest : ArgumentsSource rest values) :
      ArgumentsSource (gap ++ '"' :: written ++ '"' :: rest) (.string (String.ofList text) :: values)
  /-- A word, with a gap in front of it. Behind it the list ends, or a comma comes. -/
  | word {gap word rest : List Char} {values : List Value} (hgap : IsGap gap) (hword : IsWord word)
      (hnext : ∀ c ∈ rest.head?, c = ',') (hrest : ArgumentsSource rest values) :
      ArgumentsSource (gap ++ word ++ rest)
        (.ofLiteral (String.ofList (Text.trimBlanks word)) :: values)

theorem isGap_nil : IsGap [] :=
  List.forall_mem_nil _

theorem IsGap.append {gap gap' : List Char} (h : IsGap gap) (h' : IsGap gap') : IsGap (gap ++ gap') :=
  List.forall_mem_append.2 ⟨h, h'⟩

/-- A gap in front of a list belongs to the list. -/
theorem ArgumentsSource.prepend {gap text : List Char} {values : List Value} (hgap : IsGap gap)
    (h : ArgumentsSource text values) : ArgumentsSource (gap ++ text) values := by
  cases h with
  | nil hgap' => exact .nil (hgap.append hgap')
  | quoted hgap' hwritten hrest =>
    rw [List.append_assoc, ← List.append_assoc gap, ← List.append_assoc]
    exact .quoted (hgap.append hgap') hwritten hrest
  | word hgap' hword hnext hrest =>
    rw [List.append_assoc, ← List.append_assoc gap, ← List.append_assoc]
    exact .word (hgap.append hgap') hword hnext hrest

/-- Where an argument list starts, only a comma ends a word. -/
theorem ArgumentsSource.eq_comma_of_head? {text : List Char} {values : List Value}
    (h : ArgumentsSource text values) : ∀ c ∈ text.head?, endsArgument c = true → c = ',' := by
  have hends : ∀ {gap behind : List Char}, IsGap gap →
      (∀ c ∈ behind.head?, endsArgument c = true → c = ',') →
      ∀ c ∈ (gap ++ behind).head?, endsArgument c = true → c = ',' := by
    intro gap behind hgap hbehind c hc hends
    cases gap with
    | nil => exact hbehind c hc hends
    | cons d gap =>
      cases hc
      rcases hgap c List.mem_cons_self with hblank | rfl
      · simp only [endsArgument, Bool.or_eq_true, beq_iff_eq] at hends
        rcases hends with (rfl | rfl) | rfl
        · rfl
        · cases hblank
        · cases hblank
      · rfl
  cases h with
  | nil hgap =>
    rw [← List.append_nil text]
    exact hends hgap (by simp)
  | quoted hgap =>
    rw [List.append_assoc]
    refine hends hgap ?_
    rintro _ ⟨⟩ hquote
    cases hquote
  | @word gap word rest values hgap hword =>
    rw [List.append_assoc]
    refine hends hgap ?_
    obtain ⟨c, hc, -⟩ := hword.start
    obtain ⟨more, rfl⟩ := List.head?_eq_some_iff.1 hc
    rintro _ ⟨⟩ hend
    rw [hword.stays c List.mem_cons_self] at hend
    cases hend

theorem readArguments_gap {gap : List Char} (hgap : IsGap gap) (rest : List Char) :
    readArguments (gap ++ rest) = readArguments rest := by
  induction gap with
  | nil => rfl
  | cons c gap ih =>
    obtain ⟨hc, hmore⟩ := List.forall_mem_cons.1 hgap
    rw [List.cons_append]
    rcases hc with hblank | rfl
    · rw [readArguments_blank hblank, ih hmore]
    · rw [readArguments_comma, ih hmore]

/-- The blanks in front of a character are a gap. -/
theorem exists_gap_of_dropWhile {cs rest : List Char} {c : Char}
    (h : cs.dropWhile Text.isAsciiBlank = c :: rest) :
    ∃ gap, cs = gap ++ c :: rest ∧ IsGap gap ∧ Text.isAsciiBlank c = false := by
  refine ⟨cs.takeWhile Text.isAsciiBlank, ?_, ?_, ?_⟩
  · rw [← h, List.takeWhile_append_dropWhile]
  · intro d hd
    exact Or.inl (List.all_eq_true.1 List.all_takeWhile d hd)
  · have hnot := List.head?_dropWhile_not Text.isAsciiBlank cs
    rw [h] at hnot
    simpa using hnot

/-- What is read as an argument list is the text of one. -/
theorem exists_source_of_readArguments {cs left : List Char} {values : List Value}
    (h : readArguments cs = (some values, left)) :
    ∃ text, cs = text ++ ')' :: left ∧ ArgumentsSource text values := by
  fun_induction readArguments cs generalizing values left with
  | case1 => cases h
  | case2 => cases h
  | case3 cs c rest hdrop hopen hclose =>
    cases h
    obtain rfl : c = ')' := by simpa using hclose
    obtain ⟨gap, hcs, hgap, -⟩ := exists_gap_of_dropWhile hdrop
    exact ⟨gap, hcs, .nil hgap⟩
  | case4 cs c rest hdrop hopen hclose hcomma ih =>
    obtain rfl : c = ',' := by simpa using hcomma
    obtain ⟨gap, hcs, hgap, -⟩ := exists_gap_of_dropWhile hdrop
    obtain ⟨text, rfl, htext⟩ := ih h
    have hsingle : IsGap [','] := by simp [IsGap]
    exact ⟨gap ++ ',' :: text, by simp [hcs], (htext.prepend hsingle).prepend hgap⟩
  | case5 => cases h
  | case6 cs c rest hdrop hopen hclose hcomma hquote text rest' hread values' left' hrest ih =>
    cases values' with
    | none => cases h
    | some values' =>
      cases h
      obtain rfl : c = '"' := by simpa using hquote
      obtain ⟨gap, hcs, hgap, -⟩ := exists_gap_of_dropWhile hdrop
      obtain ⟨written, rfl, hwritten⟩ := readQuoted_eq_some_iff.1 hread
      obtain ⟨inner, rfl, hinner⟩ := ih hrest
      exact ⟨_, by simp [hcs], .quoted hgap hwritten hinner⟩
  | case7 cs c rest hdrop hopen hclose hcomma hquote =>
    rename_i values' left' hrest ih
    cases values' with
    | none => cases h
    | some values' =>
      cases h
      obtain ⟨gap, hcs, hgap, hblank⟩ := exists_gap_of_dropWhile hdrop
      obtain ⟨inner, hsplit, hinner⟩ := ih hrest
      have hends : endsArgument c = false := by simp_all [endsArgument]
      have hword : IsWord (c :: rest.takeWhile (!endsArgument ·)) :=
        ⟨⟨c, rfl, hblank, by simpa using hquote⟩,
          List.forall_mem_cons.2 ⟨hends, forall_mem_takeWhile_not endsArgument rest⟩⟩
      refine ⟨_, ?_, .word hgap hword ?_ hinner⟩
      · rw [hcs, List.append_assoc, List.append_assoc, ← hsplit, List.cons_append,
          List.takeWhile_append_dropWhile]
      · intro d hd
        refine hinner.eq_comma_of_head? d hd (forall_head?_dropWhile_not endsArgument rest d ?_)
        rw [hsplit, List.head?_append, Option.mem_def.1 hd]
        rfl

/-- The reader takes an argument list up to its closing parenthesis just when its text is one of an argument
list, and the arguments are the values of the text. -/
theorem readArguments_eq_iff {cs left : List Char} {values : List Value} :
    readArguments cs = (some values, left) ↔ ∃ text, cs = text ++ ')' :: left ∧ ArgumentsSource text values := by
  constructor
  · exact exists_source_of_readArguments
  · rintro ⟨text, rfl, h⟩
    induction h with
    | nil hgap => rw [readArguments_gap hgap, readArguments_close]
    | @quoted gap written text rest values hgap hwritten _ ih =>
      have hread : readQuoted (written ++ '"' :: (rest ++ ')' :: left)) = some (text, rest ++ ')' :: left) :=
        readQuoted_eq_some_iff.2 ⟨written, rfl, hwritten⟩
      rw [List.append_assoc, List.append_assoc, readArguments_gap hgap, List.cons_append,
        List.cons_append, readArguments_quote hread, ih]
      rfl
    | @word gap word rest values hgap hword hnext _ ih =>
      obtain ⟨c, hc, hblank, hquote⟩ := hword.start
      obtain ⟨more, rfl⟩ := List.head?_eq_some_iff.1 hc
      obtain ⟨hends, hmore⟩ := List.forall_mem_cons.1 hword.stays
      have hnext' : ∀ d ∈ (rest ++ ')' :: left).head?, endsArgument d = true := by
        intro d hd
        cases rest with
        | nil =>
          cases hd
          rfl
        | cons e rest =>
          cases hd
          rw [hnext _ rfl]
          rfl
      rw [List.append_assoc, List.append_assoc, readArguments_gap hgap,
        readArguments_word hblank hends hquote hmore hnext', ih]
      rfl

end UriRouting.Template
