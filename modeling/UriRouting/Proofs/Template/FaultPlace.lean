import UriRouting.Proofs.Template.OpenVariables
/-!
# Where faults show

The fault of a text that is no template is at the first place at which the text cannot be completed any
more. Everything in front of that place is the start of a template, and with the character at the place it
is not, whatever comes behind. Only the fault of an empty optional segment is at its opening bracket, one
character earlier.

What a text between segments does depends on how many segments are open and on whether something has been
read inside the innermost one.

* `Moves` says what the next piece of a text does to these two;
* `SegmentsRead` and `segmentsRead` say how the rest of a text is read;
* `placedIn_of_parse` is the main statement.
-/

namespace UriRouting

open UriRouting.Tree UriRouting.Template

namespace Template

/-! ## Between segments -/

/-- Where reading stands: so many segments are open, and perhaps nothing has been read inside the innermost
one. -/
structure Stands (depth : Nat) (fresh : Bool) (segments : List OpenSegment) (parts : List Tree) : Prop where
  /-- The number of open segments. -/
  depth : segments.length = depth
  /-- Whether nothing has been read inside the innermost one. -/
  fresh : parts.isEmpty = fresh

/-- A text that completes a template. -/
def Accepts (depth : Nat) (fresh : Bool) (cs : List Char) : Prop :=
  ∀ (total last : Nat) (segments : List OpenSegment) (parts : List Tree),
    Stands depth fresh segments parts →
    ∃ tree, readSegments last segments parts (scan total .segments cs) = .ok tree

/-- A text that completes no template from the first character of `left` on. -/
def Breaks (depth : Nat) (fresh : Bool) (text left : List Char) : Prop :=
  ∀ (total last : Nat) (segments : List OpenSegment) (parts : List Tree) (left' : List Char),
    Stands depth fresh segments parts → left'.head? = left.head? →
    ∃ expected token, readSegments last segments parts (scan total .segments (text ++ left'))
      = .error ⟨total - byteLength left', expected, .token token⟩

/-- What a piece of text does to the open segments, as long as what follows goes on. -/
def Moves (depth : Nat) (fresh : Bool) (piece rest : List Char) (depth' : Nat) (fresh' : Bool) : Prop :=
  ∀ (total last : Nat) (segments : List OpenSegment) (parts : List Tree) (rest' : List Char),
    Stands depth fresh segments parts → GoesOn '/' rest rest' →
    ∃ segments' parts', Stands depth' fresh' segments' parts'
      ∧ readSegments last segments parts (scan total .segments (piece ++ rest'))
        = readSegments last segments' parts' (scan total .segments rest')

section

variable {depth : Nat} {fresh : Bool}

theorem isEmpty_addLiteral (text : String) (parts : List Tree) :
    (addLiteral text parts).isEmpty = false := by
  fun_cases addLiteral text parts <;> rfl

theorem moves_slash (rest : List Char) : Moves depth fresh ['/'] rest depth false := by
  intro total last segments parts rest' hstands _
  refine ⟨segments, addLiteral "/" parts, ⟨hstands.depth, isEmpty_addLiteral _ _⟩, ?_⟩
  rw [List.singleton_append, scan_segments_slash, readSegments]

theorem moves_text {text rest : List Char} (hne : text ≠ [])
    (htext : ∀ c ∈ text, isStructural c = false) (hrest : ∀ c ∈ rest.head?, isStructural c = true) :
    Moves depth fresh text rest depth false := by
  intro total last segments parts rest' hstands hgoes
  refine ⟨segments, addLiteral (String.ofList text) parts, ⟨hstands.depth, isEmpty_addLiteral _ _⟩, ?_⟩
  rw [scan_segments_text total hne htext (hgoes.forall_head? hrest rfl), readSegments]

theorem moves_open (hdepth : depth < maxNesting) (rest : List Char) :
    Moves depth fresh ['['] rest (depth + 1) true := by
  intro total last segments parts rest' hstands _
  refine ⟨⟨total - byteLength ('[' :: rest'), parts⟩ :: segments, [], ⟨?_, rfl⟩, ?_⟩
  · rw [List.length_cons, hstands.depth]
  · rw [List.singleton_append, scan_segments_open, readSegments, if_pos (hstands.depth ▸ hdepth)]

theorem moves_close (rest : List Char) : Moves (depth + 1) false [']'] rest depth false := by
  intro total last segments parts rest' hstands _
  obtain ⟨segment, outer, rfl⟩ := List.exists_cons_of_length_eq_add_one hstands.depth
  obtain ⟨part, parts, rfl⟩ : ∃ part more, parts = part :: more := by
    cases parts with
    | nil => cases hstands.fresh
    | cons part more => exact ⟨part, more, rfl⟩
  refine ⟨outer, .optional (part :: parts).reverse :: segment.before, ⟨?_, rfl⟩, ?_⟩
  · simpa using hstands.depth
  · rw [List.singleton_append, scan_segments_close, readSegments]
    simp

/-- A variable is taken up with what stands behind its name. -/
theorem readSegments_variable {name more : List Char} (hname : IsName name)
    (hmore : ∀ c ∈ more.head?, continuesName c = false) (total last : Nat)
    (segments : List OpenSegment) (parts : List Tree) :
    readSegments last segments parts (scan total .segments (':' :: (name ++ more)))
      = (readVariable last (⟨.identifier (String.ofList name), 0⟩ :: scan total .named more)).bind
          fun (tree, left) => readSegments last segments (tree :: parts) left := by
  rw [scan_segments_variable total hname hmore, readSegments]
  generalize hread : readVariable last (_ :: scan total .named more) = read
  have hread' : readVariable last (⟨.identifier (String.ofList name), 0⟩ :: scan total .named more)
      = read := hread
  rw [hread']
  cases read <;> rfl

theorem Moves.accepts {piece rest rest' : List Char} {depth' : Nat} {fresh' : Bool}
    (h : Moves depth fresh piece rest depth' fresh') (hgoes : GoesOn '/' rest rest')
    (haccepts : Accepts depth' fresh' rest') : Accepts depth fresh (piece ++ rest') := by
  intro total last segments parts hstands
  obtain ⟨segments', parts', hstands', hread⟩ := h total last segments parts rest' hstands hgoes
  rw [hread]
  exact haccepts total last segments' parts' hstands'

/-- A variable in front of what completes a template. -/
theorem accepts_variable {name rest : List Char} (tree : Tree) (hname : IsName name) (text : List Char)
    (hmore : ∀ c ∈ (text ++ rest).head?, continuesName c = false)
    (h : ∀ total last, readVariable last (⟨.identifier (String.ofList name), 0⟩
      :: scan total .named (text ++ rest)) = .ok (tree, scan total .segments rest))
    (haccepts : Accepts depth false rest) : Accepts depth fresh (':' :: (name ++ (text ++ rest))) := by
  intro total last segments parts hstands
  rw [readSegments_variable hname hmore, h]
  exact haccepts total last segments (tree :: parts) ⟨hstands.depth, rfl⟩

theorem accepts_nil : Accepts 0 fresh [] := by
  intro total last segments parts hstands
  obtain rfl := List.length_eq_zero_iff.1 hstands.depth
  rw [scan, readSegments]
  exact ⟨_, rfl⟩

/-- The brackets that are still missing. -/
theorem accepts_brackets (depth : Nat) : Accepts depth false (List.replicate depth ']') := by
  induction depth with
  | zero => exact accepts_nil
  | succ depth ih => exact (moves_close (List.replicate depth ']')).accepts (Or.inl rfl) ih

/-- A slash in front of the missing brackets, so that no segment stays empty. -/
theorem accepts_closing (depth : Nat) (fresh : Bool) :
    Accepts depth fresh ('/' :: List.replicate depth ']') :=
  (moves_slash (List.replicate depth ']')).accepts (Or.inl rfl) (accepts_brackets depth)

/-! ## How a text is read -/

/-- How the rest of a text is read. -/
inductive SegmentsRead (depth : Nat) (fresh : Bool) : List Char → Prop
  /-- It completes a template. -/
  | accepted (cs : List Char) (h : Accepts depth fresh cs) : SegmentsRead depth fresh cs
  /-- It breaks where `text` ends; `text` could have been completed. -/
  | broken (text left closing : List Char) (h : Breaks depth fresh text left)
      (hclosing : text = [] → closing.head? = some '/') (haccepts : Accepts depth fresh (text ++ closing)) :
      SegmentsRead depth fresh (text ++ left)
  /-- An empty segment starts where `text` ends; `text` could have been completed. -/
  | empty (text left closing : List Char)
      (h : ∀ (total last : Nat) (segments : List OpenSegment) (parts : List Tree),
        Stands depth fresh segments parts →
        readSegments last segments parts (scan total .segments (text ++ '[' :: ']' :: left))
          = .error ⟨total - byteLength ('[' :: ']' :: left), .nonEmptyOptional, .emptyOptional⟩)
      (hclosing : text = [] → closing.head? = some '/') (haccepts : Accepts depth fresh (text ++ closing)) :
      SegmentsRead depth fresh (text ++ '[' :: ']' :: left)

/-- A completion goes on where a text did. -/
theorem goesOn_closing {text closing : List Char} (hclosing : text = [] → closing.head? = some '/')
    (left : List Char) : GoesOn '/' (text ++ left) (text ++ closing) := by
  cases text with
  | nil => exact Or.inr (hclosing rfl)
  | cons => exact Or.inl rfl

/-- A piece of text in front does not change how the rest is read. -/
theorem SegmentsRead.prepend {piece rest : List Char} {depth' : Nat} {fresh' : Bool} (hne : piece ≠ [])
    (hmoves : Moves depth fresh piece rest depth' fresh') (h : SegmentsRead depth' fresh' rest) :
    SegmentsRead depth fresh (piece ++ rest) := by
  cases h with
  | accepted _ h => exact .accepted _ (hmoves.accepts (Or.inl rfl) h)
  | broken text left closing h hclosing haccepts =>
    rw [← List.append_assoc]
    refine .broken _ left closing (fun total last segments parts left' hstands hhead => ?_)
      (fun hnil => absurd (List.append_eq_nil_iff.1 hnil).1 hne) ?_
    · obtain ⟨segments', parts', hstands', hread⟩ := hmoves total last segments parts (text ++ left')
        hstands (GoesOn.append_left text (Or.inl hhead))
      obtain ⟨expected, token, hstop⟩ := h total last segments' parts' left' hstands' hhead
      exact ⟨expected, token, by rw [List.append_assoc, hread, hstop]⟩
    · rw [List.append_assoc]
      exact hmoves.accepts (goesOn_closing hclosing left) haccepts
  | empty text left closing h hclosing haccepts =>
    rw [← List.append_assoc]
    refine .empty _ left closing (fun total last segments parts hstands => ?_)
      (fun hnil => absurd (List.append_eq_nil_iff.1 hnil).1 hne) ?_
    · obtain ⟨segments', parts', hstands', hread⟩ := hmoves total last segments parts _ hstands (Or.inl rfl)
      rw [List.append_assoc, hread, h total last segments' parts' hstands']
    · rw [List.append_assoc]
      exact hmoves.accepts (goesOn_closing hclosing _) haccepts

/-- A text that breaks at its first character. -/
theorem SegmentsRead.of_breaks {left : List Char} (h : Breaks depth fresh [] left) :
    SegmentsRead depth fresh left :=
  .broken [] left _ h (fun _ => rfl) (accepts_closing depth fresh)

/-- At the end of the text, every open segment is missing its bracket. -/
theorem segmentsRead_nil (depth : Nat) (fresh : Bool) : SegmentsRead depth fresh [] := by
  cases depth with
  | zero => exact .accepted [] accepts_nil
  | succ depth =>
    refine .of_breaks fun total last segments parts left' hstands hhead => ?_
    obtain rfl := List.head?_eq_none_iff.1 hhead
    obtain ⟨segment, outer, rfl⟩ := List.exists_cons_of_length_eq_add_one hstands.depth
    refine ⟨.closingBracket, .finish, ?_⟩
    rw [List.nil_append, scan, readSegments]
    · rfl
    · exact List.cons_ne_nil _ _

/-- A closing bracket closes a segment that holds something. -/
theorem segmentsRead_close {rest : List Char} (hfilled : 0 < depth → fresh = false)
    (ih : ∀ depth, SegmentsRead depth false rest) : SegmentsRead depth fresh (']' :: rest) := by
  cases depth with
  | zero =>
    refine .of_breaks fun total last segments parts left' hstands hhead => ?_
    obtain ⟨more, rfl⟩ := List.head?_eq_some_iff.1 hhead
    obtain rfl := List.length_eq_zero_iff.1 hstands.depth
    refine ⟨.segment, .optionalClose, ?_⟩
    rw [List.nil_append, scan_segments_close, readSegments]
    rfl
  | succ depth =>
    obtain rfl := hfilled (Nat.succ_pos depth)
    exact (ih depth).prepend (List.cons_ne_nil ']' []) (moves_close rest)

/-- An opening bracket opens a segment, unless too many are open or the segment is empty. -/
theorem segmentsRead_open {rest : List Char}
    (ih : rest.head? ≠ some ']' → SegmentsRead (depth + 1) true rest) :
    SegmentsRead depth fresh ('[' :: rest) := by
  by_cases hdepth : depth < maxNesting
  · by_cases hclose : rest.head? = some ']'
    · obtain ⟨left, rfl⟩ := List.head?_eq_some_iff.1 hclose
      refine .empty [] left _ (fun total last segments parts hstands => ?_) (fun _ => rfl)
        (accepts_closing depth fresh)
      rw [List.nil_append, scan_segments_open, readSegments, if_pos (hstands.depth ▸ hdepth),
        scan_segments_close, readSegments]
    · exact (ih hclose).prepend (List.cons_ne_nil '[' []) (moves_open hdepth rest)
  · refine .of_breaks fun total last segments parts left' hstands hhead => ?_
    obtain ⟨more, rfl⟩ := List.head?_eq_some_iff.1 hhead
    refine ⟨.shallowerNesting, .optionalOpen, ?_⟩
    rw [List.nil_append, scan_segments_open, readSegments, if_neg (hstands.depth ▸ hdepth)]

/-- A colon needs a name. -/
theorem segmentsRead_colon {rest : List Char} (hname : takeName? rest = none) :
    SegmentsRead depth fresh (':' :: rest) := by
  refine .broken [':'] rest ('a' :: '/' :: List.replicate depth ']')
    (fun total last segments parts left' _ hhead => ?_) (fun h => nomatch h) ?_
  · obtain ⟨token, more, hscan, hends⟩ := exists_scan_segments_cons total left'
    have hcolon : scan total .segments (':' :: left')
        = ⟨.variableOpen, total - byteLength (':' :: left')⟩ :: scan total .segments left' := by
      rw [scan]
      simp [step, takeName?_eq_none_of_head? hhead hname]
    refine ⟨.variableName, token, ?_⟩
    rw [List.singleton_append, hcolon, hscan, readSegments, readVariable]
    · rfl
    · rintro slug position rest' ⟨⟩
      cases hends
  · have hslash : ∀ d ∈ ('/' :: List.replicate depth ']').head?,
        continuesName d = false ∧ standsBehind [] none d = true := by
      rintro _ ⟨⟩
      exact ⟨rfl, rfl⟩
    have hread : ∀ total last, readVariable last (⟨.identifier (String.ofList ['a']), 0⟩
          :: scan total .named ('/' :: List.replicate depth ']'))
        = .ok (.variable (String.ofList ['a']) [] none, scan total .segments ('/' :: List.replicate depth ']')) :=
      fun total last =>
        readVariable_written total (List.forall_mem_nil _) (by simp) fun d hd => (hslash d hd).2
    exact accepts_variable _ ⟨'a', [], rfl, rfl, rfl⟩ [] (fun d hd => (hslash d hd).1) hread
      (accepts_closing depth false)

/-- A name starts a variable. -/
theorem segmentsRead_name {name more : List Char} (hname : IsName name)
    (hmore : ∀ c ∈ more.head?, continuesName c = false)
    (ih : ∀ left : List Char, left.length ≤ more.length → SegmentsRead depth false left) :
    SegmentsRead depth fresh (':' :: (name ++ more)) := by
  cases outcome_readVariable (String.ofList name) more with
  | passes text left tree h =>
    have hmoves : Moves depth fresh (':' :: (name ++ text)) left depth false := by
      intro total last segments parts left' hstands hgoes
      refine ⟨segments, tree :: parts, ⟨hstands.depth, rfl⟩, ?_⟩
      have hnext := (hgoes.append_left text).forall_head? hmore rfl
      rw [List.cons_append, List.append_assoc, readSegments_variable hname hnext,
        h total last left' hgoes]
      rfl
    have hleft : left.length ≤ (text ++ left).length := by
      rw [List.length_append]
      omega
    rw [← List.append_assoc, ← List.cons_append]
    exact (ih left hleft).prepend (List.cons_ne_nil _ _) hmoves
  | stops text left closing hne h hclosed =>
    have hnext : ∀ left' : List Char, ∀ c ∈ (text ++ left').head?, continuesName c = false := by
      intro left'
      have hgoes : GoesOn '/' (text ++ left) (text ++ left') := goesOn_of_ne_nil hne left left'
      exact hgoes.forall_head? hmore rfl
    rw [← List.append_assoc, ← List.cons_append]
    refine .broken _ left (closing ++ '/' :: List.replicate depth ']')
      (fun total last segments parts left' _ hhead => ?_) (fun h => nomatch h) ?_
    · obtain ⟨expected, token, hstop⟩ := h total last left' hhead
      refine ⟨expected, token, ?_⟩
      rw [List.cons_append, List.append_assoc, readSegments_variable hname (hnext left'), hstop]
      rfl
    · obtain ⟨tree, htree⟩ := hclosed ('/' :: List.replicate depth ']') rfl
      have haccepts : Accepts depth fresh
          (':' :: (name ++ (text ++ closing ++ '/' :: List.replicate depth ']'))) := by
        refine accepts_variable tree hname (text ++ closing) ?_ (fun total last => ?_)
          (accepts_closing depth false)
        · rw [List.append_assoc]
          exact hnext _
        · rw [List.append_assoc]
          exact htree total last
      simpa using haccepts

/-- A literal text goes on to the next punctuation. -/
theorem segmentsRead_text {c : Char} {rest : List Char} (hc : isStructural c = false)
    (ih : SegmentsRead depth false (rest.dropWhile (!isStructural ·))) :
    SegmentsRead depth fresh (c :: rest) := by
  have hmoves : Moves depth fresh (c :: rest.takeWhile (!isStructural ·))
      (rest.dropWhile (!isStructural ·)) depth false :=
    moves_text (List.cons_ne_nil _ _)
      (List.forall_mem_cons.2 ⟨hc, forall_mem_takeWhile_not isStructural rest⟩)
      (forall_head?_dropWhile_not isStructural rest)
  have hread := ih.prepend (List.cons_ne_nil _ _) hmoves
  rwa [List.cons_append, List.takeWhile_append_dropWhile] at hread

end

/-- Every text is read in one of these ways, unless it closes an empty segment at once. -/
theorem segmentsRead {depth : Nat} {fresh : Bool} (cs : List Char)
    (hfilled : cs.head? = some ']' → 0 < depth → fresh = false) : SegmentsRead depth fresh cs := by
  -- a piece is taken off the front each time; behind all but an opening bracket something has been read
  induction hlen : cs.length using Nat.strong_induction_on generalizing cs depth fresh with
  | _ n ih =>
    cases cs with
    | nil => exact segmentsRead_nil depth fresh
    | cons c rest =>
      have hshorter : ∀ (depth : Nat) (fresh : Bool) (left : List Char), left.length ≤ rest.length →
          (left.head? = some ']' → 0 < depth → fresh = false) → SegmentsRead depth fresh left :=
        fun depth fresh left hleft hfilled =>
          ih left.length (by rw [← hlen, List.length_cons]; omega) left hfilled rfl
      by_cases hslash : c = '/'
      · subst hslash
        exact (hshorter depth false rest le_rfl fun _ _ => rfl).prepend (List.cons_ne_nil '/' [])
          (moves_slash rest)
      by_cases hopen : c = '['
      · subst hopen
        exact segmentsRead_open fun hclose => hshorter _ _ rest le_rfl fun hhead => absurd hhead hclose
      by_cases hclose : c = ']'
      · subst hclose
        exact segmentsRead_close (hfilled rfl) fun depth => hshorter depth false rest le_rfl fun _ _ => rfl
      by_cases hcolon : c = ':'
      · subst hcolon
        cases htake : takeName? rest with
        | none => exact segmentsRead_colon htake
        | some taken =>
          obtain ⟨name, more⟩ := taken
          obtain ⟨rfl, hname, hmore⟩ := takeName?_eq_some_iff.1 htake
          refine segmentsRead_name hname hmore fun left hleft => hshorter depth false left ?_ fun _ _ => rfl
          rw [List.length_append]
          omega
      · exact segmentsRead_text (by simp [isStructural, hslash, hopen, hclose, hcolon])
          (hshorter depth false _ (List.length_dropWhile_le _ rest) fun _ _ => rfl)

/-! ## Faults of a template -/

theorem byteLength_eq (cs : List Char) : byteLength cs = (String.ofList cs).utf8ByteSize := by
  rw [String.utf8ByteSize_ofList]
  induction cs with
  | nil => rfl
  | cons c cs ih =>
    rw [String.utf8Len_cons, ← ih, Nat.add_comm]
    rfl

theorem byteLength_append_sub (text left : List Char) :
    byteLength (text ++ left) - byteLength left = (String.ofList text).utf8ByteSize := by
  rw [byteLength_eq, byteLength_eq, String.ofList_append, String.utf8ByteSize_append, Nat.add_sub_cancel]

/-- A template is read with no open segments and no parts. -/
theorem exists_parse_eq (cs : List Char) : ∃ last, Tree.parse (String.ofList cs)
    = readSegments last [] [] (scan (byteLength cs) .segments cs) := by
  refine ⟨((tokenize (String.ofList cs)).getLast?.map (·.position)).getD 0, ?_⟩
  rw [Tree.parse, Tree.ofLexemes]
  nth_rewrite 2 [tokenize]
  rw [String.toList_ofList]

theorem exists_parse_of_accepts {cs : List Char} (h : Accepts 0 true cs) :
    ∃ tree, Tree.parse (String.ofList cs) = .ok tree := by
  obtain ⟨last, hparse⟩ := exists_parse_eq cs
  rw [hparse]
  exact h _ last [] [] ⟨rfl, rfl⟩

theorem exists_parse_of_breaks {text left left' : List Char} (h : Breaks 0 true text left)
    (hhead : left'.head? = left.head?) :
    ∃ expected token, Tree.parse (String.ofList (text ++ left'))
      = .error ⟨(String.ofList text).utf8ByteSize, expected, .token token⟩ := by
  obtain ⟨last, hparse⟩ := exists_parse_eq (text ++ left')
  rw [hparse, ← byteLength_append_sub text left']
  exact h _ last [] [] left' ⟨rfl, rfl⟩ hhead

end Template

/-- The place of a fault, between two parts of a text. -/
structure SyntaxFault.PlacedIn (fault : SyntaxFault) (before after : String) : Prop where
  /-- The fault is at the byte where the second part starts. -/
  position : fault.position = before.utf8ByteSize
  /-- The first part is the start of a template. -/
  completed : ∃ more tree, Tree.parse (before ++ more) = .ok tree
  /-- With the character at the place it is not, whatever comes behind. -/
  broken : fault.found ≠ .emptyOptional → ∀ c ∈ after.toList.head?, ∀ more, ∃ fault',
    Tree.parse (before ++ String.singleton c ++ more) = .error fault' ∧ fault'.position = fault.position
  /-- An empty optional segment starts at the place. -/
  empty : fault.found = .emptyOptional → ∃ more, after = "[]" ++ more

namespace Template

section

variable {text left closing : List Char} (haccepts : Accepts 0 true (text ++ closing))

include haccepts

theorem placedIn_of_breaks (h : Breaks 0 true text left) (expected : Expectation) (token : Token) :
    (SyntaxFault.mk (String.ofList text).utf8ByteSize expected (.token token)).PlacedIn
      (String.ofList text) (String.ofList left) := by
  refine ⟨rfl, ⟨String.ofList closing, ?_⟩, fun _ c hc more => ?_, fun hfound => nomatch hfound⟩
  · rw [← String.ofList_append]
    exact exists_parse_of_accepts haccepts
  · rw [String.toList_ofList] at hc
    have hhead : (c :: more.toList).head? = left.head? := hc.symm
    obtain ⟨expected', token', hparse⟩ := exists_parse_of_breaks h hhead
    have htext : String.ofList text ++ String.singleton c ++ more
        = String.ofList (text ++ c :: more.toList) := by
      rw [String.ofList_append, String.ofList_cons, String.ofList_toList, String.append_assoc]
    rw [htext]
    exact ⟨_, hparse, rfl⟩

theorem placedIn_of_empty (left : List Char) :
    (SyntaxFault.mk (String.ofList text).utf8ByteSize .nonEmptyOptional .emptyOptional).PlacedIn
      (String.ofList text) (String.ofList ('[' :: ']' :: left)) := by
  refine ⟨rfl, ⟨String.ofList closing, ?_⟩, fun hfound => absurd rfl hfound,
    fun _ => ⟨String.ofList left, ?_⟩⟩
  · rw [← String.ofList_append]
    exact exists_parse_of_accepts haccepts
  · rw [String.ofList_cons, String.ofList_cons, ← String.append_assoc]
    rfl

end

/-- The fault of a text is where the text cannot be completed any more. -/
theorem placedIn_of_parse {raw : String} {fault : SyntaxFault} (h : Tree.parse raw = .error fault) :
    fault.position ≤ raw.utf8ByteSize
      ∧ ∃ before after, raw = before ++ after ∧ fault.PlacedIn before after := by
  obtain ⟨before, after, rfl, hplaced⟩ :
      ∃ before after, raw = before ++ after ∧ fault.PlacedIn before after := by
    have hread : SegmentsRead 0 true raw.toList :=
      segmentsRead raw.toList fun _ hdepth => absurd hdepth (lt_irrefl 0)
    generalize hcs : raw.toList = cs at hread
    obtain rfl : raw = String.ofList cs := by rw [← hcs, String.ofList_toList]
    cases hread with
    | accepted _ haccepts =>
      obtain ⟨tree, htree⟩ := exists_parse_of_accepts haccepts
      cases h.symm.trans htree
    | broken text left closing hbreaks hclosing haccepts =>
      obtain ⟨expected, token, hparse⟩ := exists_parse_of_breaks hbreaks rfl
      cases h.symm.trans hparse
      exact ⟨_, _, String.ofList_append, placedIn_of_breaks haccepts hbreaks expected token⟩
    | empty text left closing hempty hclosing haccepts =>
      obtain ⟨last, hparse⟩ := exists_parse_eq (text ++ '[' :: ']' :: left)
      rw [hempty _ last [] [] ⟨rfl, rfl⟩, byteLength_append_sub] at hparse
      cases h.symm.trans hparse
      exact ⟨_, _, String.ofList_append, placedIn_of_empty haccepts left⟩
  refine ⟨?_, before, after, rfl, hplaced⟩
  rw [hplaced.position, String.utf8ByteSize_append]
  exact Nat.le_add_right _ _

/-- A parenthesis among the arguments of a rule is where a list of arguments breaks off. -/
theorem placedIn_of_parse_parenthesis :
    let fault : SyntaxFault := ⟨10, .ruleSeparator, .token (.text "(2))")⟩
    Tree.parse "é[:x(in(1(2))]" = .error fault
      ∧ fault.position ≤ "é[:x(in(1(2))]".utf8ByteSize
      ∧ ∃ before after, "é[:x(in(1(2))]" = before ++ after ∧ fault.PlacedIn before after := by
  have h : Tree.parse "é[:x(in(1(2))]" = .error ⟨10, .ruleSeparator, .token (.text "(2))")⟩ := by
    cbv
    exact eq_of_bind_read (by cbv)
  exact ⟨h, placedIn_of_parse h⟩

end Template

end UriRouting
