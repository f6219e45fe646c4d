import UriRouting.Proofs.Template.Compiled
import UriRouting.Proofs.Template.Derivation
/-!
# Paths in segments

A path is in segments if every variable goes on to the end of its segment and an optional segment is
the tail of what it stands in. Such a path is derived in one way only: a variable takes everything up to
the next slash, and a tail is there if and only if there is something left.

Main statements: `Segmented.captured_unique`, `exists_parts_of_parse` and
`Segmented.head?_ne_slash`.
-/

namespace UriRouting

open UriRouting.Tree

namespace Template

/-! ## Shape -/

/-- Parts before which a segment ends: there are none, or literal text comes that starts with a slash,
or a tail comes. -/
def EndsSegment : List Tree → Prop
  | [] => True
  | .literal own :: _ => own.toList.head? = some '/'
  | .optional _ :: _ => True
  | _ => False

/-- Parts in which variables go on to the end of their segments, and in which an optional segment is a
tail that starts with a slash, as in `a/:x[/:y[/:z]]`. What stands before a variable in its segment does
not matter, nor does it whether a tail has a variable. -/
inductive Segmented : List Tree → Prop where
  | nil : Segmented []
  | literal {own : String} {parts : List Tree} (h : Segmented parts) :
      Segmented (.literal own :: parts)
  /-- The segment of a variable ends behind it. -/
  | variable {name : String} {calls : List RuleCall} {default : Option String} {parts : List Tree}
      (hends : EndsSegment parts) (h : Segmented parts) :
      Segmented (.variable name calls default :: parts)
  /-- An optional segment is the last part and starts with a slash. -/
  | optional {own : String} {parts : List Tree} (hslash : own.toList.head? = some '/')
      (h : Segmented (.literal own :: parts)) : Segmented [.optional (.literal own :: parts)]

/-! ## Derivations in segments -/

section

variable {parts : List Tree} {text : List Char} {choices : List Nat}
  {captured : List (String × List Char)}

/-- A literal of a path stands for its own characters only. -/
theorem derivesAll_literal {own : String}
    (h : DerivesAll .path (.literal own :: parts) text choices captured) :
    ∃ rest choices', text = own.toList ++ rest ∧ DerivesAll .path parts rest choices' captured := by
  cases h with
  | cons hown hrest =>
    cases hown with
    | literal hown =>
      have heq : List.Forall₂ (· = ·) own.toList _ :=
        hown.imp fun c d hcd => by simpa [Side.sameChar] using hcd
      rw [List.forall₂_eq_eq_eq] at heq
      exact ⟨_, _, by rw [heq], hrest⟩

/-- A variable of a path stands for some text without slashes. -/
theorem derivesAll_variable {name : String} {calls : List RuleCall} {default : Option String}
    (h : DerivesAll .path (.variable name calls default :: parts) text choices captured) :
    ∃ own rest choices' captured', text = own ++ rest ∧ captured = (name, own) :: captured'
      ∧ own ≠ [] ∧ '/' ∉ own ∧ DerivesAll .path parts rest choices' captured' := by
  cases h with
  | cons hown hrest =>
    cases hown with
    | «variable» hne hown =>
      refine ⟨_, _, _, _, rfl, rfl, hne, ?_, hrest⟩
      intro hmem
      have hslash := hown '/' hmem
      cases hslash

/-- A tail is left out, or it stands for what its parts stand for. -/
theorem derivesAll_tail (h : DerivesAll .path [.optional parts] text choices captured) :
    text = [] ∧ captured = [] ∨ ∃ choices', DerivesAll .path parts text choices' captured := by
  cases h with
  | cons hown hrest =>
    cases hrest
    rw [List.append_nil, List.append_nil]
    cases hown with
    | taken hown => exact Or.inr ⟨_, hown⟩
    | skipped => exact Or.inl ⟨rfl, rfl⟩

/-- What starts with a literal that starts with a slash starts with a slash. -/
theorem head?_of_derivesAll_literal {own : String} (hslash : own.toList.head? = some '/')
    (h : DerivesAll .path (.literal own :: parts) text choices captured) :
    text.head? = some '/' := by
  obtain ⟨rest, choices', rfl, -⟩ := derivesAll_literal h
  rw [List.head?_append, hslash]
  rfl

/-- Behind the end of a segment comes nothing or a slash. -/
theorem head?_of_endsSegment (hparts : Segmented parts) (hends : EndsSegment parts)
    (h : DerivesAll .path parts text choices captured) : text = [] ∨ text.head? = some '/' := by
  cases hparts with
  | nil =>
    cases h
    exact Or.inl rfl
  | literal hparts => exact Or.inr (head?_of_derivesAll_literal hends h)
  | «variable» _ hparts => cases hends
  | optional hslash hparts =>
    rcases derivesAll_tail h with ⟨htext, -⟩ | ⟨choices', htail⟩
    · exact Or.inl htext
    · exact Or.inr (head?_of_derivesAll_literal hslash htail)

end

/-- A text without slashes is what comes before the first slash. -/
theorem takeWhile_append_of_notMem {text rest : List Char} (htext : '/' ∉ text)
    (hrest : rest = [] ∨ rest.head? = some '/') : (text ++ rest).takeWhile (· != '/') = text := by
  have hall : ∀ c ∈ text, (c != '/') = true := fun c hc => bne_iff_ne.2 fun heq => htext (heq ▸ hc)
  rw [List.takeWhile_append_of_pos hall]
  rcases hrest with rfl | hhead
  · simp
  · obtain ⟨rest', rfl⟩ := List.head?_eq_some_iff.1 hhead
    simp

/-- A path in segments is derived with the same texts of its variables in every way. -/
theorem Segmented.captured_unique {parts : List Tree} (hparts : Segmented parts)
    {text : List Char} {choices choices' : List Nat} {captured captured' : List (String × List Char)}
    (h : DerivesAll .path parts text choices captured)
    (h' : DerivesAll .path parts text choices' captured') : captured = captured' := by
  induction hparts generalizing text choices choices' captured captured' with
  | nil =>
    cases h
    cases h'
    rfl
  | literal _ ih =>
    obtain ⟨rest, _, rfl, hrest⟩ := derivesAll_literal h
    obtain ⟨rest', _, htext, hrest'⟩ := derivesAll_literal h'
    obtain rfl := List.append_cancel_left htext
    exact ih hrest hrest'
  | «variable» hends hparts ih =>
    obtain ⟨own, rest, _, _, rfl, rfl, -, hown, hrest⟩ := derivesAll_variable h
    obtain ⟨own', rest', _, _, htext, rfl, -, hown', hrest'⟩ := derivesAll_variable h'
    -- both stand for what comes before the first slash
    have hsame : own = own' :=
      calc own
        _ = (own ++ rest).takeWhile (· != '/') :=
          (takeWhile_append_of_notMem hown (head?_of_endsSegment hparts hends hrest)).symm
        _ = (own' ++ rest').takeWhile (· != '/') := by rw [htext]
        _ = own' := takeWhile_append_of_notMem hown' (head?_of_endsSegment hparts hends hrest')
    subst hsame
    obtain rfl := List.append_cancel_left htext
    rw [ih hrest hrest']
  | optional hslash hparts ih =>
    -- a tail that is there starts with a slash, so it is not left out in another way
    rcases derivesAll_tail h with ⟨rfl, rfl⟩ | ⟨_, htail⟩
    · rcases derivesAll_tail h' with ⟨-, rfl⟩ | ⟨_, htail'⟩
      · rfl
      · cases head?_of_derivesAll_literal hslash htail'
    · rcases derivesAll_tail h' with ⟨rfl, -⟩ | ⟨_, htail'⟩
      · cases head?_of_derivesAll_literal hslash htail
      · exact ih htail htail'

/-! ## The first part -/

/-- A part that is no literal with a slash in front. -/
def Unslashed : Tree → Prop
  | .literal own => ∃ c cs, own.toList = c :: cs ∧ c ≠ '/'
  | _ => True

/-- A token that does not put a slash in front. -/
def Unslashing : Token → Prop
  | .text run => ∃ c cs, run.toList = c :: cs ∧ c ≠ '/'
  | .slash => False
  | _ => True

/-- The parts outside of all open segments, the last one first. -/
def outermost : List OpenSegment → List Tree → List Tree
  | [], parts => parts
  | segment :: segments, _ => outermost segments segment.before

/-- There is a first part, or a segment is open that will be the first part, and no slash is in
front. -/
structure StartsUnslashed (segments : List OpenSegment) (parts : List Tree) : Prop where
  /-- The first part has no slash in front. -/
  first : ∀ part ∈ (outermost segments parts).getLast?, Unslashed part
  /-- Something has been read. -/
  begun : segments = [] → parts ≠ []

theorem StartsUnslashed.cons {segments : List OpenSegment} {parts : List Tree} (part : Tree)
    (h : StartsUnslashed segments parts) : StartsUnslashed segments (part :: parts) := by
  cases segments with
  | nil =>
    obtain ⟨first, rest, rfl⟩ := List.exists_cons_of_ne_nil (h.begun rfl)
    exact ⟨fun last hlast => h.first last (by simpa [outermost] using hlast), by simp⟩
  | cons segment segments => exact ⟨h.first, by simp⟩

theorem StartsUnslashed.addLiteral {segments : List OpenSegment} {parts : List Tree} (text : String)
    (h : StartsUnslashed segments parts) : StartsUnslashed segments (addLiteral text parts) := by
  fun_cases Template.addLiteral text parts with
  | case1 before parts =>
    cases segments with
    | nil =>
      refine ⟨?_, by simp⟩
      intro last hlast
      cases parts with
      | nil =>
        obtain ⟨c, cs, hbefore, hc⟩ := h.first (.literal before) rfl
        obtain rfl : .literal (before ++ text) = last := by simpa [outermost] using hlast
        exact ⟨c, cs ++ text.toList, by rw [String.toList_append, hbefore, List.cons_append], hc⟩
      | cons part parts => exact h.first last (by simpa [outermost] using hlast)
    | cons segment segments => exact ⟨h.first, by simp⟩
  | case2 => exact h.cons _

/-- What is read behind a start without a slash has none in front either. -/
theorem exists_parts_of_readSegments {last : Nat} {segments : List OpenSegment} {parts : List Tree}
    {ts : List Lexeme} {tree : Tree} (h : readSegments last segments parts ts = .ok tree)
    (hstart : StartsUnslashed segments parts) :
    ∃ parts, tree = .sequence parts ∧ ∀ part ∈ parts.head?, Unslashed part := by
  fun_induction readSegments last segments parts ts with
  | case1 segments parts | case2 segments parts =>
    cases segments with
    | nil =>
      cases h
      exact ⟨_, rfl, by simpa [outermost] using hstart.first⟩
    | cons => cases h
  | case3 segments parts text position rest ih => exact ih h (hstart.addLiteral text)
  | case4 segments parts position rest ih => exact ih h (hstart.addLiteral "/")
  | case5 segments parts position rest tree left hread ih =>
    simp only at h
    split at h
    · rename_i hread'
      rw [hread] at hread'
      cases hread'
      exact ih h (hstart.cons _)
    · cases h
  | case6 segments parts position rest fault hread =>
    simp only at h
    split at h
    · rename_i hread'
      rw [hread] at hread'
      cases hread'
    · cases h
  | case7 segments parts position rest hlt ih =>
    simp only [hlt, if_true] at h
    exact ih h ⟨hstart.first, by simp⟩
  | case8 segments parts position rest hlt =>
    simp only [hlt, if_false] at h
    cases h
  | case9 => cases h
  | case10 => cases h
  | case11 position rest segment outer parts hparts ih =>
    apply ih (by simpa using h)
    cases outer with
    | nil =>
      refine ⟨?_, by simp⟩
      intro first hfirst
      cases hbefore : segment.before with
      | nil =>
        obtain rfl : .optional parts.reverse = first := by
          simpa [outermost, hbefore] using hfirst
        trivial
      | cons part before =>
        apply hstart.first first
        simpa [outermost, hbefore] using hfirst
    | cons => exact ⟨hstart.first, by simp⟩
  | case12 => simp_all

theorem exists_variable_of_readVariable {last : Nat} {ts left : List Lexeme} {tree : Tree}
    (h : readVariable last ts = .ok (tree, left)) :
    ∃ name calls default, tree = .variable name calls default := by
  fun_cases readVariable last ts with
  | case1 p name rest =>
    simp only [readVariable, bind, Except.bind, pure, Except.pure] at h
    split at h
    · cases h
    split at h
    · cases h
    · cases h
      exact ⟨_, _, _, rfl⟩
  | case2 => simp_all [readVariable]

/-- A text that does not start with a slash has no slash as its first token. -/
theorem unslashing_of_scan {total : Nat} {cs : List Char} (hcs : cs.head? ≠ some '/') :
    ∃ lexeme rest, scan total .segments cs = lexeme :: rest ∧ Unslashing lexeme.token := by
  cases cs with
  | nil =>
    rw [scan]
    exact ⟨_, _, rfl, trivial⟩
  | cons c cs =>
    have hc : c ≠ '/' := fun heq => hcs (by rw [heq, List.head?_cons])
    rw [scan]
    simp only [step]
    split
    · split
      · exact ⟨_, _, rfl, trivial⟩
      · exact ⟨_, _, rfl, trivial⟩
    split
    · exact ⟨_, _, rfl, trivial⟩
    split
    · exact ⟨_, _, rfl, trivial⟩
    split
    · rename_i hslash
      exact absurd (beq_iff_eq.1 hslash) hc
    · exact ⟨_, _, rfl, c, _, String.toList_ofList, hc⟩

/-- A tree that was read from a text without a slash in front is a sequence whose first part is no
literal with a slash in front. -/
theorem exists_parts_of_parse {text : String} {tree : Tree} (h : Tree.parse text = .ok tree)
    (htext : text.toList.head? ≠ some '/') :
    ∃ parts, tree = .sequence parts ∧ ∀ part ∈ parts.head?, Unslashed part := by
  rw [Tree.parse, Tree.ofLexemes, tokenize] at h
  obtain ⟨⟨token, position⟩, rest, hscan, htoken⟩ := @unslashing_of_scan (byteLength text.toList) _ htext
  rw [hscan] at h
  generalize ((⟨token, position⟩ :: rest : List Lexeme).getLast?.map (·.position)).getD 0 = last at h
  cases token with
  | text run =>
    obtain ⟨c, cs, hrun, hc⟩ := htoken
    rw [readSegments] at h
    refine exists_parts_of_readSegments h ⟨?_, by simp [addLiteral]⟩
    intro first hfirst
    obtain rfl : .literal run = first := by simpa [outermost, addLiteral] using hfirst
    exact ⟨c, cs, hrun, hc⟩
  | slash => cases htoken
  | variableOpen =>
    rw [readSegments] at h
    split at h
    · rename_i part left hread
      refine exists_parts_of_readSegments h ⟨?_, by simp⟩
      intro first hfirst
      obtain rfl : part = first := by simpa [outermost] using hfirst
      obtain ⟨name, calls, default, rfl⟩ := exists_variable_of_readVariable hread
      trivial
    · cases h
  | optionalOpen =>
    rw [readSegments] at h
    split at h
    · exact exists_parts_of_readSegments h ⟨by simp [outermost], by simp⟩
    · cases h
  | finish =>
    rw [readSegments] at h
    cases h
    exact ⟨[], rfl, by simp⟩
  | _ => simp [readSegments] at h

/-- Where a literal without a slash in front or a variable comes first, no derived text starts with a
slash. -/
theorem head?_ne_slash_of_derivesAll {parts : List Tree} (hfirst : ∀ part ∈ parts.head?, Unslashed part)
    (hoptional : ∀ inner rest, parts ≠ .optional inner :: rest)
    (hsequence : ∀ inner rest, parts ≠ .sequence inner :: rest) {text : List Char}
    {choices : List Nat} {captured : List (String × List Char)}
    (h : DerivesAll .path parts text choices captured) : text.head? ≠ some '/' := by
  cases parts with
  | nil =>
    cases h
    simp
  | cons part parts =>
    cases part with
    | literal own =>
      obtain ⟨rest, _, rfl, -⟩ := derivesAll_literal h
      obtain ⟨c, cs, hown, hc⟩ := hfirst _ rfl
      rw [hown, List.cons_append, List.head?_cons]
      simpa using hc
    | «variable» name calls default =>
      obtain ⟨own, rest, _, _, rfl, -, hne, hslash, -⟩ := derivesAll_variable h
      obtain ⟨c, cs, rfl⟩ := List.exists_cons_of_ne_nil hne
      rw [List.cons_append, List.head?_cons]
      rintro ⟨⟩
      exact hslash List.mem_cons_self
    | optional inner => exact absurd rfl (hoptional inner parts)
    | sequence inner => exact absurd rfl (hsequence inner parts)

/-- Where no slash and no tail is in front, no derived text starts with a slash. -/
theorem Segmented.head?_ne_slash {parts : List Tree} (hparts : Segmented parts)
    (hfirst : ∀ part ∈ parts.head?, Unslashed part)
    (hstart : ∀ inner rest, parts ≠ .optional inner :: rest) {text : List Char} {choices : List Nat}
    {captured : List (String × List Char)} (h : DerivesAll .path parts text choices captured) :
    text.head? ≠ some '/' := by
  refine head?_ne_slash_of_derivesAll hfirst hstart ?_ h
  rintro inner rest rfl
  cases hparts

end Template

end UriRouting
