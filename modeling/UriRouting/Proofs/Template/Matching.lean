import Mathlib
import UriRouting.Proofs.Template.Compiled
import UriRouting.Proofs.Template.ItemsLead
import UriRouting.Template.Extraction
/-!
# What the pattern of a template matches

The pattern of a template matches a request if the host and the path of the request can be derived from
the trees of the template, and its groups capture what the preferred derivation gives to the variables.

* `Template.Derives` is the relation between a template and a request, and `Template.Favours` adds that
  the derivation is preferred to all others;
* `Template.search_subject` says what the pattern of a compiled template finds.
-/

namespace UriRouting

open Pattern UriRouting.Tree

/-! ## The network of a template -/

namespace Template

/-- The ways over the host of a template. -/
def hostWays : Option Tree → Way → List Way
  | some host => ways .host host
  | none => ranPast (CharSet.single separator).complement.contains

/-- The ways over the host of a template and the separator. -/
def frontWays (host : Option Tree) (way : Way) : List Way :=
  (hostWays host way).flatMap (taken (separator == ·))

/-- The ways over a whole template that take up the text. -/
def wholeWays (path : Tree) (host : Option Tree) (way : Way) : List Way :=
  ((frontWays host way).flatMap (ways .path path)).filter (·.rest.isEmpty)

/-- The item of the pattern of a host leads along the ways over the host. -/
theorem itemsLead_hostItem (text : Array Char) (host : Option Tree) :
    ItemsLead text (hostItem host).reduced.itemsOf (hostWays host) := by
  cases host with
  | none =>
    rw [reduced_hostItem_none]
    exact .single (leads_loop _)
  | some host =>
    rw [itemsOf_hostItem]
    exact itemsLead_items text .host host

theorem flatMap_checked_textEnd (text : Array Char) (ways : List Way) :
    ways.flatMap (checked text .textEnd) = ways.filter (·.rest.isEmpty) := by
  induction ways with
  | nil => rfl
  | cons way ways ih =>
    rw [List.flatMap_cons, List.filter_cons, ih]
    by_cases hend : way.rest = []
    · simp [checked, hend]
    · simp [checked, hend]

/-- The pattern of a template leads along the ways over the template, if it starts at the start of the
text. -/
theorem leads_patternNode (text : Array Char) (path : Tree) (host : Option Tree) :
    Leads text (patternNode path host).reduced.fragment fun way =>
      (checked text .textStart way).flatMap (wholeWays path host) := by
  have hseparator : Leads text (Node.char separator false).fragment (taken (separator == ·)) :=
    leads_char .path separator
  have hend : ItemsLead text [.assertion .textEnd] (checked text .textEnd) :=
    .single (leads_check (.inr rfl))
  have hstart : Leads text (Node.assertion .textStart).fragment (checked text .textStart) :=
    leads_check (.inl rfl)
  have hitems := ItemsLead.cons hstart ((itemsLead_hostItem text host).append
    (.cons hseparator ((itemsLead_items text .path path).append hend)))
  rw [reduced_patternNode]
  apply hitems.leads_ofItems.congr
  intro way
  congr 1
  funext way
  rw [wholeWays, ← flatMap_checked_textEnd text, frontWays, List.flatMap_assoc, List.flatMap_assoc]

end Template

namespace Pattern

variable {text : Array Char}

/-- All of some walks that have arrived arrive. -/
theorem explored_arrived {network : Network} {point : Nat}
    (hstep : network[point]? = some .finish) {walks : List Walk}
    (h : ∀ walk ∈ walks, walk.point = point) : Explored network text walks.length walks walks := by
  induction walks with
  | nil => exact .done
  | cons walk walks ih =>
    obtain ⟨hwalk, hwalks⟩ := List.forall_mem_cons.1 h
    exact .arrive (hwalk ▸ hstep) (ih hwalks)

/-- A network has the steps of its pattern, from its first point on. -/
theorem Node.holds_network (node : Node) :
    node.network.Holds 0 (node.reduced.fragment.steps 0 node.reduced.fragment.size) := by
  intro i step hi
  obtain ⟨hlt, -⟩ := List.getElem?_eq_some_iff.1 hi
  rw [Node.network, List.getElem?_toArray, Nat.zero_add, List.getElem?_append_left hlt, hi]

/-- Behind the steps of its pattern, a walk through a network has arrived. -/
theorem Node.finish_network (node : Node) :
    node.network[node.reduced.fragment.size]? = some .finish := by
  rw [Node.network, List.getElem?_toArray, List.getElem?_append_right (by simp)]
  simp

/-- The network of a pattern finds a walk that shows the first of the ways along which the pattern
leads from all places of the text. -/
theorem firstWalk?_of_leads {node : Node} {f : Way → List Way}
    (h : Leads text node.reduced.fragment f) :
    ∃ arrived, List.Forall₂ (Walk.Shows text) arrived
        (((List.range (text.size + 1)).map fun place => ⟨text.toList.drop place, [], []⟩).flatMap f)
      ∧ node.network.firstWalk? text = arrived.head? := by
  have hstarts : Leave text 0 [] ((List.range (text.size + 1)).map Walk.startingAt)
      ((List.range (text.size + 1)).map fun place => ⟨text.toList.drop place, [], []⟩) := by
    refine .map (fun place hplace => ⟨?_, rfl, rfl⟩) (fun _ => rfl) (fun _ => rfl)
    exact Nat.lt_succ_iff.1 (List.mem_range.1 hplace)
  obtain ⟨arrived, hleave, hlead⟩ := h.ofAll node.holds_network hstarts
  obtain ⟨n, hn⟩ := hlead _ _ (explored_arrived node.finish_network hleave.point)
  exact ⟨arrived, hleave.shows, Network.firstWalk?_eq_head? hn⟩

end Pattern

/-! ## The separator -/

theorem toNat_ofNat {n : Nat} (h : n.isValidChar) : (Char.ofNat n).toNat = n := by
  rw [Char.ofNat, dif_pos h]
  rfl

/-- To a character in front of the letters, no other character folds. -/
theorem eq_of_foldCase {c d : Char} (hd : d.toNat < 0x41) (h : Text.foldCase c = d) : c = d := by
  have hruns : ∀ run ∈ Text.foldRuns, 0x41 ≤ run.first + run.shift
      ∧ (run.last + run.shift < 0xD800
        ∨ 0xDFFF < run.first + run.shift ∧ run.last + run.shift < 0x110000) := by
    decide +kernel
  have hnat : (Text.foldCase c).toNat < 0x41 := by
    rwa [h]
  rw [Text.foldCase] at h hnat
  split at h
  · rename_i hascii
    rw [if_pos hascii] at hnat
    split at h
    · rename_i hupper
      rw [if_pos hupper, toNat_ofNat (Or.inl (by omega))] at hnat
      have hletter : 0x41 ≤ c.toNat := by
        simp only [Bool.and_eq_true, decide_eq_true_eq] at hupper
        exact hupper.1
      omega
    · exact h
  · rename_i hascii
    rw [if_neg hascii] at hnat
    cases hrun : Text.foldRuns.find? (·.contains c.toNat) with
    | none =>
      rw [hrun] at h
      exact h
    | some run =>
      rw [hrun] at hnat
      obtain ⟨hleast, hvalid⟩ := hruns run (List.mem_of_find?_eq_some hrun)
      have hcontains := List.find?_some hrun
      simp only [Text.FoldRun.contains, Bool.and_eq_true, decide_eq_true_eq] at hcontains
      have hnat' : (Char.ofNat (c.toNat + run.shift).toNat).toNat < 0x41 := hnat
      rw [toNat_ofNat (by unfold Nat.isValidChar; omega)] at hnat'
      omega

/-- Of two lists that are related one by one, each entry of the second has one of the first. -/
theorem exists_mem_of_forall₂ {α β : Type} {r : α → β → Prop} {as : List α} {bs : List β} {b : β}
    (h : List.Forall₂ r as bs) (hb : b ∈ bs) : ∃ a ∈ as, r a b := by
  induction h with
  | nil => cases hb
  | cons hhead htail ih =>
    rcases List.mem_cons.1 hb with rfl | hb
    · exact ⟨_, List.mem_cons_self, hhead⟩
    · obtain ⟨a, ha, hab⟩ := ih hb
      exact ⟨a, List.mem_cons_of_mem _ ha, hab⟩

namespace Tree

mutual

/-- A host that is derived from a tree without the separator has no separator. -/
theorem separator_notMem_of_derives {source : List Char} {tree : Tree} {text : List Char}
    {choices : List Nat} {captured : List (String × List Char)}
    (hsource : Template.separator ∉ source) (hmade : Made source tree)
    (h : Derives .host tree text choices captured) : Template.separator ∉ text := by
  cases tree with
  | sequence parts =>
    cases hmade with
    | sequence hmade =>
      cases h with
      | sequence h => exact separator_notMem_of_derivesAll hsource hmade h
  | literal own =>
    cases hmade with
    | literal hmade =>
      cases h with
      | literal h =>
        intro hmem
        obtain ⟨c, hc, hsame⟩ := exists_mem_of_forall₂ h hmem
        simp only [Side.sameChar, beq_iff_eq] at hsame
        have hown : c = Template.separator := eq_of_foldCase (by decide) hsame
        exact hsource (hown ▸ hmade c hc)
  | «variable» name calls default =>
    cases h with
    | «variable» hne h =>
      intro hmem
      exact absurd (h _ hmem) (by decide)
  | optional parts =>
    cases hmade with
    | optional hne hmade =>
      cases h with
      | taken h => exact separator_notMem_of_derivesAll hsource hmade h
      | skipped => exact List.not_mem_nil

/-- A host that is derived from parts without the separator has no separator. -/
theorem separator_notMem_of_derivesAll {source : List Char} {parts : List Tree} {text : List Char}
    {choices : List Nat} {captured : List (String × List Char)}
    (hsource : Template.separator ∉ source) (hmade : ∀ part ∈ parts, Made source part)
    (h : DerivesAll .host parts text choices captured) : Template.separator ∉ text := by
  cases parts with
  | nil =>
    cases h
    exact List.not_mem_nil
  | cons part parts =>
    obtain ⟨hpart, hparts⟩ := List.forall_mem_cons.1 hmade
    cases h with
    | cons h h' =>
      rw [List.mem_append]
      rintro (hmem | hmem)
      · exact separator_notMem_of_derives hsource hpart h hmem
      · exact separator_notMem_of_derivesAll hsource hparts h' hmem

end

end Tree

/-! ## Derivations of requests -/

namespace Template

/-- A host that a template accepts. A template without a host accepts every host. -/
inductive DerivesHost : Option Tree → List Char → List Nat → List (String × List Char) → Prop where
  /-- There is no tree to derive the host from. -/
  | any (text : List Char) : DerivesHost none text [] []
  /-- The whole host is derived from the tree. -/
  | own {host : Tree} {text : List Char} {choices : List Nat} {captured : List (String × List Char)}
      (h : Tree.Derives .host host text choices captured) : DerivesHost (some host) text choices captured

/-- The host and the path of a request are derived from a template: the host as a whole, and then the
path as a whole, without the slashes in front. The choices of the host come before those of the
path. -/
inductive Derives (template : Template) (host path : String) :
    List Nat → List (String × List Char) → Prop where
  | intro {choices choices' : List Nat} {captured captured' : List (String × List Char)}
      (h : DerivesHost template.hostTree? host.toList choices captured)
      (h' : Tree.Derives .path template.path.tree (stripSlashes path).toList choices' captured') :
      Derives template host path (choices ++ choices') (captured ++ captured')

/-- A derivation of a request that is preferred to all others. -/
structure Favours (template : Template) (host path : String) (choices : List Nat)
    (captured : List (String × List Char)) : Prop where
  /-- It is a derivation. -/
  derives : template.Derives host path choices captured
  /-- Any other derivation chooses lower where both first differ. -/
  first : ∀ choices' captured', template.Derives host path choices' captured' →
    Prefers choices choices' ∨ choices' = choices ∧ captured' = captured

/-! ## Ways over the host -/

/-- No separator stands in the text of a host. -/
def Separable (host : Option Tree) : Prop :=
  ∀ tree ∈ host, ∃ source, separator ∉ source ∧ Made source tree

theorem taken_separator (rest : List Char) (choices : List Nat)
    (captured : List (String × List Char)) :
    taken (separator == ·) ⟨separator :: rest, choices, captured⟩ = [⟨rest, choices, captured⟩] := by
  simp [taken, Way.extended]

theorem taken_of_ne {c : Char} (hc : c ≠ separator) (rest : List Char) (choices : List Nat)
    (captured : List (String × List Char)) :
    taken (separator == ·) ⟨c :: rest, choices, captured⟩ = [] := by
  simp [taken, hc.symm]

theorem rest_of_mem_taken {way way' : Way} (h : way' ∈ taken (separator == ·) way) :
    ∃ rest, way.rest = separator :: rest ∧ way' = ⟨rest, way.choices, way.captured⟩ := by
  obtain ⟨rest, choices, captured⟩ := way
  cases rest with
  | nil => simp [taken] at h
  | cons c rest =>
    by_cases hc : c = separator
    · rw [hc, taken_separator, List.mem_singleton] at h
      exact ⟨rest, by rw [hc], h⟩
    · rw [taken_of_ne hc] at h
      cases h

theorem contains_complement_separator (c : Char) :
    (CharSet.single separator).complement.contains c = (c != separator) := by
  have hlast : c.toNat ≤ 0x10FFFF := by
    rcases c.valid with h | h
    · exact Nat.le_trans (Nat.le_of_lt h) (by decide)
    · exact Nat.le_of_lt_succ h.2
  have hset : (CharSet.single separator).complement = ⟨[(1, 0x10FFFF)]⟩ := by
    decide
  have hchar : c = separator ↔ c.toNat = 0 := Char.toNat_inj.symm
  rw [hset, Bool.eq_iff_iff]
  simp [CharSet.contains, CharRanges.contains, hchar]
  omega

/-- Without a host tree, the host goes up to the separator. -/
theorem frontWays_none {text : List Char} (htext : separator ∉ text) (rest : List Char)
    (choices : List Nat) (captured : List (String × List Char)) :
    frontWays none ⟨text ++ separator :: rest, choices, captured⟩ = [⟨rest, choices, captured⟩] := by
  induction text with
  | nil =>
    have hrun : run (CharSet.single separator).complement.contains (separator :: rest) = 0 := by
      simp [run, contains_complement_separator]
    simp [frontWays, hostWays, ranPast, hrun, countsDown, Way.extended, taken_separator]
  | cons c text ih =>
    rw [List.mem_cons, not_or] at htext
    obtain ⟨hc, htext⟩ := htext
    have hrun : run (CharSet.single separator).complement.contains (c :: (text ++ separator :: rest))
        = run (CharSet.single separator).complement.contains (text ++ separator :: rest) + 1 := by
      simp [run, contains_complement_separator, Ne.symm hc]
    rw [← ih htext]
    -- the way on which the host takes nothing does not come to the separator
    simp [frontWays, hostWays, ranPast, hrun, countsDown_succ, Way.extended,
      taken_of_ne (Ne.symm hc), List.flatMap_map, Function.comp_def]

/-- The first separator of a text stands at one place only. -/
theorem eq_of_append_separator {text text' rest rest' : List Char} (htext : separator ∉ text)
    (htext' : separator ∉ text') (h : text ++ separator :: rest = text' ++ separator :: rest') :
    text = text' ∧ rest = rest' := by
  have hfront : ∀ {text rest : List Char}, separator ∉ text →
      (text ++ separator :: rest).takeWhile (· != separator) = text := by
    intro text rest htext
    have hne : ∀ c ∈ text, (c != separator) = true :=
      fun c hc => bne_iff_ne.2 fun heq => htext (heq ▸ hc)
    rw [List.takeWhile_append_of_pos hne]
    simp
  obtain rfl : text = text' := by
    rw [← hfront htext, h, hfront htext']
  exact ⟨rfl, List.tail_eq_of_cons_eq (List.append_cancel_left h)⟩

/-- The ways over the host and the separator are the derivations of the host. -/
theorem mem_frontWays_iff {host : Option Tree} (hhost : Separable host) {text : List Char}
    (htext : separator ∉ text) {rest : List Char} {way : Way} :
    way ∈ frontWays host ⟨text ++ separator :: rest, [], []⟩ ↔
      ∃ choices captured, DerivesHost host text choices captured ∧ way = ⟨rest, choices, captured⟩ := by
  cases host with
  | none =>
    rw [frontWays_none htext, List.mem_singleton]
    constructor
    · rintro rfl
      exact ⟨[], [], .any text, rfl⟩
    · rintro ⟨choices, captured, h, rfl⟩
      cases h
      rfl
  | some host =>
    obtain ⟨source, hsource, hmade⟩ := hhost host rfl
    rw [frontWays, hostWays, List.mem_flatMap]
    constructor
    · rintro ⟨between, hbetween, hway⟩
      obtain ⟨text', choices, captured, rest', h, hrest, rfl⟩ := mem_ways_iff.1 hbetween
      have htext' := separator_notMem_of_derives hsource hmade h
      obtain ⟨rest'', hrest'', rfl⟩ := rest_of_mem_taken hway
      rw [Way.rest_extended] at hrest''
      rw [hrest''] at hrest
      obtain ⟨rfl, rfl⟩ := eq_of_append_separator htext htext' hrest
      exact ⟨choices, captured, .own h, rfl⟩
    · rintro ⟨choices, captured, h, rfl⟩
      cases h with
      | own h =>
        refine ⟨⟨separator :: rest, choices, captured⟩, mem_ways_iff.2
          ⟨text, choices, captured, separator :: rest, h, rfl, rfl⟩, ?_⟩
        rw [taken_separator, List.mem_singleton]

theorem choices_of_mem_taken {way way' : Way} (h : way' ∈ taken (separator == ·) way) :
    ∃ choices, way'.choices = way.choices ++ choices := by
  obtain ⟨rest, -, rfl⟩ := rest_of_mem_taken h
  exact ⟨[], (List.append_nil _).symm⟩

theorem pairwise_taken (way : Way) :
    (taken (separator == ·) way).Pairwise fun a b => Prefers a.choices b.choices := by
  unfold taken
  split
  · exact List.pairwise_singleton _ _
  · exact .nil

theorem pairwise_frontWays {text : List Char} (host : Option Tree) (htext : separator ∉ text)
    (rest : List Char) :
    (frontWays host ⟨text ++ separator :: rest, [], []⟩).Pairwise
      fun a b => Prefers a.choices b.choices := by
  cases host with
  | none =>
    rw [frontWays_none htext]
    exact List.pairwise_singleton _ _
  | some host =>
    exact pairwise_flatMap (pairwise_ways .host host _) pairwise_taken fun _ _ => choices_of_mem_taken

/-! ## Ways over the whole template -/

/-- The ways over a template that take up a request are the derivations of the request. -/
theorem mem_wholeWays_iff {template : Template} (hhost : Separable template.hostTree?)
    {host path : String} (hreq : separator ∉ host.toList) {way : Way} :
    way ∈ wholeWays template.path.tree template.hostTree?
        ⟨host.toList ++ separator :: (stripSlashes path).toList, [], []⟩ ↔
      ∃ choices captured, template.Derives host path choices captured ∧ way = ⟨[], choices, captured⟩ := by
  rw [wholeWays, List.mem_filter, List.mem_flatMap, List.isEmpty_iff]
  constructor
  · rintro ⟨⟨between, hbetween, hway⟩, hend⟩
    obtain ⟨choices, captured, h, rfl⟩ := (mem_frontWays_iff hhost hreq).1 hbetween
    obtain ⟨text, choices', captured', rest, h', hrest, rfl⟩ := mem_ways_iff.1 hway
    obtain rfl : rest = [] := hend
    obtain rfl : (stripSlashes path).toList = text := hrest.trans (List.append_nil text)
    exact ⟨_, _, .intro h h', rfl⟩
  · rintro ⟨choices, captured, h, rfl⟩
    cases h with
    | @intro choices choices' captured captured' h h' =>
      refine ⟨⟨⟨(stripSlashes path).toList, choices, captured⟩,
        (mem_frontWays_iff hhost hreq).2 ⟨choices, captured, h, rfl⟩, ?_⟩, rfl⟩
      exact mem_ways_iff.2 ⟨_, choices', captured', [], h', (List.append_nil _).symm, rfl⟩

/-- A preferred derivation comes first. -/
theorem pairwise_wholeWays {text : List Char} (path : Tree) (host : Option Tree)
    (htext : separator ∉ text) (rest : List Char) :
    (wholeWays path host ⟨text ++ separator :: rest, [], []⟩).Pairwise
      fun a b => Prefers a.choices b.choices := by
  apply List.Pairwise.filter _
  exact pairwise_flatMap (pairwise_frontWays host htext rest) (pairwise_ways .path path)
    fun _ _ => choices_of_mem_ways

/-- The first of the ways is the preferred derivation. -/
theorem favours_of_wholeWays {template : Template} (hhost : Separable template.hostTree?)
    {host path : String} (hreq : separator ∉ host.toList) {way : Way} {others : List Way}
    (h : wholeWays template.path.tree template.hostTree?
        ⟨host.toList ++ separator :: (stripSlashes path).toList, [], []⟩ = way :: others) :
    template.Favours host path way.choices way.captured := by
  have hsorted := pairwise_wholeWays template.path.tree template.hostTree? hreq
    (stripSlashes path).toList
  rw [h] at hsorted
  constructor
  · obtain ⟨choices, captured, hderives, rfl⟩ :=
      (mem_wholeWays_iff hhost hreq).1 (h ▸ List.mem_cons_self)
    exact hderives
  · intro choices' captured' hderives
    have hmem := (mem_wholeWays_iff hhost hreq).2 ⟨choices', captured', hderives, rfl⟩
    rw [h] at hmem
    rcases List.mem_cons.1 hmem with rfl | hmem
    · exact Or.inr ⟨rfl, rfl⟩
    · exact Or.inl (List.rel_of_pairwise_cons hsorted hmem)

end Template

/-! ## Captures -/

/-- A name has no entry if and only if it is none of the names. -/
theorem lookup_eq_none_iff_notMem {α : Type} {entries : List (String × α)} {name : String} :
    entries.lookup name = none ↔ name ∉ entries.map (·.1) := by
  rw [List.lookup_eq_none_iff, List.mem_map]
  constructor
  · rintro h ⟨entry, hentry, rfl⟩
    exact bne_iff_ne.1 (h entry hentry) rfl
  · intro h entry hentry
    exact bne_iff_ne.2 fun heq => h ⟨entry, hentry, heq.symm⟩

theorem lookup_reverse {α : Type} {entries : List (String × α)}
    (h : (entries.map (·.1)).Nodup) (name : String) :
    entries.reverse.lookup name = entries.lookup name := by
  induction entries with
  | nil => rfl
  | cons entry entries ih =>
    obtain ⟨key, value⟩ := entry
    obtain ⟨hkey, hrest⟩ := List.nodup_cons.1 h
    rw [List.reverse_cons, List.lookup_append, ih hrest]
    by_cases hname : name = key
    · subst hname
      have hnone : entries.lookup name = none := lookup_eq_none_iff_notMem.2 hkey
      simp [hnone]
    · have hbeq : (name == key) = false := beq_eq_false_iff_ne.2 hname
      simp [List.lookup_cons, hbeq]

theorem lookup_spans (text : Array Char) (spans : List Span) (name : String) :
    (spans.map fun span => (span.name, (text.extract span.start span.stop).toList)).lookup name
      = (spans.find? (·.name == name)).map fun span =>
          (text.extract span.start span.stop).toList := by
  induction spans with
  | nil => rfl
  | cons span spans ih =>
    rw [List.map_cons, List.lookup_cons, List.find?_cons, ih]
    by_cases hname : span.name = name
    · simp [hname]
    · have hbeq : (name == span.name) = false := beq_eq_false_iff_ne.2 (Ne.symm hname)
      have hbeq' : (span.name == name) = false := beq_eq_false_iff_ne.2 hname
      rw [hbeq, hbeq']

/-- The groups of a walk have the texts of the way that it shows. -/
theorem Pattern.Walk.Shows.get?_captures {text : Array Char} {walk : Walk} {way : Way}
    (h : walk.Shows text way) (hnames : (way.captured.map (·.1)).Nodup) (name : String) :
    Captures.get? ⟨text, walk.spans⟩ name = (way.captured.lookup name).map String.ofList := by
  rw [← lookup_reverse hnames, ← h.captured, ← List.map_reverse, List.reverse_reverse, lookup_spans,
    Option.map_map]
  rfl

/-! ## Behind the first separator -/

namespace Template

/-- What a text has from its first separator on. -/
def fromSeparator (text : List Char) : List Char :=
  text.dropWhile (· != separator)

theorem fromSeparator_eq_nil_iff {text : List Char} : fromSeparator text = [] ↔ separator ∉ text := by
  rw [fromSeparator, List.dropWhile_eq_nil_iff]
  constructor
  · intro h hmem
    simpa using h separator hmem
  · intro h c hc
    exact bne_iff_ne.2 fun heq => h (heq ▸ hc)

theorem fromSeparator_append {front : List Char} (hfree : separator ∉ front) (rest : List Char) :
    fromSeparator (front ++ separator :: rest) = separator :: rest := by
  have hnil : front.dropWhile (· != separator) = [] := fromSeparator_eq_nil_iff.2 hfree
  rw [fromSeparator, List.dropWhile_append, hnil]
  simp

/-- The texts of two requests for a path agree from the first separator on if the hosts do. -/
theorem fromSeparator_subject {host host' : String}
    (h : fromSeparator host.toList = fromSeparator host'.toList) (path : String) :
    fromSeparator (subject host path).toList = fromSeparator (subject host' path).toList := by
  rw [fromSeparator, fromSeparator] at h
  rw [toList_subject, toList_subject, fromSeparator, fromSeparator, List.dropWhile_append,
    List.dropWhile_append, h]

/-! ## The search for a request -/

/-- What a search gives is right for a request: nothing if the request cannot be derived, and else the
texts that the preferred derivation gives to the variables. -/
def Answers (template : Template) (host path : String) : Option Captures → Prop
  | none => ∀ choices captured, ¬ template.Derives host path choices captured
  | some captures => ∃ choices captured, template.Favours host path choices captured
      ∧ ∀ name, captures.get? name = (captured.lookup name).map String.ofList

theorem DerivesHost.names {host : Option Tree} {text : List Char} {choices : List Nat}
    {captured : List (String × List Char)} (h : DerivesHost host text choices captured) :
    List.Sublist (captured.map (·.1)) (host.elim [] Tree.variableNames) := by
  cases h with
  | any => exact List.nil_sublist _
  | own h => exact names_of_derives h

/-- A derivation gives texts to variables of the template, and to none of them twice. -/
theorem Derives.nodup_names {template : Template} {host path : String} {choices : List Nat}
    {captured : List (String × List Char)} (h : template.Derives host path choices captured)
    (hnames : (namesOf template.path.tree template.hostTree?).Nodup) :
    (captured.map (·.1)).Nodup := by
  cases h with
  | intro h h' =>
    refine List.Nodup.sublist ?_ hnames
    rw [List.map_append, namesOf]
    exact h.names.append (names_of_derives h')

/-- From all places of a request but the first the pattern leads nowhere. -/
theorem flatMap_places (text : Array Char) (f : Way → List Way) :
    ((List.range (text.size + 1)).map fun place => ⟨text.toList.drop place, [], []⟩).flatMap
        (fun way => (checked text .textStart way).flatMap f)
      = f ⟨text.toList, [], []⟩ := by
  have hlater : ∀ place ∈ List.range text.size,
      (checked text .textStart ⟨text.toList.drop (place + 1), [], []⟩).flatMap f = [] := by
    intro place hplace
    have hne : text.toList.drop (place + 1) ≠ text.toList := by
      intro heq
      have hlen := congrArg List.length heq
      rw [List.length_drop, Array.length_toList] at hlen
      have := List.mem_range.1 hplace
      omega
    simp [checked, hne]
  have hnone := List.flatMap_eq_nil_iff.2 hlater
  rw [List.range_succ_eq_map, List.map_cons, List.map_map, List.flatMap_cons, List.flatMap_map]
  simp only [Function.comp_apply, Nat.succ_eq_add_one, hnone, List.append_nil]
  simp [checked]

/-- A search gives the first of the walks that show the ways over the template. -/
theorem IsCompiled.exists_search_eq {book : RuleBook} {template : Template}
    (h : template.IsCompiled book) (text : String) :
    ∃ arrived, List.Forall₂ (Walk.Shows text.toList.toArray) arrived
        (wholeWays template.path.tree template.hostTree? ⟨text.toList, [], []⟩)
      ∧ template.pattern.search text
        = arrived.head?.map fun walk => ⟨text.toList.toArray, walk.spans⟩ := by
  have hleads := leads_patternNode text.toList.toArray template.path.tree template.hostTree?
  rw [← h.node_eq] at hleads
  obtain ⟨arrived, hshows, hfirst⟩ := firstWalk?_of_leads hleads
  rw [flatMap_places] at hshows
  refine ⟨arrived, hshows, ?_⟩
  rw [Pattern.search, hfirst]

/-- The pattern of a compiled template answers requests. -/
theorem IsCompiled.answers_search {book : RuleBook} {template : Template}
    (h : template.IsCompiled book) (hhost : Separable template.hostTree?) {host path : String}
    (hreq : separator ∉ host.toList) :
    template.Answers host path (template.pattern.search (subject host path)) := by
  obtain ⟨arrived, hshows, hsearch⟩ := h.exists_search_eq (subject host path)
  rw [hsearch]
  cases arrived with
  | nil =>
    rw [List.forall₂_nil_left_iff, toList_subject] at hshows
    intro choices captured hderives
    have hmem := (mem_wholeWays_iff hhost hreq).2 ⟨choices, captured, hderives, rfl⟩
    rw [hshows] at hmem
    cases hmem
  | cons walk arrived =>
    obtain ⟨way, others, hwalk, -, hways⟩ := List.forall₂_cons_left_iff.1 hshows
    rw [toList_subject] at hways
    have hfavours := favours_of_wholeWays hhost hreq hways
    refine ⟨way.choices, way.captured, hfavours, ?_⟩
    exact hwalk.get?_captures (hfavours.derives.nodup_names h.nodup_names)

/-- A request that can be derived is matched, and its variables are read from the preferred
derivation. -/
theorem IsCompiled.exists_captures {book : RuleBook} {template : Template}
    (h : template.IsCompiled book) (hhost : Separable template.hostTree?) {host path : String}
    (hreq : separator ∉ host.toList) {choices : List Nat} {captured : List (String × List Char)}
    (hderives : template.Derives host path choices captured) :
    ∃ captures choices' captured',
      template.extract (subject host path) = readVariables captures template.vars
        ∧ template.Favours host path choices' captured'
        ∧ ∀ name, captures.get? name = (captured'.lookup name).map String.ofList := by
  have hanswers := @IsCompiled.answers_search _ _ h hhost host path hreq
  cases hsearch : template.pattern.search (subject host path) with
  | none =>
    rw [hsearch] at hanswers
    exact absurd hderives (hanswers choices captured)
  | some captures =>
    rw [hsearch] at hanswers
    obtain ⟨choices', captured', hfavours, hget⟩ := hanswers
    refine ⟨captures, choices', captured', ?_, hfavours, hget⟩
    rw [extract, hsearch]

/-- The pattern of a template means what its trees say. A request is matched if and only if it can be
derived from the trees, and a group captures what the preferred derivation gives to its variable. -/
theorem search_subject {book : RuleBook} {path : String} {host : Option String} {template : Template}
    (h : compile book path host = .ok template) (hhost : ∀ text ∈ host, separator ∉ text.toList)
    {reqHost : String} (hreq : separator ∉ reqHost.toList) (reqPath : String) :
    template.Answers reqHost reqPath (template.pattern.search (subject reqHost reqPath)) := by
  obtain ⟨-, htext, hcompiled⟩ := compile_eq_ok h
  refine hcompiled.answers_search ?_ hreq
  intro tree htree
  obtain ⟨side, hside, rfl⟩ := Option.map_eq_some_iff.1 htree
  refine ⟨side.text.toList, hhost side.text ?_, made_of_parse (hcompiled.host side hside)⟩
  rw [← htext, hside]
  rfl

theorem search_subject_segments : ∃ template,
    compile .standard "/a/:x[/:y]" (some ":h.b") = .ok template
      ∧ template.Answers "Www.B" "//a/1/2" (template.pattern.search (subject "Www.B" "//a/1/2")) := by
  have hcompile := @compile_of_parse .standard "/a/:x[/:y]"
    (.sequence [.literal "a/", .variable "x" [] none, .optional [.literal "/", .variable "y" [] none]])
    (some ⟨":h.b", .sequence [.variable "h" [] none, .literal ".b"]⟩)
    [⟨"h", [], [], none, false, .string⟩, ⟨"x", [], [], none, false, .string⟩,
      ⟨"y", [], [], none, true, .string⟩]
    (by cbv) (by rintro side ⟨⟩; cbv) (by cbv) (by decide) (by decide +kernel)
  exact ⟨_, hcompile, search_subject hcompile (by decide) (by decide) _⟩

end Template

end UriRouting
