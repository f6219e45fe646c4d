import UriRouting.Proofs.Pattern.Exploration
import UriRouting.Proofs.Template.Derivation
import UriRouting.Proofs.Template.PatternNode
/-!
# Fragments of a network as functions on ways

A fragment of a network leads as a function on ways does if, for every walk that shows a way, the
walks that leave the fragment show the ways that the function gives, in the same order.

* `LeadTo` says that some walks explore what others explore, and `Leads` is the relation between
  fragments and functions on ways;
* `Leads.andThen`, `Leads.optionally` and `Leads.capture` build it up from `leads_take`,
  `leads_check`, `leads_oneOrMore` and `leads_loop`.
-/

namespace UriRouting

open Pattern UriRouting.Tree

/-! ## Steps in a network -/

/-- A network has certain steps, from a certain point on. -/
def Pattern.Network.Holds (network : Network) (start : Nat) (steps : List Step) : Prop :=
  ∀ i step, steps[i]? = some step → network[start + i]? = some step

namespace Pattern.Network.Holds

variable {network : Network} {start : Nat}

theorem head {step : Step} {steps : List Step} (h : network.Holds start (step :: steps)) :
    network[start]? = some step :=
  h 0 step rfl

theorem tail {step : Step} {steps : List Step} (h : network.Holds start (step :: steps)) :
    network.Holds (start + 1) steps := by
  intro i step' hi
  rw [Nat.add_assoc, Nat.add_comm 1 i]
  exact h (i + 1) step' hi

theorem left {front back : List Step} (h : network.Holds start (front ++ back)) :
    network.Holds start front := by
  intro i step hi
  obtain ⟨hlt, -⟩ := List.getElem?_eq_some_iff.1 hi
  exact h i step (by rw [List.getElem?_append_left hlt, hi])

theorem right {front back : List Step} (h : network.Holds start (front ++ back)) :
    network.Holds (start + front.length) back := by
  intro i step hi
  rw [Nat.add_assoc]
  apply h (front.length + i) step
  rw [List.getElem?_append_right (Nat.le_add_right _ _), Nat.add_sub_cancel_left, hi]

end Pattern.Network.Holds

/-! ## Walks and ways -/

/-- A walk through a text shows a way along it: what is left is the same, and so is what was
captured. -/
structure Pattern.Walk.Shows (text : Array Char) (walk : Walk) (way : Way) : Prop where
  /-- The walk is not behind the text. -/
  inside : walk.place ≤ text.size
  /-- What is left of the text. -/
  rest : text.toList.drop walk.place = way.rest
  /-- What was captured. -/
  captured : (walk.spans.reverse.map fun span =>
    (span.name, (text.extract span.start span.stop).toList)) = way.captured

namespace Pattern

variable {network : Network} {text : Array Char}

/-- Some walks lead on to others if all that the others explore, they explore. -/
def LeadTo (network : Network) (text : Array Char) (walks outs : List Walk) : Prop :=
  ∀ n arrived, Explored network text n outs arrived → ∃ m, Explored network text m walks arrived

namespace LeadTo

theorem refl (walks : List Walk) : LeadTo network text walks walks :=
  fun n _ h => ⟨n, h⟩

theorem trans {walks mids outs : List Walk} (h : LeadTo network text walks mids)
    (h' : LeadTo network text mids outs) : LeadTo network text walks outs := by
  intro n arrived hn
  obtain ⟨m, hm⟩ := h' n arrived hn
  exact h m arrived hm

theorem append {front back front' back' : List Walk} (h : LeadTo network text front front')
    (h' : LeadTo network text back back') :
    LeadTo network text (front ++ back) (front' ++ back') := by
  intro n arrived hn
  obtain ⟨k, m, first, last, rfl, rfl, hfirst, hlast⟩ := hn.split
  obtain ⟨k', hk⟩ := h k first hfirst
  obtain ⟨m', hm⟩ := h' m last hlast
  exact ⟨k' + m', hk.append hm⟩

/-- A walk leads on to the walks after its step. -/
theorem step (walk : Walk) {step : Step} (hstep : network[walk.point]? = some step)
    (hmake : walk.CanMake step) : LeadTo network text [walk] (walk.after text step) := by
  intro n arrived hn
  refine ⟨n + 1, .move hstep hmake ?_⟩
  rw [List.append_nil]
  exact hn

theorem map {f : Walk → Walk} {walks : List Walk}
    (h : ∀ walk ∈ walks, LeadTo network text [walk] [f walk]) :
    LeadTo network text walks (walks.map f) := by
  induction walks with
  | nil => exact .refl []
  | cons walk walks ih =>
    obtain ⟨hwalk, hwalks⟩ := List.forall_mem_cons.1 h
    exact hwalk.append (ih hwalks)

end LeadTo

/-- Some walks leave a part of a network: they show certain ways, they stand at a certain point, and
they are in certain groups. -/
structure Leave (text : Array Char) (next : Nat) (entered : List Nat) (outs : List Walk)
    (ways : List Way) : Prop where
  /-- The ways that the walks show. -/
  shows : List.Forall₂ (Walk.Shows text) outs ways
  /-- The point at which the walks stand. -/
  point : ∀ out ∈ outs, out.point = next
  /-- The groups that the walks are in. -/
  entered : ∀ out ∈ outs, out.entered = entered

namespace Leave

variable {next : Nat} {entered : List Nat}

theorem nil : Leave text next entered [] [] :=
  ⟨.nil, by simp, by simp⟩

theorem append {outs outs' : List Walk} {ways ways' : List Way}
    (h : Leave text next entered outs ways) (h' : Leave text next entered outs' ways') :
    Leave text next entered (outs ++ outs') (ways ++ ways') := by
  refine ⟨List.rel_append h.shows h'.shows, ?_, ?_⟩
  · intro out hout
    exact (List.mem_append.1 hout).elim (h.point out) (h'.point out)
  · intro out hout
    exact (List.mem_append.1 hout).elim (h.entered out) (h'.entered out)

theorem single {walk : Walk} {way : Way} (h : walk.Shows text way) :
    Leave text walk.point walk.entered [walk] [way] :=
  ⟨.cons h .nil, by simp, by simp⟩

theorem map {α : Type} {f : α → Walk} {g : α → Way} {as : List α}
    (hshows : ∀ a ∈ as, (f a).Shows text (g a)) (hpoint : ∀ a, (f a).point = next)
    (hentered : ∀ a, (f a).entered = entered) : Leave text next entered (as.map f) (as.map g) := by
  refine ⟨?_, ?_, ?_⟩
  · rw [List.forall₂_map_left_iff, List.forall₂_map_right_iff, List.forall₂_same]
    exact hshows
  · simpa using fun a _ => hpoint a
  · simpa using fun a _ => hentered a

end Leave

/-- A fragment leads as a function on ways does. -/
def Leads (text : Array Char) (part : Fragment) (f : Way → List Way) : Prop :=
  ∀ (network : Network) (next : Nat) (walk : Walk) (way : Way),
    network.Holds walk.point (part.steps walk.point next) → walk.Shows text way →
      ∃ outs, Leave text next walk.entered outs (f way) ∧ LeadTo network text [walk] outs

/-! ## Fragments -/

/-- The character at a place is the first of what is left there. -/
theorem getElem?_of_drop {place : Nat} {rest : List Char} (h : text.toList.drop place = rest) :
    text[place]? = rest.head? := by
  rw [← h, List.head?_drop, Array.getElem?_toList]

theorem drop_succ_of_drop {place : Nat} {c : Char} {rest : List Char}
    (h : text.toList.drop place = c :: rest) : text.toList.drop (place + 1) = rest := by
  rw [← List.drop_drop, h, List.drop_one, List.tail_cons]

namespace Walk.Shows

variable {walk : Walk} {way : Way}

/-- Nothing is left exactly at the end. -/
theorem place_eq_size_iff (h : walk.Shows text way) : walk.place = text.size ↔ way.rest = [] := by
  rw [← h.rest, List.drop_eq_nil_iff, Array.length_toList]
  have := h.inside
  omega

/-- Everything is left exactly at the start. -/
theorem place_eq_zero_iff (h : walk.Shows text way) :
    walk.place = 0 ↔ way.rest = text.toList := by
  have hlen := congrArg List.length h.rest
  rw [List.length_drop, Array.length_toList] at hlen
  constructor
  · intro hzero
    rw [← h.rest, hzero, List.drop_zero]
  · intro hrest
    rw [hrest, Array.length_toList] at hlen
    have := h.inside
    omega

/-- A walk that goes on to another point shows the same way, whatever the choice was. -/
theorem moved (h : walk.Shows text way) (point : Nat) (entered : List Nat) (choices : List Nat) :
    Walk.Shows text { walk with point := point, entered := entered }
      (way.extended way.rest choices []) := by
  refine ⟨h.inside, h.rest, ?_⟩
  rw [Way.captured_extended, List.append_nil]
  exact h.captured

/-- A walk that has taken some more characters, whatever the choice was. -/
theorem advanced (h : walk.Shows text way) (point : Nat) {count : Nat} (choices : List Nat)
    (hcount : count ≤ way.rest.length) :
    Walk.Shows text { walk with point := point, place := walk.place + count }
      (way.extended (way.rest.drop count) choices []) := by
  refine ⟨?_, ?_, ?_⟩
  · rw [← h.rest, List.length_drop, Array.length_toList] at hcount
    have := h.inside
    show walk.place + count ≤ text.size
    omega
  · rw [Way.rest_extended, ← h.rest, List.drop_drop]
  · rw [Way.captured_extended, List.append_nil]
    exact h.captured

end Walk.Shows

/-- The ways behind the next character, if it is of a certain kind. -/
def taken (accepts : Char → Bool) (way : Way) : List Way :=
  if way.rest.head?.any accepts then [way.extended way.rest.tail [] []] else []

/-- The ways on which a condition holds. -/
def checked (text : Array Char) (condition : Assertion) (way : Way) : List Way :=
  match condition with
  | .textStart => if way.rest = text.toList then [way] else []
  | .textEnd => if way.rest = [] then [way] else []
  | _ => []

/-- Only the values of the function count. -/
theorem Leads.congr {part : Fragment} {f g : Way → List Way} (h : Leads text part f)
    (heq : ∀ way, f way = g way) : Leads text part g := by
  rwa [← funext heq]

theorem leads_skip : Leads text .skip fun way => [way] := by
  intro network next walk way hsteps hshows
  refine ⟨[{ walk with point := next }], ?_, .step walk hsteps.head trivial⟩
  have hmoved := hshows.moved next walk.entered []
  rw [Way.extended_nil] at hmoved
  exact .single hmoved

theorem leads_take (accepts : Char → Bool) :
    Leads text (.single (.take accepts)) (taken accepts) := by
  intro network next walk way hsteps hshows
  refine ⟨walk.after text (.take accepts next), ?_, .step walk hsteps.head trivial⟩
  simp only [Walk.after, taken, getElem?_of_drop hshows.rest]
  split
  · rename_i htake
    obtain ⟨c, cs, hrest⟩ : ∃ c cs, way.rest = c :: cs := by
      cases hrest : way.rest with
      | nil => simp [hrest] at htake
      | cons c cs => exact ⟨c, cs, rfl⟩
    have hlen : 1 ≤ way.rest.length := by
      simp [hrest]
    have hadvanced := hshows.advanced next [] hlen
    rw [List.drop_one] at hadvanced
    exact .single hadvanced
  · exact .nil

theorem leads_check {condition : Assertion} (h : condition = .textStart ∨ condition = .textEnd) :
    Leads text (.single (.check condition)) (checked text condition) := by
  intro network next walk way hsteps hshows
  refine ⟨walk.after text (.check condition next), ?_, .step walk hsteps.head trivial⟩
  have hmoved := hshows.moved next walk.entered []
  rw [Way.extended_nil] at hmoved
  rcases h with rfl | rfl
  · by_cases hstart : way.rest = text.toList
    · have hplace := hshows.place_eq_zero_iff.2 hstart
      simp only [Walk.after, checked, Assertion.holds, hstart, hplace, if_true, beq_self_eq_true]
      rw [hplace] at hmoved
      exact .single hmoved
    · have hplace : walk.place ≠ 0 := fun h => hstart (hshows.place_eq_zero_iff.1 h)
      simp [Walk.after, checked, Assertion.holds, hstart, hplace, Leave.nil]
  · by_cases hend : way.rest = []
    · have hplace := hshows.place_eq_size_iff.2 hend
      simp only [Walk.after, checked, Assertion.holds, hend, hplace, if_true, beq_self_eq_true]
      rw [hplace] at hmoved
      exact .single hmoved
    · have hplace : walk.place ≠ text.size := fun h => hend (hshows.place_eq_size_iff.1 h)
      simp [Walk.after, checked, Assertion.holds, hend, hplace, Leave.nil]

/-! ## Fragments of fragments -/

/-- What a fragment does for one walk, it does for several one after another. -/
theorem Leads.ofAll {part : Fragment} {f : Way → List Way} (h : Leads text part f)
    {point next : Nat} {entered : List Nat} (hsteps : network.Holds point (part.steps point next))
    {walks : List Walk} {ways : List Way} (hwalks : Leave text point entered walks ways) :
    ∃ outs, Leave text next entered outs (ways.flatMap f) ∧ LeadTo network text walks outs := by
  obtain ⟨hshows, hpoint, hentered⟩ := hwalks
  induction hshows with
  | nil => exact ⟨[], .nil, .refl []⟩
  | @cons walk way walks ways hwalk hwalks ih =>
    obtain ⟨hpoint, hpoints⟩ := List.forall_mem_cons.1 hpoint
    obtain ⟨hentered, hentereds⟩ := List.forall_mem_cons.1 hentered
    obtain ⟨outs, hleave, hlead⟩ := ih hpoints hentereds
    obtain ⟨outs', hleave', hlead'⟩ := h network next walk way (hpoint ▸ hsteps) hwalk
    rw [hentered] at hleave'
    exact ⟨outs' ++ outs, hleave'.append hleave, hlead'.append hlead⟩

theorem Leads.andThen {first second : Fragment} {f g : Way → List Way} (h : Leads text first f)
    (h' : Leads text second g) :
    Leads text (first.andThen second) fun way => (f way).flatMap g := by
  intro network next walk way hsteps hshows
  obtain ⟨mids, hmids, hlead⟩ := h network _ walk way hsteps.left hshows
  have hsecond := hsteps.right
  rw [Fragment.length_steps] at hsecond
  obtain ⟨outs, houts, hlead'⟩ := h'.ofAll hsecond hmids
  exact ⟨outs, houts, hlead.trans hlead'⟩

/-- An optional fragment is tried before it is left out. -/
theorem Leads.optionally {part : Fragment} {f : Way → List Way} (h : Leads text part f) :
    Leads text (part.optionally true) fun way => f (way.choosing 1) ++ [way.choosing 0] := by
  intro network next walk way hsteps hshows
  have hchoose : LeadTo network text [walk]
      (walk.after text (.choose (walk.point + 1) next)) := .step walk hsteps.head trivial
  obtain ⟨outs, hleave, hlead⟩ := h network next { walk with point := walk.point + 1 }
    (way.choosing 1) hsteps.tail (hshows.moved (walk.point + 1) walk.entered [1])
  have hskip := hshows.moved next walk.entered [0]
  exact ⟨outs ++ [{ walk with point := next }], hleave.append (.single hskip),
    hchoose.trans (hlead.append (.refl _))⟩

/-! ## Repeated characters -/

theorem countsDown_succ (greatest : Nat) :
    countsDown (greatest + 1) = (countsDown greatest).map (· + 1) ++ [1] := by
  have hshift : (List.range' 1 greatest).map (· + 1) = List.range' (1 + 1) greatest := by
    simp only [Nat.add_comm _ 1]
    exact List.map_add_range' ..
  rw [countsDown, countsDown, List.range'_succ, List.reverse_cons, List.map_reverse, hshift]

/-- The number of characters of a certain kind in front of a text. -/
def run (accepts : Char → Bool) (rest : List Char) : Nat :=
  (rest.takeWhile accepts).length

/-- One or more characters of a certain kind, as many as possible first. -/
theorem leadTo_oneOrMore {accepts : Char → Bool} {next : Nat} {walk : Walk}
    (hsteps : network.Holds walk.point
      ((Fragment.oneOrMore true (.single (.take accepts))).steps walk.point next)) :
    LeadTo network text [walk]
      ((countsDown (run accepts (text.toList.drop walk.place))).map fun count =>
        { walk with point := next, place := walk.place + count }) := by
  have htake : ∀ place, LeadTo network text [{ walk with place := place }]
      (Walk.after text { walk with place := place } (.take accepts (walk.point + 1))) :=
    fun place => .step { walk with place := place } hsteps.head trivial
  have hagain : ∀ place, LeadTo network text [{ walk with point := walk.point + 1, place := place }]
      [{ walk with place := place }, { walk with point := next, place := place }] :=
    fun place => LeadTo.step { walk with point := walk.point + 1, place := place }
      (show network[walk.point + 1]? = some (.choose walk.point next) from hsteps.tail.head) trivial
  generalize hrest : text.toList.drop walk.place = rest
  suffices h : ∀ place, text.toList.drop place = rest → LeadTo network text
      [{ walk with place := place }] ((countsDown (run accepts rest)).map fun count =>
        { walk with point := next, place := place + count }) from h walk.place hrest
  clear hrest
  intro place hrest
  induction rest generalizing place with
  | nil =>
    have hend : text[place]? = none := getElem?_of_drop hrest
    simpa [Walk.after, hend, run, countsDown] using htake place
  | cons c rest ih =>
    have hnext : text[place]? = some c := getElem?_of_drop hrest
    have hrest' := drop_succ_of_drop hrest
    by_cases hc : accepts c = true
    · have hpass : LeadTo network text [{ walk with place := place }]
          [{ walk with point := walk.point + 1, place := place + 1 }] := by
        simpa [Walk.after, hnext, hc] using htake place
      have hcount : run accepts (c :: rest) = run accepts rest + 1 := by
        simp [run, hc]
      rw [hcount, countsDown_succ, List.map_append, List.map_map]
      apply (hpass.trans (hagain (place + 1))).trans
      have hout : LeadTo network text [{ walk with point := next, place := place + 1 }]
          [{ walk with point := next, place := place + 1 }] := .refl _
      simpa [Function.comp_def, Nat.add_assoc, Nat.add_comm 1] using (ih (place + 1) hrest').append hout
    · simpa [Walk.after, hnext, hc, run, countsDown] using htake place

theorem run_le_length (accepts : Char → Bool) (rest : List Char) : run accepts rest ≤ rest.length :=
  (List.takeWhile_sublist _).length_le

/-- The ways behind one or more characters of a certain kind, as many as possible first. Their number
is a choice. -/
def ranOver (accepts : Char → Bool) (way : Way) : List Way :=
  (countsDown (run accepts way.rest)).map fun count =>
    way.extended (way.rest.drop count) [count] []

theorem leads_oneOrMore (accepts : Char → Bool) :
    Leads text (.oneOrMore true (.single (.take accepts))) (ranOver accepts) := by
  intro network next walk way hsteps hshows
  have hpass : LeadTo network text [walk] _ := leadTo_oneOrMore hsteps
  rw [hshows.rest] at hpass
  refine ⟨(countsDown (run accepts way.rest)).map fun count =>
    { walk with point := next, place := walk.place + count }, ?_, hpass⟩
  refine .map (fun count hcount => hshows.advanced next [count] ?_) (fun _ => rfl) (fun _ => rfl)
  exact Nat.le_trans (mem_countsDown.1 hcount).2 (run_le_length accepts way.rest)

/-- Any number of characters of a certain kind, as many as possible first. -/
theorem leadTo_loop {accepts : Char → Bool} {next : Nat} {walk : Walk}
    (hsteps : network.Holds walk.point
      ((Fragment.loop true (.single (.take accepts))).steps walk.point next)) :
    LeadTo network text [walk]
      ((countsDown (run accepts (text.toList.drop walk.place)) ++ [0]).map fun count =>
        { walk with point := next, place := walk.place + count }) := by
  have hagain : ∀ place, LeadTo network text [{ walk with place := place }]
      [{ walk with point := walk.point + 1, place := place },
        { walk with point := next, place := place }] :=
    fun place => LeadTo.step { walk with place := place }
      (show network[walk.point]? = some (.choose (walk.point + 1) next) from hsteps.head) trivial
  have htake : ∀ place, LeadTo network text [{ walk with point := walk.point + 1, place := place }]
      (Walk.after text { walk with point := walk.point + 1, place := place }
        (.take accepts walk.point)) :=
    fun place => .step { walk with point := walk.point + 1, place := place } hsteps.tail.head trivial
  have hout : ∀ place, LeadTo network text [{ walk with point := next, place := place }]
      [{ walk with point := next, place := place }] :=
    fun _ => .refl _
  generalize hrest : text.toList.drop walk.place = rest
  suffices h : ∀ place, text.toList.drop place = rest → LeadTo network text
      [{ walk with place := place }] ((countsDown (run accepts rest) ++ [0]).map fun count =>
        { walk with point := next, place := place + count }) from h walk.place hrest
  clear hrest
  intro place hrest
  apply (hagain place).trans
  induction rest generalizing place with
  | nil =>
    have hend : text[place]? = none := getElem?_of_drop hrest
    simpa [Walk.after, hend, run, countsDown] using (htake place).append (hout place)
  | cons c rest ih =>
    have hnext : text[place]? = some c := getElem?_of_drop hrest
    have hrest' := drop_succ_of_drop hrest
    by_cases hc : accepts c = true
    · have hpass : LeadTo network text [{ walk with point := walk.point + 1, place := place }]
          [{ walk with place := place + 1 }] := by
        simpa [Walk.after, hnext, hc] using htake place
      have hmore := (hpass.trans (hagain (place + 1))).trans (ih (place + 1) hrest')
      have hcount : run accepts (c :: rest) = run accepts rest + 1 := by
        simp [run, hc]
      rw [hcount, countsDown_succ]
      simpa [Function.comp_def, Nat.add_assoc, Nat.add_comm 1] using hmore.append (hout place)
    · simpa [Walk.after, hnext, hc, run, countsDown] using (htake place).append (hout place)

/-- The ways behind any number of characters of a certain kind, as many as possible first. -/
def ranPast (accepts : Char → Bool) (way : Way) : List Way :=
  (countsDown (run accepts way.rest) ++ [0]).map fun count =>
    way.extended (way.rest.drop count) [] []

theorem leads_loop (accepts : Char → Bool) :
    Leads text (.loop true (.single (.take accepts))) (ranPast accepts) := by
  intro network next walk way hsteps hshows
  have hpass : LeadTo network text [walk] _ := leadTo_loop hsteps
  rw [hshows.rest] at hpass
  refine ⟨(countsDown (run accepts way.rest) ++ [0]).map fun count =>
    { walk with point := next, place := walk.place + count }, ?_, hpass⟩
  refine .map (fun count hcount => hshows.advanced next [] ?_) (fun _ => rfl) (fun _ => rfl)
  rcases List.mem_append.1 hcount with h | h
  · exact Nat.le_trans (mem_countsDown.1 h).2 (run_le_length accepts way.rest)
  · rw [List.mem_singleton.1 h]
    exact Nat.zero_le _

/-! ## Groups -/

/-- A way after which a group has the text that was taken since another way. -/
def capturing (name : String) (since way : Way) : Way :=
  way.extended way.rest [] [(name, since.rest.take (since.rest.length - way.rest.length))]

/-- Leaving a group captures what was taken since it was entered. -/
theorem Walk.Shows.leaving {walk out : Walk} {since way : Way} (h : walk.Shows text since)
    (hout : out.Shows text way) (name : String) (point : Nat) (entered : List Nat) :
    Walk.Shows text { out with
        point := point
        entered := entered
        spans := ⟨name, walk.place, out.place⟩ :: out.spans } (capturing name since way) := by
  refine ⟨hout.inside, hout.rest, ?_⟩
  have hlen : since.rest.length - way.rest.length = out.place - walk.place := by
    rw [← h.rest, ← hout.rest, List.length_drop, List.length_drop, Array.length_toList]
    have := h.inside
    have := hout.inside
    omega
  have htext : (text.extract walk.place out.place).toList
      = since.rest.take (since.rest.length - way.rest.length) := by
    rw [hlen, Array.toList_extract, List.extract_eq_take_drop, h.rest]
  show ((Span.mk name walk.place out.place :: out.spans).reverse.map fun span =>
    (span.name, (text.extract span.start span.stop).toList)) = _
  rw [List.reverse_cons, List.map_append, hout.captured, List.map_singleton, htext]
  rfl

/-- Walks that all leave a group capture what they took since they entered it. -/
theorem leadTo_leave {name : String} {point next start : Nat} {outer : List Nat}
    (hstep : network[point]? = some (.leave name next)) {walks : List Walk}
    (hpoint : ∀ walk ∈ walks, walk.point = point)
    (hentered : ∀ walk ∈ walks, walk.entered = start :: outer) :
    LeadTo network text walks (walks.map fun walk => { walk with
      point := next
      entered := outer
      spans := ⟨name, start, walk.place⟩ :: walk.spans }) := by
  apply LeadTo.map
  intro walk hwalk
  have hmake : walk.CanMake (.leave name next) := by
    show walk.entered ≠ []
    rw [hentered walk hwalk]
    exact List.cons_ne_nil _ _
  have hleave : LeadTo network text [walk] (walk.after text (.leave name next)) :=
    .step walk (hpoint walk hwalk ▸ hstep) hmake
  simpa [Walk.after, hentered walk hwalk] using hleave

theorem Leads.capture {part : Fragment} {f : Way → List Way} (h : Leads text part f)
    (name : String) :
    Leads text (part.capture name) fun way => (f way).map (capturing name way) := by
  intro network next walk way hsteps hshows
  have henter : LeadTo network text [walk]
      [{ walk with point := walk.point + 1, entered := walk.place :: walk.entered }] :=
    .step walk (show network[walk.point]? = some (.enter (walk.point + 1)) from hsteps.head) trivial
  have hmoved := hshows.moved (walk.point + 1) (walk.place :: walk.entered) []
  rw [Way.extended_nil] at hmoved
  obtain ⟨mids, hmids, hbody⟩ := h network _ _ way hsteps.tail.left hmoved
  have hleave := hsteps.tail.right.head
  rw [Fragment.length_steps] at hleave
  refine ⟨mids.map fun mid => { mid with
      point := next
      entered := walk.entered
      spans := ⟨name, walk.place, mid.place⟩ :: mid.spans }, ⟨?_, by simp, by simp⟩, ?_⟩
  · rw [List.forall₂_map_left_iff, List.forall₂_map_right_iff]
    exact hmids.shows.imp fun mid out hmid => hshows.leaving hmid name next walk.entered
  · exact (henter.trans hbody).trans (leadTo_leave hleave hmids.point hmids.entered)

end Pattern

end UriRouting
