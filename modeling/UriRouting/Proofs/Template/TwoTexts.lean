import UriRouting.Proofs.Template.Matching
/-!
# One search in two texts

Two texts may differ in characters that a pattern does not tell apart. Then a search goes the same
walks in both of them, and a match takes the same places. What a pattern tells apart can change in the
course of a search, so a search goes through stages.

* `Stage` is what holds of all walks while a part of a pattern is searched for;
* `LeadsAlike` says that a fragment of a network leads from one stage to another, on the same walks in
  both texts, and `LeadsAlike.andThen`, `LeadsAlike.optionally` and `LeadsAlike.capture` build it up as
  the network is built up;
* `firstWalk?_of_leadsAlike` says what follows for the search of a whole pattern.
-/

namespace UriRouting.Pattern

/-! ## Stages -/

/-- A stage of a search: what holds of the place and the spans of a walk, as long as the walk goes
forward and captures groups of certain names. -/
structure Stage where
  /-- What holds of a place in the text and the spans that were captured. -/
  Admits : Nat → List Span → Prop
  /-- The names of the groups that are captured. -/
  names : List String
  /-- A walk goes forward. -/
  forward : ∀ {place place' spans}, Admits place spans → place ≤ place' → Admits place' spans
  /-- A walk captures what it took since it entered a group. -/
  capture : ∀ {name start before place spans}, name ∈ names → Admits start before →
    Admits place spans → Admits place (⟨name, start, place⟩ :: spans)

namespace Stage

/-- A walk leaves a part of a network, at a certain point and in certain groups, and is at a stage. -/
structure Admitted (stage : Stage) (next : Nat) (entered : List Nat) (walk : Walk) : Prop where
  /-- The point at which the walk stands. -/
  point : walk.point = next
  /-- The groups that the walk is in. -/
  entered : walk.entered = entered
  /-- The place and the spans of the walk. -/
  admits : stage.Admits walk.place walk.spans

/-- At a stage, the characters that are left of two texts pass a test or fail it alike. -/
def Blurs (stage : Stage) (text text' : Array Char) (accepts : Char → Bool) : Prop :=
  ∀ place spans, stage.Admits place spans →
    (text.toList.drop place).map accepts = (text'.toList.drop place).map accepts

end Stage

/-- A fragment leads from one stage to another, on the same walks in two texts. -/
def LeadsAlike (text text' : Array Char) (stage stage' : Stage) (part : Fragment) : Prop :=
  ∀ (network : Network) (next : Nat) (walk : Walk),
    network.Holds walk.point (part.steps walk.point next) → stage.Admits walk.place walk.spans →
      ∃ outs, (∀ out ∈ outs, stage'.Admitted next walk.entered out)
        ∧ LeadTo network text [walk] outs ∧ LeadTo network text' [walk] outs

variable {text text' : Array Char} {stage stage' stage'' : Stage}

/-! ## Fragments of one point -/

/-- A step that leads to the same walks in both texts. -/
theorem leadsAlike_single {step : Nat → Step} (hmake : ∀ (walk : Walk) next, walk.CanMake (step next))
    (hsame : ∀ (walk : Walk) next, stage.Admits walk.place walk.spans →
      walk.after text (step next) = walk.after text' (step next))
    (hnext : ∀ (walk : Walk) next, stage.Admits walk.place walk.spans →
      ∀ out ∈ walk.after text (step next), stage'.Admitted next walk.entered out) :
    LeadsAlike text text' stage stage' (.single step) := by
  intro network next walk hsteps hwalk
  refine ⟨walk.after text (step next), hnext walk next hwalk, ?_, ?_⟩
  · exact .step walk hsteps.head (hmake walk next)
  · rw [hsame walk next hwalk]
    exact .step walk hsteps.head (hmake walk next)

theorem leadsAlike_skip : LeadsAlike text text' stage stage .skip := by
  refine leadsAlike_single (fun _ _ => trivial) (fun _ _ _ => rfl) ?_
  intro walk next hwalk
  exact List.forall_mem_singleton.2 ⟨rfl, rfl, hwalk⟩

/-- The next character is tested alike. -/
theorem Stage.Blurs.any_getElem? {accepts : Char → Bool} (h : stage.Blurs text text' accepts)
    {place : Nat} {spans : List Span} (hplace : stage.Admits place spans) :
    text[place]?.any accepts = text'[place]?.any accepts := by
  have hany : ∀ rest : List Char, rest.head?.any accepts = (rest.map accepts).head?.any id := by
    intro rest
    cases rest with
    | nil => rfl
    | cons c rest => rfl
  rw [getElem?_of_drop rfl, getElem?_of_drop rfl, hany, hany, h place spans hplace]

/-- As many characters pass a test in front of what is left of both texts. -/
theorem Stage.Blurs.run_eq {accepts : Char → Bool} (h : stage.Blurs text text' accepts)
    {place : Nat} {spans : List Span} (hplace : stage.Admits place spans) :
    run accepts (text.toList.drop place) = run accepts (text'.toList.drop place) := by
  have hrun : ∀ rest : List Char,
      run accepts rest = ((rest.map accepts).takeWhile id).length := by
    intro rest
    rw [run, List.takeWhile_map, List.length_map, Function.id_comp]
  rw [hrun, hrun, h place spans hplace]

/-- A character that is tested alike is taken in both texts or in none, and the next stage may rely on
the test. -/
theorem leadsAlike_take {accepts : Char → Bool} (h : stage.Blurs text text' accepts)
    (hnext : ∀ place spans, stage.Admits place spans → text[place]?.any accepts = true →
      stage'.Admits (place + 1) spans) :
    LeadsAlike text text' stage stage' (.single (.take accepts)) := by
  refine leadsAlike_single (fun _ _ => trivial) ?_ ?_
  · intro walk next hwalk
    simp only [Walk.after, h.any_getElem? hwalk]
  · intro walk next hwalk out hout
    simp only [Walk.after] at hout
    split at hout
    · rename_i htake
      rw [List.mem_singleton.1 hout]
      exact ⟨rfl, rfl, hnext _ _ hwalk htake⟩
    · cases hout

/-- Texts of the same length start and end at the same places. -/
theorem leadsAlike_check {condition : Assertion} (hsize : text.size = text'.size)
    (h : condition = .textStart ∨ condition = .textEnd) :
    LeadsAlike text text' stage stage (.single (.check condition)) := by
  refine leadsAlike_single (fun _ _ => trivial) ?_ ?_
  · intro walk next hwalk
    rcases h with rfl | rfl
    · rfl
    · simp [Walk.after, Assertion.holds, hsize]
  · intro walk next hwalk out hout
    simp only [Walk.after] at hout
    split at hout
    · rw [List.mem_singleton.1 hout]
      exact ⟨rfl, rfl, hwalk⟩
    · cases hout

/-! ## Fragments of fragments -/

/-- What a fragment does for one walk, it does for several one after another. -/
theorem LeadsAlike.ofAll {part : Fragment} (h : LeadsAlike text text' stage stage' part)
    {network : Network} {point next : Nat} {entered : List Nat}
    (hsteps : network.Holds point (part.steps point next)) {walks : List Walk}
    (hwalks : ∀ walk ∈ walks, stage.Admitted point entered walk) :
    ∃ outs, (∀ out ∈ outs, stage'.Admitted next entered out)
      ∧ LeadTo network text walks outs ∧ LeadTo network text' walks outs := by
  induction walks with
  | nil => exact ⟨[], by simp, .refl [], .refl []⟩
  | cons walk walks ih =>
    obtain ⟨hwalk, hwalks⟩ := List.forall_mem_cons.1 hwalks
    obtain ⟨outs, houts, hlead, hlead'⟩ := ih hwalks
    obtain ⟨mids, hmids, hmid, hmid'⟩ := h network next walk (hwalk.point ▸ hsteps) hwalk.admits
    rw [hwalk.entered] at hmids
    exact ⟨mids ++ outs, List.forall_mem_append.2 ⟨hmids, houts⟩, hmid.append hlead,
      hmid'.append hlead'⟩

theorem LeadsAlike.andThen {first second : Fragment} (h : LeadsAlike text text' stage stage' first)
    (h' : LeadsAlike text text' stage' stage'' second) :
    LeadsAlike text text' stage stage'' (first.andThen second) := by
  intro network next walk hsteps hwalk
  obtain ⟨mids, hmids, hfirst, hfirst'⟩ := h network _ walk hsteps.left hwalk
  have hsecond := hsteps.right
  rw [Fragment.length_steps] at hsecond
  obtain ⟨outs, houts, hlead, hlead'⟩ := h'.ofAll hsecond hmids
  exact ⟨outs, houts, hfirst.trans hlead, hfirst'.trans hlead'⟩

theorem LeadsAlike.optionally {part : Fragment} (h : LeadsAlike text text' stage stage part) :
    LeadsAlike text text' stage stage (part.optionally true) := by
  intro network next walk hsteps hwalk
  have hchoose : ∀ text, LeadTo network text [walk]
      (walk.after text (.choose (walk.point + 1) next)) :=
    fun _ => .step walk hsteps.head trivial
  obtain ⟨outs, houts, hlead, hlead'⟩ := h network next { walk with point := walk.point + 1 }
    hsteps.tail hwalk
  refine ⟨outs ++ [{ walk with point := next }], ?_, ?_, ?_⟩
  · exact List.forall_mem_append.2 ⟨houts, List.forall_mem_singleton.2 ⟨rfl, rfl, hwalk⟩⟩
  · exact (hchoose text).trans (hlead.append (.refl _))
  · exact (hchoose text').trans (hlead'.append (.refl _))

/-- One or more characters that are tested alike. -/
theorem leadsAlike_oneOrMore {accepts : Char → Bool} (h : stage.Blurs text text' accepts) :
    LeadsAlike text text' stage stage (.oneOrMore true (.single (.take accepts))) := by
  intro network next walk hsteps hwalk
  have hlead : LeadTo network text [walk] _ := leadTo_oneOrMore hsteps
  have hlead' : LeadTo network text' [walk] _ := leadTo_oneOrMore hsteps
  rw [← h.run_eq hwalk] at hlead'
  refine ⟨_, ?_, hlead, hlead'⟩
  rw [List.forall_mem_map]
  intro count hcount
  exact ⟨rfl, rfl, stage.forward hwalk (Nat.le_add_right _ _)⟩

theorem LeadsAlike.capture {part : Fragment} (h : LeadsAlike text text' stage stage part)
    {name : String} (hname : name ∈ stage.names) :
    LeadsAlike text text' stage stage (part.capture name) := by
  intro network next walk hsteps hwalk
  have henter : ∀ text, LeadTo network text [walk]
      [{ walk with point := walk.point + 1, entered := walk.place :: walk.entered }] :=
    fun _ => .step walk (show network[walk.point]? = some (.enter (walk.point + 1)) from hsteps.head)
      trivial
  obtain ⟨mids, hmids, hbody, hbody'⟩ := h network _
    { walk with point := walk.point + 1, entered := walk.place :: walk.entered } hsteps.tail.left hwalk
  have hleave := hsteps.tail.right.head
  rw [Fragment.length_steps] at hleave
  have hout : ∀ text, LeadTo network text mids _ := fun text =>
    leadTo_leave hleave (fun mid hmid => (hmids mid hmid).point) fun mid hmid => (hmids mid hmid).entered
  refine ⟨_, ?_, ((henter text).trans hbody).trans (hout text),
    ((henter text').trans hbody').trans (hout text')⟩
  rw [List.forall_mem_map]
  intro mid hmid
  exact ⟨rfl, rfl, stage.capture hname hwalk (hmids mid hmid).admits⟩

/-- Items that each stay at a stage stay there one after another, in front of what leaves it. -/
theorem leadsAlike_fragmentOfAll_append {nodes nodes' : List Node}
    (h : ∀ node ∈ nodes, LeadsAlike text text' stage stage node.fragment)
    (h' : LeadsAlike text text' stage stage' (Node.fragmentOfAll nodes')) :
    LeadsAlike text text' stage stage' (Node.fragmentOfAll (nodes ++ nodes')) := by
  induction nodes with
  | nil => exact h'
  | cons node nodes ih =>
    obtain ⟨hnode, hnodes⟩ := List.forall_mem_cons.1 h
    exact hnode.andThen (ih hnodes)

theorem leadsAlike_ofItems {nodes : List Node}
    (h : ∀ node ∈ nodes, LeadsAlike text text' stage stage node.fragment) :
    LeadsAlike text text' stage stage (Node.ofItems nodes).fragment := by
  match nodes with
  | [] => exact leadsAlike_skip
  | [node] => exact h node List.mem_cons_self
  | node :: node' :: nodes =>
    have hall : LeadsAlike text text' stage stage
        (Node.fragmentOfAll ((node :: node' :: nodes) ++ [])) :=
      leadsAlike_fragmentOfAll_append h leadsAlike_skip
    rwa [List.append_nil] at hall

/-! ## The search -/

/-- A pattern that leads from stage to stage on the same walks has the same first walk in both texts. -/
theorem firstWalk?_of_leadsAlike {node : Node} (hsize : text.size = text'.size)
    (h : LeadsAlike text text' stage stage' node.reduced.fragment)
    (hstart : ∀ place, stage.Admits place []) :
    node.network.firstWalk? text = node.network.firstWalk? text'
      ∧ ∀ walk ∈ node.network.firstWalk? text, stage'.Admits walk.place walk.spans := by
  have hstarts : ∀ walk ∈ (List.range (text.size + 1)).map Walk.startingAt,
      stage.Admitted 0 [] walk := by
    rw [List.forall_mem_map]
    intro place hplace
    exact ⟨rfl, rfl, hstart place⟩
  obtain ⟨arrived, harrived, hlead, hlead'⟩ := h.ofAll node.holds_network hstarts
  have hexplored := fun text => @explored_arrived text _ _ node.finish_network arrived
    fun walk hwalk => (harrived walk hwalk).point
  obtain ⟨n, hn⟩ := hlead _ _ (hexplored text)
  obtain ⟨m, hm⟩ := hlead' _ _ (hexplored text')
  rw [Network.firstWalk?_eq_head? hn]
  rw [hsize] at hm
  rw [Network.firstWalk?_eq_head? hm]
  refine ⟨rfl, ?_⟩
  intro walk hwalk
  exact (harrived walk (List.mem_of_mem_head? hwalk)).admits

end UriRouting.Pattern
