import UriRouting.Pattern.Walk
/-!
# Exploring a network without a table

`Walk.firstToFinish` gives up a walk at a point and place that were tried before. This file says what
it finds without speaking of the table: the first of all walks that arrive when every walk is
followed to its end, in the order of preference.

* `Explored` lists the walks that arrive, and counts the steps on the way to all of them;
* `Explored.unique` says that the steps, and where the arriving walks stand, depend only on where the
  walks start;
* `firstToFinish_eq_head?` says that the table changes nothing: what was tried before fails again, or
  it is a walk that cannot come back to where it was.
-/

namespace UriRouting.Pattern

namespace Walk

/-- Where a walk stands: its point in the network and its place in the text. -/
def spot (walk : Walk) : Nat × Nat :=
  (walk.point, walk.place)

/-- Whether a walk can go on over a step. It has to be in a group to leave one. -/
def CanMake (walk : Walk) : Step → Prop
  | .finish => False
  | .leave _ _ => walk.entered ≠ []
  | _ => True

/-- Where a walk goes on depends only on where it stands. -/
theorem map_spot_after {a b : Walk} {step : Step} (text : Array Char) (h : a.spot = b.spot)
    (ha : a.CanMake step) (hb : b.CanMake step) :
    (a.after text step).map spot = (b.after text step).map spot := by
  obtain ⟨-, hplace⟩ := Prod.mk.inj h
  cases step with
  | finish => exact absurd ha id
  | pass next => simp [after, spot, hplace]
  | take accepts next =>
    simp only [after, hplace]
    split
    · simp [spot]
    · rfl
  | check condition next =>
    simp only [after, hplace]
    split
    · simp [spot]
    · rfl
  | enter next => simp [after, spot, hplace]
  | leave name next =>
    obtain ⟨i, is, hi⟩ := List.exists_cons_of_ne_nil ha
    obtain ⟨j, js, hj⟩ := List.exists_cons_of_ne_nil hb
    simp [after, hi, hj, spot, hplace]
  | choose preferred other => simp [after, spot, hplace]

/-- A step leads to no place behind the text. -/
theorem place_le_of_mem_after {walk next : Walk} {text : Array Char} {step : Step}
    (h : next ∈ walk.after text step) (hplace : walk.place ≤ text.size) :
    next.place ≤ text.size := by
  cases step with
  | finish => simp [after] at h
  | take accepts point =>
    simp only [after] at h
    split at h
    · rename_i htake
      have hinside : walk.place < text.size := by
        simpa using Option.isSome_of_any htake
      rw [List.mem_singleton.1 h]
      exact hinside
    · simp at h
  | check condition point =>
    simp only [after] at h
    split at h
    · rw [List.mem_singleton.1 h]
      exact hplace
    · simp at h
  | leave name point =>
    simp only [after] at h
    split at h
    · simp at h
    · rw [List.mem_singleton.1 h]
      exact hplace
  | pass point | enter point =>
    rw [List.mem_singleton.1 h]
    exact hplace
  | choose preferred other =>
    rcases List.mem_cons.1 h with rfl | h
    · exact hplace
    · rw [List.mem_singleton.1 h]
      exact hplace

/-- Different spots have different cells in the table. -/
theorem spot_eq_of_cell_eq {network : Network} {a b : Walk} (ha : a.point < network.size)
    (hb : b.point < network.size) (h : a.cell network = b.cell network) : a.spot = b.spot := by
  simp only [cell] at h
  have hplace : a.place = b.place := by
    have := congrArg (· / network.size) h
    simpa [Nat.mul_comm _ network.size, Nat.mul_add_div (show 0 < network.size by omega),
      Nat.div_eq_of_lt ha, Nat.div_eq_of_lt hb] using this
  have hpoint : a.point = b.point := by
    rw [hplace] at h
    omega
  rw [spot, spot, hpoint, hplace]

/-- Every walk through the text has a cell in the table. -/
theorem cell_lt {network : Network} {walk : Walk} (text : Array Char)
    (hpoint : walk.point < network.size) (hplace : walk.place ≤ text.size) :
    walk.cell network < (text.size + 1) * network.size := by
  calc
    walk.place * network.size + walk.point < (walk.place + 1) * network.size := by
      rw [Nat.succ_mul]
      omega
    _ ≤ (text.size + 1) * network.size := Nat.mul_le_mul_right _ (Nat.succ_le_succ hplace)

end Walk

/-! ## Exploration -/

/-- Following some walks to their ends, all of them and in order: the number of steps that this
takes, and the walks that arrive. -/
inductive Explored (network : Network) (text : Array Char) : Nat → List Walk → List Walk → Prop where
  /-- There is no walk to follow. -/
  | done : Explored network text 0 [] []
  /-- The first walk has arrived. -/
  | arrive {n : Nat} {walk : Walk} {waiting arrived : List Walk}
      (hstep : network[walk.point]? = some .finish) (h : Explored network text n waiting arrived) :
      Explored network text (n + 1) (walk :: waiting) (walk :: arrived)
  /-- The first walk goes on. -/
  | move {n : Nat} {walk : Walk} {waiting arrived : List Walk} {step : Step}
      (hstep : network[walk.point]? = some step) (hmake : walk.CanMake step)
      (h : Explored network text n (walk.after text step ++ waiting) arrived) :
      Explored network text (n + 1) (walk :: waiting) arrived

namespace Explored

variable {network : Network} {text : Array Char}

/-- Walks are explored one after another. -/
theorem append {n m : Nat} {front back arrived arrived' : List Walk}
    (h : Explored network text n front arrived) (h' : Explored network text m back arrived') :
    Explored network text (n + m) (front ++ back) (arrived ++ arrived') := by
  induction h with
  | done => simpa using h'
  | @arrive n walk waiting arrived hstep h ih =>
    rw [Nat.add_right_comm]
    exact .arrive hstep ih
  | @move n walk waiting arrived step hstep hmake h ih =>
    rw [Nat.add_right_comm]
    rw [List.append_assoc] at ih
    exact .move hstep hmake ih

/-- What is explored together is explored apart. -/
theorem split {n : Nat} {front back arrived : List Walk}
    (h : Explored network text n (front ++ back) arrived) :
    ∃ k m first last, n = k + m ∧ arrived = first ++ last
      ∧ Explored network text k front first ∧ Explored network text m back last := by
  generalize hwalks : front ++ back = walks at h
  induction h generalizing front with
  | done =>
    obtain ⟨rfl, rfl⟩ := List.append_eq_nil_iff.1 hwalks
    exact ⟨0, 0, [], [], rfl, rfl, .done, .done⟩
  | @arrive n walk waiting arrived hstep h ih =>
    cases front with
    | nil =>
      obtain rfl : back = walk :: waiting := hwalks
      exact ⟨0, n + 1, [], walk :: arrived, by omega, rfl, .done, .arrive hstep h⟩
    | cons a front =>
      obtain ⟨rfl, rfl⟩ := List.cons.inj hwalks
      obtain ⟨k, m, first, last, rfl, rfl, hfirst, hlast⟩ := ih rfl
      exact ⟨k + 1, m, a :: first, last, by omega, rfl, .arrive hstep hfirst, hlast⟩
  | @move n walk waiting arrived step hstep hmake h ih =>
    cases front with
    | nil =>
      obtain rfl : back = walk :: waiting := hwalks
      exact ⟨0, n + 1, [], arrived, by omega, rfl, .done, .move hstep hmake h⟩
    | cons a front =>
      obtain ⟨rfl, rfl⟩ := List.cons.inj hwalks
      obtain ⟨k, m, first, last, rfl, rfl, hfirst, hlast⟩ := ih (List.append_assoc ..)
      exact ⟨k + 1, m, first, last, by omega, rfl, .move hstep hmake hfirst, hlast⟩

/-- The number of steps, and where the arriving walks stand, depend only on where the walks stand
at first. -/
theorem unique {n m : Nat} {walks walks' arrived arrived' : List Walk}
    (h : Explored network text n walks arrived) (h' : Explored network text m walks' arrived')
    (hspots : walks.map Walk.spot = walks'.map Walk.spot) :
    n = m ∧ arrived.map Walk.spot = arrived'.map Walk.spot := by
  induction h generalizing m walks' arrived' with
  | done =>
    obtain rfl := List.map_eq_nil_iff.1 hspots.symm
    cases h'
    exact ⟨rfl, rfl⟩
  | @arrive n walk waiting arrived hstep h ih =>
    obtain ⟨walk', waiting', rfl, hspot, hwaiting⟩ := List.map_eq_cons_iff.1 hspots.symm
    have hpoint : walk'.point = walk.point := congrArg Prod.fst hspot
    cases h' with
    | arrive hstep' h' =>
      obtain ⟨rfl, harrived⟩ := ih h' hwaiting.symm
      exact ⟨rfl, by simp [hspot, harrived]⟩
    | move hstep' hmake' h' =>
      rw [hpoint, hstep] at hstep'
      obtain rfl := Option.some.inj hstep'
      exact absurd hmake' id
  | @move n walk waiting arrived step hstep hmake h ih =>
    obtain ⟨walk', waiting', rfl, hspot, hwaiting⟩ := List.map_eq_cons_iff.1 hspots.symm
    have hpoint : walk'.point = walk.point := congrArg Prod.fst hspot
    cases h' with
    | arrive hstep' h' =>
      rw [hpoint, hstep] at hstep'
      obtain rfl := Option.some.inj hstep'
      exact absurd hmake id
    | move hstep' hmake' h' =>
      rw [hpoint, hstep] at hstep'
      obtain rfl := Option.some.inj hstep'
      obtain ⟨rfl, harrived⟩ := ih h' (by
        rw [List.map_append, List.map_append, Walk.map_spot_after text hspot.symm hmake hmake',
          hwaiting])
      exact ⟨rfl, harrived⟩

end Explored

/-! ## The table -/

namespace Walk

variable {network : Network} {text : Array Char}

/-- A walk that arrives is found whatever waits behind it. -/
theorem firstToFinish_append {walks : List Walk} {tried : Array Bool} {walk : Walk}
    (h : firstToFinish network text walks tried = some walk) (more : List Walk) :
    firstToFinish network text (walks ++ more) tried = some walk := by
  fun_induction firstToFinish network text walks tried with
  | case1 => simp at h
  | case2 tried w waiting hfresh hfinish =>
    rw [List.cons_append, firstToFinish, dif_pos hfresh]
    simp only [hfinish]
    exact h
  | case3 tried w waiting hfresh hstep ih =>
    rw [List.cons_append, firstToFinish, dif_pos hfresh]
    split
    · rename_i hfinish
      exact absurd hfinish hstep
    · rw [← List.append_assoc]
      exact ih h
  | case4 tried w waiting hfresh ih =>
    rw [List.cons_append, firstToFinish, dif_neg hfresh]
    exact ih h

/-- What the table of tried cells promises before some more steps: a walk that was tried either
arrives nowhere or needs more steps than that. -/
def Promises (network : Network) (text : Array Char) (tried : Array Bool) (steps : Nat) : Prop :=
  tried.size = (text.size + 1) * network.size ∧
    ∀ walk n arrived, tried[walk.cell network]? = some true → walk.point < network.size →
      Explored network text n [walk] arrived → arrived = [] ∨ steps < n

theorem Promises.mono {tried : Array Bool} {n m : Nat} (h : Promises network text tried n)
    (hle : m ≤ n) : Promises network text tried m :=
  ⟨h.1, fun walk k arrived htried hpoint hk =>
    (h.2 walk k arrived htried hpoint hk).imp_right (Nat.lt_of_le_of_lt hle)⟩

/-- A table in which nothing was tried promises anything. -/
theorem promises_replicate (n : Nat) :
    Promises network text (Array.replicate ((text.size + 1) * network.size) false) n := by
  refine ⟨Array.size_replicate, ?_⟩
  intro walk k arrived htried hpoint hk
  rw [Array.getElem?_replicate] at htried
  split at htried <;> simp at htried

/-- Marking the cell of a walk keeps the promise, if the promise holds for the walk itself. -/
theorem Promises.mark {tried : Array Bool} {n k : Nat} {walk : Walk} {arrived : List Walk}
    (h : Promises network text tried n) (hpoint : walk.point < network.size)
    (hk : Explored network text k [walk] arrived) (hwalk : arrived = [] ∨ n < k) :
    Promises network text (tried.setIfInBounds (walk.cell network) true) n := by
  refine ⟨by rw [Array.size_setIfInBounds, h.1], ?_⟩
  intro walk' m arrived' htried hpoint' hm
  by_cases hcell : walk.cell network = walk'.cell network
  · have hspot := spot_eq_of_cell_eq hpoint hpoint' hcell
    obtain ⟨rfl, harrived⟩ := hk.unique hm (by simp [hspot])
    apply hwalk.imp_left
    intro hnil
    rw [hnil] at harrived
    exact List.map_eq_nil_iff.1 harrived.symm
  · rw [Array.getElem?_setIfInBounds_ne hcell] at htried
    exact h.2 walk' m arrived' htried hpoint' hm

/-- The first walk that arrives is the first of all that arrive. -/
theorem firstToFinish_eq_head? {n : Nat} {walks arrived : List Walk} {tried : Array Bool}
    (h : Explored network text n walks arrived) (hplaces : ∀ walk ∈ walks, walk.place ≤ text.size)
    (htried : Promises network text tried n) :
    firstToFinish network text walks tried = arrived.head? := by
  induction n using Nat.strongRecOn generalizing walks arrived tried with
  | ind n ih =>
    cases h with
    | done => rw [firstToFinish, List.head?_nil]
    | @arrive n walk waiting arrived hstep h =>
      obtain ⟨hpoint, -⟩ := Array.getElem?_eq_some_iff.1 hstep
      have hcell := cell_lt text hpoint (hplaces walk List.mem_cons_self)
      have halone : Explored network text 1 [walk] [walk] := .arrive hstep .done
      have hfresh : tried[walk.cell network]? = some false := by
        rw [← htried.1] at hcell
        rw [Array.getElem?_eq_getElem hcell, Option.some.injEq, ← Bool.not_eq_true]
        intro hmark
        have hmark' : tried[walk.cell network]? = some true := by
          rw [Array.getElem?_eq_getElem hcell, hmark]
        rcases htried.2 walk 1 [walk] hmark' hpoint halone with hnil | hlt
        · exact absurd hnil (List.cons_ne_nil _ _)
        · omega
      rw [firstToFinish, dif_pos hfresh]
      simp only [hstep, List.head?_cons]
    | @move n walk waiting arrived step hstep hmake h =>
      obtain ⟨hpoint, -⟩ := Array.getElem?_eq_some_iff.1 hstep
      have hplace := hplaces walk List.mem_cons_self
      have hcell := cell_lt text hpoint hplace
      have hwaiting : ∀ w ∈ waiting, w.place ≤ text.size :=
        fun w hw => hplaces w (List.mem_cons_of_mem _ hw)
      have hnext : ∀ w ∈ walk.after text step, w.place ≤ text.size :=
        fun w hw => place_le_of_mem_after hw hplace
      obtain ⟨k, m, first, last, hn, rfl, hfirst, hlast⟩ := h.split
      have halone : Explored network text (k + 1) [walk] first :=
        .move hstep hmake (by rwa [List.append_nil])
      rw [← htried.1] at hcell
      by_cases hmark : tried[walk.cell network] = true
      · -- the walk was tried, and it does not need more steps than all walks together
        have hmark' : tried[walk.cell network]? = some true := by
          rw [Array.getElem?_eq_getElem hcell, hmark]
        have hfails : first = [] :=
          (htried.2 walk (k + 1) first hmark' hpoint halone).resolve_right (by omega)
        rw [firstToFinish, dif_neg (by rw [hmark']; simp), hfails, List.nil_append]
        exact ih m (by omega) hlast hwaiting (htried.mono (by omega))
      · have hfresh : tried[walk.cell network]? = some false := by
          rw [Array.getElem?_eq_getElem hcell, Bool.eq_false_iff.2 hmark]
        have hgo : firstToFinish network text (walk :: waiting) tried
            = firstToFinish network text (walk.after text step ++ waiting)
                (tried.setIfInBounds (walk.cell network) true) := by
          rw [firstToFinish, dif_pos hfresh]
          split
          · rename_i hfinish
            rw [hstep] at hfinish
            obtain rfl := Option.some.inj hfinish
            exact absurd hmake id
          · rw [hstep, Option.elim_some]
        rw [hgo]
        cases first with
        | nil =>
          refine ih n (by omega) h ?_ ?_
          · intro w hw
            exact (List.mem_append.1 hw).elim (hnext w) (hwaiting w)
          · exact (htried.mono (by omega)).mark hpoint halone (Or.inl rfl)
        | cons a first =>
          -- what waits behind the walk is never looked at
          refine firstToFinish_append ?_ waiting
          apply ih k (by omega) hfirst hnext
          exact (htried.mono (by omega)).mark hpoint halone (Or.inr (by omega))

end Walk

/-- The first walk that arrives, of those that start in front of a text or at a place further on. -/
theorem Network.firstWalk?_eq_head? {network : Network} {text : Array Char} {n : Nat}
    {arrived : List Walk}
    (h : Explored network text n ((List.range (text.size + 1)).map Walk.startingAt) arrived) :
    network.firstWalk? text = arrived.head? := by
  refine Walk.firstToFinish_eq_head? h ?_ (Walk.promises_replicate n)
  intro walk hwalk
  obtain ⟨place, hplace, rfl⟩ := List.mem_map.1 hwalk
  exact Nat.lt_succ_iff.1 (List.mem_range.1 hplace)

end UriRouting.Pattern
