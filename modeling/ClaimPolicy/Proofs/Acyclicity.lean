import ClaimPolicy.Model.Acyclic
import ClaimPolicy.Proofs.Inclusion

/-!
The search finds a cycle of includes exactly when there is one. Definitions finish in an order in
which everything that a definition includes has finished before it, so no chain of includes leads
from a finished definition back to itself. While the search goes on, its path is a chain of
includes, and an include of a definition on the path is finished, still to be followed, or the next
one on the path.
-/
namespace ClaimPolicy.Model

variable {model : Model}

theorem includes_source_lt {source target : Nat} (step : model.Includes source target) :
    source < model.size := by
  have member := step.1
  rw [includesOf] at member
  split at member
  · next definition found => exact (Array.getElem?_eq_some_iff.mp found).1
  · exact absurd member List.not_mem_nil

theorem chain_source_lt {source target : Nat} (chain : model.IncludesChain source target) :
    source < model.size := by
  cases chain with
  | single step => exact includes_source_lt step
  | cons step _ => exact includes_source_lt step

/-- The last to finish comes first, and a definition includes only what comes after it. -/
def FinishedInOrder (model : Model) : List Nat → Prop
  | [] => True
  | node :: earlier =>
      (∀ target, model.Includes node target → target ∈ earlier) ∧
      FinishedInOrder model earlier

theorem finished_closed {finished : List Nat} (ordered : model.FinishedInOrder finished) :
    model.ClosedUnderIncludes fun id => id ∈ finished := by
  induction finished with
  | nil =>
      intro source target member
      exact absurd member List.not_mem_nil
  | cons node earlier ih =>
      intro source target member step
      rcases List.mem_cons.mp member with rfl | later
      · exact List.mem_cons_of_mem _ (ordered.1 target step)
      · exact List.mem_cons_of_mem _ (ih ordered.2 source target later step)

theorem finished_on_no_cycle {finished : List Nat} (ordered : model.FinishedInOrder finished)
    {id : Nat} (member : id ∈ finished) : ¬ model.IncludesChain id id := by
  induction finished with
  | nil => exact absurd member List.not_mem_nil
  | cons node earlier ih =>
      rcases List.mem_cons.mp member with rfl | later
      · intro cycle
        -- The cycle leaves `id` for what has finished before, and never comes out of that again.
        have again : id ∈ earlier :=
          chain_stays_inside (finished_closed ordered.2) cycle ordered.1
        exact ih ordered.2 again cycle
      · exact ih ordered.2 later

/-- What the search keeps true of a frame. `above` is the definition entered from it, if any. -/
structure Frame.Right (model : Model) (finished : List Nat) (above : Option Nat)
    (frame : Frame) : Prop where
  inside : frame.node < model.size
  listed : ∀ target ∈ frame.remaining, target ∈ model.includesOf frame.node
  entered : ∀ target, above = some target → model.Includes frame.node target
  followed : ∀ target, model.Includes frame.node target →
    target ∈ finished ∨ target ∈ frame.remaining ∨ above = some target

def PathRight (model : Model) (finished : List Nat) : Option Nat → List Frame → Prop
  | _, [] => True
  | above, frame :: path =>
      frame.Right model finished above ∧ PathRight model finished (some frame.node) path

theorem path_right_mono {finished after : List Nat} (kept : finished ⊆ after) {above : Option Nat}
    {path : List Frame} (right : model.PathRight finished above path) :
    model.PathRight after above path := by
  induction path generalizing above with
  | nil => trivial
  | cons frame path ih =>
      obtain ⟨top, below⟩ := right
      refine ⟨⟨top.inside, top.listed, top.entered, ?_⟩, ih below⟩
      intro target step
      exact (top.followed target step).imp_left fun member => kept member

/-- The definition above the path is finished and leaves it. -/
theorem path_right_finish {finished : List Nat} {node : Nat} {path : List Frame}
    (right : model.PathRight finished (some node) path) :
    model.PathRight (node :: finished) none path := by
  cases path with
  | nil => trivial
  | cons frame path =>
      obtain ⟨top, below⟩ := right
      refine ⟨⟨top.inside, top.listed, by simp, ?_⟩,
        path_right_mono (List.subset_cons_self _ _) below⟩
      intro target step
      rcases top.followed target step with done | waiting | same
      · exact Or.inl (List.mem_cons_of_mem _ done)
      · exact Or.inr (Or.inl waiting)
      · cases same
        exact Or.inl List.mem_cons_self

theorem path_right_enter {finished : List Nat} {node next : Nat} {rest : List Nat}
    {path : List Frame} (right : model.PathRight finished none (⟨node, next :: rest⟩ :: path))
    (inside : next < model.size) :
    model.PathRight finished none
      (⟨next, model.includesOf next⟩ :: ⟨node, rest⟩ :: path) := by
  obtain ⟨top, below⟩ := right
  have step : model.Includes node next := ⟨top.listed next List.mem_cons_self, inside⟩
  refine ⟨⟨inside, fun _ member => member, by simp, ?_⟩, ⟨top.inside, ?_, ?_, ?_⟩,
    below⟩
  · intro target further
    exact Or.inr (Or.inl further.1)
  · intro target member
    exact top.listed target (List.mem_cons_of_mem _ member)
  · intro target same
    cases same
    exact step
  · intro target further
    rcases top.followed target further with done | waiting | none
    · exact Or.inl done
    · rcases List.mem_cons.mp waiting with rfl | later
      · exact Or.inr (Or.inr rfl)
      · exact Or.inr (Or.inl later)
    · cases none

theorem path_right_skip {finished : List Nat} {node next : Nat} {rest : List Nat}
    {path : List Frame} (right : model.PathRight finished none (⟨node, next :: rest⟩ :: path))
    (done : next < model.size → next ∈ finished) :
    model.PathRight finished none (⟨node, rest⟩ :: path) := by
  obtain ⟨top, below⟩ := right
  refine ⟨⟨top.inside, ?_, by simp, ?_⟩, below⟩
  · intro target member
    exact top.listed target (List.mem_cons_of_mem _ member)
  · intro target step
    rcases top.followed target step with before | waiting | none
    · exact Or.inl before
    · rcases List.mem_cons.mp waiting with rfl | later
      · exact Or.inl (done step.2)
      · exact Or.inr (Or.inl later)
    · cases none

theorem chain_to_above {finished : List Nat} {top id : Nat} {path : List Frame}
    (right : model.PathRight finished (some top) path) (on : onPath path id = true) :
    model.IncludesChain id top := by
  induction path generalizing top with
  | nil => simp [onPath] at on
  | cons frame path ih =>
      obtain ⟨here, below⟩ := right
      have last : model.IncludesChain frame.node top := .single (here.entered top rfl)
      simp only [onPath, List.any_cons, Bool.or_eq_true, beq_iff_eq] at on
      rcases on with rfl | further
      · exact last
      · exact chain_trans (ih below further) last

theorem path_closes {finished : List Nat} {node next : Nat} {rest : List Nat} {path : List Frame}
    (right : model.PathRight finished none (⟨node, next :: rest⟩ :: path))
    (on : onPath (⟨node, next :: rest⟩ :: path) next = true) :
    model.IncludesChain next next := by
  obtain ⟨top, below⟩ := right
  have listed : next ∈ model.includesOf node := top.listed next List.mem_cons_self
  simp only [onPath, List.any_cons, Bool.or_eq_true, beq_iff_eq] at on
  rcases on with rfl | further
  · exact .single ⟨listed, top.inside⟩
  · have back : model.IncludesChain next node := chain_to_above below further
    have inside : next < model.size := chain_source_lt back
    exact chain_trans back (.single ⟨listed, inside⟩)

theorem finished_of_stay {finished : List Nat} {node next : Nat} {rest : List Nat}
    {path : List Frame} (off : ¬ onPath (⟨node, next :: rest⟩ :: path) next = true)
    (stay : ¬ (next < model.size ∧ finished.contains next = false ∧
      onPath (⟨node, rest⟩ :: path) next = false)) :
    next < model.size → next ∈ finished := by
  intro inside
  by_cases member : next ∈ finished
  · exact member
  · have fresh : finished.contains next = false := by simpa using member
    -- Following an include changes no node of the path.
    have stillOff : onPath (⟨node, rest⟩ :: path) next = false := by
      change onPath (⟨node, next :: rest⟩ :: path) next = false
      simpa using off
    exact absurd ⟨inside, fresh, stillOff⟩ stay

theorem search_cycle_closes {finished : List Nat} {path : List Frame} {closing : Nat}
    (right : model.PathRight finished none path)
    (found : model.searchCycle finished path = .error closing) :
    model.IncludesChain closing closing := by
  fun_induction searchCycle model finished path with
  | case1 => cases found
  | case2 finished node path ih => exact ih (path_right_finish right.2) found
  | case3 finished node next rest path on =>
      cases found
      exact path_closes right on
  | case4 finished node next rest path _ enter ih =>
      exact ih (path_right_enter right enter.1) found
  | case5 finished node next rest path off stay ih =>
      exact ih (path_right_skip right (finished_of_stay off stay)) found

theorem search_cycle_finishes {finished after : List Nat} {path : List Frame}
    (right : model.PathRight finished none path) (ordered : model.FinishedInOrder finished)
    (done : model.searchCycle finished path = .ok after) :
    model.FinishedInOrder after ∧ finished ⊆ after ∧
    ∀ frame ∈ path, frame.node ∈ after := by
  fun_induction searchCycle model finished path with
  | case1 finished =>
      cases done
      exact ⟨ordered, List.Subset.refl _, by simp⟩
  | case2 finished node path ih =>
      have allDone : ∀ target, model.Includes node target → target ∈ finished := by
        intro target step
        simpa using right.1.followed target step
      obtain ⟨order, kept, visited⟩ :=
        ih (path_right_finish right.2) ⟨allDone, ordered⟩ done
      refine ⟨order, fun _ member => kept (List.mem_cons_of_mem _ member), ?_⟩
      exact List.forall_mem_cons.mpr ⟨kept List.mem_cons_self, visited⟩
  | case3 => cases done
  | case4 finished node next rest path _ enter ih =>
      obtain ⟨order, kept, visited⟩ := ih (path_right_enter right enter.1) ordered done
      refine ⟨order, kept, ?_⟩
      have below := (List.forall_mem_cons.mp visited).2
      exact List.forall_mem_cons.mpr (List.forall_mem_cons.mp below)
  | case5 finished node next rest path off stay ih =>
      obtain ⟨order, kept, visited⟩ :=
        ih (path_right_skip right (finished_of_stay off stay)) ordered done
      exact ⟨order, kept, List.forall_mem_cons.mpr (List.forall_mem_cons.mp visited)⟩

theorem path_right_start (finished : List Nat) {start : Nat} (inside : start < model.size) :
    model.PathRight finished none [⟨start, model.includesOf start⟩] :=
  ⟨⟨inside, fun _ member => member, by simp, fun _ step => Or.inr (Or.inl step.1)⟩, trivial⟩

theorem search_from_closes {finished starts : List Nat} {closing : Nat}
    (inside : ∀ start ∈ starts, start < model.size)
    (found : model.searchFrom finished starts = .error closing) :
    model.IncludesChain closing closing := by
  induction starts generalizing finished with
  | nil => cases found
  | cons start starts ih =>
      obtain ⟨startInside, restInside⟩ := List.forall_mem_cons.mp inside
      rw [searchFrom] at found
      split at found
      · exact ih restInside found
      · split at found
        · next closed here =>
            cases found
            exact search_cycle_closes (path_right_start finished startInside) here
        · exact ih restInside found

theorem search_from_finishes {finished starts after : List Nat}
    (inside : ∀ start ∈ starts, start < model.size) (ordered : model.FinishedInOrder finished)
    (done : model.searchFrom finished starts = .ok after) :
    model.FinishedInOrder after ∧ finished ⊆ after ∧ starts ⊆ after := by
  induction starts generalizing finished with
  | nil =>
      cases done
      exact ⟨ordered, List.Subset.refl _, List.nil_subset _⟩
  | cons start starts ih =>
      obtain ⟨startInside, restInside⟩ := List.forall_mem_cons.mp inside
      rw [searchFrom] at done
      split at done
      · next before =>
          obtain ⟨order, kept, visited⟩ := ih restInside ordered done
          have member : start ∈ finished := by simpa using before
          exact ⟨order, kept, List.cons_subset.mpr ⟨kept member, visited⟩⟩
      · split at done
        · cases done
        · next grown here =>
            obtain ⟨grownOrder, grownKept, entered⟩ :=
              search_cycle_finishes (path_right_start finished startInside) ordered here
            obtain ⟨order, kept, visited⟩ := ih restInside grownOrder done
            have member : start ∈ grown := entered _ List.mem_cons_self
            exact ⟨order, fun _ before => kept (grownKept before),
              List.cons_subset.mpr ⟨kept member, visited⟩⟩

theorem cycle_closes {closing : Nat} (found : model.cycle? = some closing) :
    model.IncludesChain closing closing := by
  unfold cycle? at found
  split at found
  · next here =>
      cases found
      exact search_from_closes (fun _ member => List.mem_range.mp member) here
  · cases found

theorem cycle_eq_none_iff (model : Model) : model.cycle? = none ↔ model.Acyclic := by
  constructor
  · intro nothing
    unfold cycle? at nothing
    split at nothing
    · cases nothing
    · next finished here =>
        have start : model.FinishedInOrder [] := trivial
        obtain ⟨ordered, _, visited⟩ :=
          search_from_finishes (fun _ member => List.mem_range.mp member) start here
        intro id cycle
        have member : id ∈ finished := visited (List.mem_range.mpr (chain_source_lt cycle))
        exact finished_on_no_cycle ordered member cycle
  · intro acyclic
    cases found : model.cycle? with
    | none => rfl
    | some closing => exact absurd (cycle_closes found) (acyclic closing)

/-- The check passes exactly when no chain of includes leads back to its start, and otherwise names
a definition from which one does. -/
theorem check_acyclic_eq_ok (model : Model) : model.checkAcyclic = .ok () ↔ model.Acyclic := by
  rw [← cycle_eq_none_iff, checkAcyclic]
  cases found : model.cycle? with
  | none => simp
  | some closing =>
      have inside : closing < model.size := chain_source_lt (cycle_closes found)
      have here : model.get? closing = some model.definitions[closing] :=
        Array.getElem?_eq_getElem inside
      simp [here]

theorem chain_descends {depth : Nat → Nat}
    (descends : ∀ source < model.size, ∀ target ∈ model.includesOf source,
      depth target < depth source)
    {source target : Nat} (chain : model.IncludesChain source target) :
    depth target < depth source := by
  induction chain with
  | single step => exact descends _ (includes_source_lt step) _ step.1
  | cons step _ ih => exact Nat.lt_trans ih (descends _ (includes_source_lt step) _ step.1)

/-- Depths that go down along includes show that there is no cycle. -/
theorem check_acyclic_of_depth (depth : Nat → Nat)
    (descends : ∀ source < model.size, ∀ target ∈ model.includesOf source,
      depth target < depth source) : model.checkAcyclic = .ok () := by
  apply (check_acyclic_eq_ok model).mpr
  intro id cycle
  exact Nat.lt_irrefl _ (chain_descends descends cycle)

theorem check_acyclic_eq_error {fault : Error} (refused : model.checkAcyclic = .error fault) :
    ∃ id definition, model.get? id = some definition ∧ model.IncludesChain id id ∧
      fault = .includeCycle definition.token.text := by
  unfold checkAcyclic at refused
  split at refused
  · next definition found =>
      cases refused
      obtain ⟨closing, cycle, here⟩ := Option.bind_eq_some_iff.mp found
      exact ⟨closing, definition, here, cycle_closes cycle, rfl⟩
  · cases refused

end ClaimPolicy.Model
