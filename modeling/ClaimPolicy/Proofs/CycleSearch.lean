import ClaimPolicy.Proofs.Acyclicity
import ClaimPolicy.Proofs.ColouredSearch

/-!
The loop over colours gives the answer of the check for cycles. Against the search over lists, its
active definitions are those on the path, each once, and its done definitions are the finished ones.
In an arena whose includes stay inside, a round keeps this for the next call of the search over
lists, so the loop never goes astray; and what the check answers is exact. The arenas that come to
the check are of this kind, since includes are resolved before.
-/
namespace ClaimPolicy.Model

variable {model : Model}

def IncludesInside (model : Model) : Prop :=
  ∀ definition ∈ model.definitions, ∀ target ∈ definition.includes, target < model.size

/-- The frame of the search over lists that an entry of the loop stands for. -/
def frameOf (model : Model) (entry : Entry) : Frame :=
  ⟨entry.node, (model.includesOf entry.node).drop entry.followed⟩

def nodesOf (path : List Frame) : List Nat := path.map Frame.node

/-- How the loop stands when the search over lists has this path, these finished definitions and
these places still to start from. -/
structure Reflects (model : Model) (finished : List Nat) (path : List Frame) (starts : List Nat)
    (search : Search) : Prop where
  sized : search.colours.size = model.size
  frames : search.path.map model.frameOf = path
  active_iff : ∀ id, search.colours[id]? = some .active ↔ id ∈ nodesOf path
  done_iff : ∀ id, search.colours[id]? = some .done ↔ id ∈ finished
  distinct : (nodesOf path).Nodup
  waiting : List.range' search.start (model.size - search.start) = starts

theorem on_path_iff (path : List Frame) (id : Nat) :
    onPath path id = true ↔ id ∈ nodesOf path := by
  simp [onPath, nodesOf]

theorem colour_after_set {colours : Array Colour} {id : Nat} (inside : id < colours.size)
    (colour : Colour) (other : Nat) :
    (colours.setIfInBounds id colour)[other]? =
      if other = id then some colour else colours[other]? := by
  rw [Array.getElem?_setIfInBounds]
  by_cases same : other = id
  · simp [same, inside]
  · simp [same, Ne.symm same]

theorem unsearched_reflects (model : Model) :
    model.Reflects [] [] (List.range model.size) model.unsearched := by
  refine ⟨by simp [unsearched], rfl, ?_, ?_, List.nodup_nil, ?_⟩
  · intro id
    simp [unsearched, nodesOf, Array.getElem?_replicate]
  · intro id
    simp [unsearched, Array.getElem?_replicate]
  · rw [List.range_eq_range']
    rfl

namespace Reflects

variable {finished : List Nat} {path : List Frame} {starts : List Nat} {search : Search}

theorem node_inside (reflects : model.Reflects finished path starts search) {id : Nat}
    (on : id ∈ nodesOf path) : id < model.size := by
  have active := (reflects.active_iff id).mpr on
  exact reflects.sized ▸ (Array.getElem?_eq_some_iff.mp active).1

theorem new_of (reflects : model.Reflects finished path starts search) {id : Nat}
    (inside : id < model.size) (off : id ∉ nodesOf path) (unfinished : id ∉ finished) :
    search.colours[id]? = some .new := by
  have there : id < search.colours.size := reflects.sized ▸ inside
  have here := Array.getElem?_eq_getElem there
  cases colour : search.colours[id] with
  | new => rw [here, colour]
  | active => exact absurd ((reflects.active_iff id).mp (by rw [here, colour])) off
  | done => exact absurd ((reflects.done_iff id).mp (by rw [here, colour])) unfinished

theorem enter (reflects : model.Reflects finished path starts search) {id : Nat}
    (new : search.colours[id]? = some .new) :
    model.Reflects finished (⟨id, model.includesOf id⟩ :: path) starts (search.enter id) := by
  have there : id < search.colours.size := (Array.getElem?_eq_some_iff.mp new).1
  have off : id ∉ nodesOf path := by
    rw [← reflects.active_iff id, new]
    simp
  have unfinished : id ∉ finished := by
    rw [← reflects.done_iff id, new]
    simp
  have after : ∀ other, (search.enter id).colours[other]? =
      if other = id then some .active else search.colours[other]? :=
    colour_after_set there .active
  refine ⟨?_, ?_, ?_, ?_, List.nodup_cons.mpr ⟨off, reflects.distinct⟩, reflects.waiting⟩
  · simpa [Search.enter] using reflects.sized
  · simp [Search.enter, frameOf, reflects.frames]
  · intro other
    rw [after]
    by_cases same : other = id
    · simp [same, nodesOf]
    · simpa [same, nodesOf] using reflects.active_iff other
  · intro other
    rw [after]
    by_cases same : other = id
    · simp [same, unfinished]
    · simpa [same] using reflects.done_iff other

/-- The entry on top, its definition and the includes that it still has to follow. -/
theorem top {node : Nat} {remaining : List Nat}
    (reflects : model.Reflects finished (⟨node, remaining⟩ :: path) starts search) :
    ∃ followed below definition, search.path = ⟨node, followed⟩ :: below ∧
      below.map model.frameOf = path ∧ model.get? node = some definition ∧
        definition.includes.drop followed = remaining := by
  obtain ⟨⟨entered, followed⟩, below, onTop, frame, rest⟩ :=
    List.map_eq_cons_iff.mp reflects.frames
  obtain ⟨rfl, left⟩ := Frame.mk.inj frame
  obtain ⟨definition, found⟩ := get_of_lt (reflects.node_inside List.mem_cons_self)
  rw [includes_of_get found] at left
  exact ⟨followed, below, definition, onTop, rest, found, left⟩

/-- With nothing left to follow, the definition on top is finished and leaves the path. -/
theorem finish {node : Nat}
    (reflects : model.Reflects finished (⟨node, []⟩ :: path) starts search) :
    ∃ later, model.round search = .on later ∧
      model.Reflects (node :: finished) path starts later := by
  obtain ⟨followed, below, definition, onTop, frames, found, left⟩ := reflects.top
  have exhausted : definition.includes[followed]? = none := by
    rw [← List.head?_drop, left, List.head?_nil]
  have there : node < search.colours.size :=
    reflects.sized ▸ reflects.node_inside List.mem_cons_self
  obtain ⟨off, distinct⟩ := List.nodup_cons.mp reflects.distinct
  refine ⟨{ search with colours := search.colours.setIfInBounds node .done, path := below }, ?_,
    ⟨?_, frames, ?_, ?_, distinct, reflects.waiting⟩⟩
  · simp only [round, onTop, found, exhausted]
  · simpa using reflects.sized
  · intro other
    rw [colour_after_set there]
    by_cases same : other = node
    -- A definition stands on the path only once, so it is active no more.
    · subst same
      exact iff_of_false (by simp) off
    · simpa [same, nodesOf] using reflects.active_iff other
  · intro other
    rw [colour_after_set there]
    by_cases same : other = node
    · simp [same]
    · simpa [same] using reflects.done_iff other

/-- The next include is counted, and what the round comes to depends on its colour. -/
theorem advance {node next : Nat} {rest : List Nat}
    (reflects : model.Reflects finished (⟨node, next :: rest⟩ :: path) starts search) :
    ∃ later, model.round search = model.followRound later next ∧
      model.Reflects finished (⟨node, rest⟩ :: path) starts later := by
  obtain ⟨followed, below, definition, onTop, frames, found, left⟩ := reflects.top
  have listed : definition.includes[followed]? = some next := by
    rw [← List.head?_drop, left, List.head?_cons]
  have remaining : definition.includes.drop (followed + 1) = rest := by
    rw [← List.tail_drop, left, List.tail_cons]
  refine ⟨{ search with path := ⟨node, followed + 1⟩ :: below }, ?_,
    ⟨reflects.sized, ?_, reflects.active_iff, reflects.done_iff, reflects.distinct,
      reflects.waiting⟩⟩
  · simp only [round, onTop, found, listed]
  · rw [List.map_cons, frames, frameOf, includes_of_get found, remaining]

theorem target_inside {node next : Nat} {rest : List Nat}
    (reflects : model.Reflects finished (⟨node, next :: rest⟩ :: path) starts search)
    (inside : model.IncludesInside) : next < model.size := by
  obtain ⟨followed, _, definition, _, _, found, left⟩ := reflects.top
  have listed : next ∈ definition.includes.drop followed := left ▸ List.mem_cons_self
  exact inside definition (Array.mem_of_getElem? found) next (List.mem_of_mem_drop listed)

theorem pass {start : Nat} (reflects : model.Reflects finished path (start :: starts) search) :
    search.start = start ∧ start < model.size ∧
      model.Reflects finished path starts { search with start := search.start + 1 } := by
  have waiting := reflects.waiting
  obtain ⟨count, counted⟩ : ∃ count, model.size - search.start = count + 1 := by
    apply Nat.exists_eq_add_one_of_ne_zero
    intro nothing
    rw [nothing] at waiting
    cases waiting
  rw [counted, List.range'_succ] at waiting
  obtain ⟨here, rest⟩ := List.cons.inj waiting
  have fewer : model.size - (search.start + 1) = count := by omega
  refine ⟨here, by omega, reflects.sized, reflects.frames, reflects.active_iff, reflects.done_iff,
    reflects.distinct, ?_⟩
  rw [fewer, rest]

end Reflects

def answer (model : Model) : Except Nat (List Nat) → Except Error Unit
  | .ok _ => .ok ()
  | .error closing =>
      match model.get? closing with
      | some definition => .error (.includeCycle definition.token.text)
      | none => .ok ()

theorem check_acyclic_eq_answer (model : Model) :
    model.checkAcyclic = model.answer (model.searchFrom [] (List.range model.size)) := by
  rw [checkAcyclic, cycle?]
  cases model.searchFrom [] (List.range model.size) with
  | ok finished => rfl
  | error closing =>
      cases found : model.get? closing <;> simp [answer, found]

theorem search_from_cons (finished : List Nat) (start : Nat) (starts : List Nat) :
    model.searchFrom finished (start :: starts) =
      if finished.contains start then model.searchFrom finished starts
      else (model.searchCycle finished [⟨start, model.includesOf start⟩]).bind
        (model.searchFrom · starts) := by
  rw [searchFrom]
  cases model.searchCycle finished [⟨start, model.includesOf start⟩] <;> rfl

/-- One round for each call of the search over lists, until the path is empty and the rest takes
over. -/
theorem ends_of_path (inside : model.IncludesInside) {finished : List Nat} {path : List Frame}
    {starts : List Nat} {search : Search} (reflects : model.Reflects finished path starts search)
    (rest : ∀ after later, model.Reflects after [] starts later →
      model.Ends (model.answer (model.searchFrom after starts)) later) :
    model.Ends (model.answer ((model.searchCycle finished path).bind (model.searchFrom · starts)))
      search := by
  fun_induction searchCycle model finished path generalizing search with
  | case1 finished => exact rest finished search reflects
  | case2 finished node path ih =>
      obtain ⟨later, goes, after⟩ := reflects.finish
      exact .later goes (ih after)
  | case3 finished node next remaining path on =>
      obtain ⟨later, follows, after⟩ := reflects.advance
      have above : next ∈ nodesOf (⟨node, remaining⟩ :: path) := (on_path_iff _ _).mp on
      obtain ⟨definition, found⟩ := get_of_lt (after.node_inside above)
      have active := (after.active_iff next).mpr above
      apply Ends.now
      simp only [follows, followRound, active, found, Except.bind, answer]
  | case4 finished node next remaining path off enter ih =>
      obtain ⟨later, follows, after⟩ := reflects.advance
      have notAbove : next ∉ nodesOf (⟨node, remaining⟩ :: path) := by
        rw [← on_path_iff, enter.2.2]
        exact Bool.false_ne_true
      have new := after.new_of enter.1 notAbove (by simpa using enter.2.1)
      refine Ends.later ?_ (ih (after.enter new))
      simp only [follows, followRound, new]
  | case5 finished node next remaining path off stay ih =>
      obtain ⟨later, follows, after⟩ := reflects.advance
      -- Not entered and not above, an include that stays inside can only be finished.
      have member := finished_of_stay off stay (reflects.target_inside inside)
      have done := (after.done_iff next).mpr member
      refine Ends.later ?_ (ih after)
      simp only [follows, followRound, done]

theorem ends_of_starts (inside : model.IncludesInside) {finished starts : List Nat}
    {search : Search} (reflects : model.Reflects finished [] starts search) :
    model.Ends (model.answer (model.searchFrom finished starts)) search := by
  have resting : search.path = [] := List.map_eq_nil_iff.mp reflects.frames
  induction starts generalizing finished search with
  | nil =>
      have allPassed : ¬ search.start < model.size := by
        have none : model.size - search.start = 0 := List.range'_eq_nil_iff.mp reflects.waiting
        omega
      apply Ends.now
      simp only [round, resting, startRound, if_neg allPassed, searchFrom, answer]
  | cons start starts ih =>
      obtain ⟨rfl, here, after⟩ := reflects.pass
      rw [search_from_cons]
      split
      · next before =>
          have done := (reflects.done_iff search.start).mpr (by simpa using before)
          refine Ends.later ?_ (ih after resting)
          simp only [round, resting, startRound, if_pos here, done]
      · next unfinished =>
          have new := reflects.new_of here (by simp [nodesOf]) (by simpa using unfinished)
          refine Ends.later ?_ (ends_of_path inside (after.enter new) ?_)
          · simp only [round, resting, startRound, if_pos here, new]
          · intro finished later reflects
            exact ih reflects (List.map_eq_nil_iff.mp reflects.frames)

theorem resolved_includes_inside {schema : Schema} {definitions : List Definition}
    (registered : Draft.Registered schema.case schema.drafts)
    (resolved : schema.unresolved.resolveDrafts schema.drafts = .ok definitions) :
    (ofDefinitions schema.case definitions).IncludesInside := by
  intro definition member target listed
  have pairs := resolve_drafts_pairs resolved
  have sameSize : schema.unresolved.size = (ofDefinitions schema.case definitions).size := by
    simp [Schema.unresolved, ofDefinitions, size, pairs.length_eq]
  have among : definition ∈ definitions := by simpa [ofDefinitions] using member
  obtain ⟨place, found⟩ := List.getElem?_of_mem among
  obtain ⟨draft, _, includes, here, rfl⟩ := forall₂_at pairs found
  obtain ⟨_, _, _, _, strict⟩ := (mem_resolve_includes here target).mp listed
  obtain ⟨_, there⟩ := find_id_found (Schema.unresolved_indexed registered) strict
  exact sameSize ▸ lt_of_get there

/-- In an arena whose includes stay inside, the loop goes nowhere astray and stops with the answer
of the check, after one round for each include, two for each definition and a last one at most. The
check passes exactly when no chain of includes leads back to its start, and otherwise names the
token of a definition from which one does. -/
theorem cycle_search_exact (model : Model) (inside : model.IncludesInside) :
    (∀ count, 2 * model.size + model.includeCount < count →
      model.rounds count model.unsearched = .stopped model.checkAcyclic) ∧
    (model.checkAcyclic = .ok () ↔ model.Acyclic) ∧
    ∀ fault, model.checkAcyclic = .error fault →
      ∃ id definition, model.get? id = some definition ∧ model.IncludesChain id id ∧
        fault = .includeCycle definition.token.text := by
  refine ⟨?_, check_acyclic_eq_ok model, fun _ refused => check_acyclic_eq_error refused⟩
  intro count enough
  rw [check_acyclic_eq_answer]
  apply rounds_of_ends (ends_of_starts inside model.unsearched_reflects)
  rwa [rounds_left_unsearched]

/-- Two ways lead to `base`, and the cycle does not go through the place where the search starts. -/
def crossedSchema : Schema where
  declarations := [
    .atom ⟨"top", [], ["left", "right"]⟩,
    .atom ⟨"left", [], ["base"]⟩,
    .atom ⟨"right", [], ["base", "back"]⟩,
    .atom ⟨"base", [], []⟩,
    .atom ⟨"back", [], ["right"]⟩]

def crossedDefinitions : List Definition := [
  ⟨0, "top", .atom "top", .atom, [], [1, 2], [], none⟩,
  ⟨1, "left", .atom "left", .atom, [], [3], [], none⟩,
  ⟨2, "right", .atom "right", .atom, [], [3, 4], [], none⟩,
  ⟨3, "base", .atom "base", .atom, [], [], [], none⟩,
  ⟨4, "back", .atom "back", .atom, [], [2], [], none⟩]

def crossedModel : Model := ofDefinitions crossedSchema.case crossedDefinitions

theorem crossed_cycle_named : crossedModel.IncludesInside ∧
    crossedModel.rounds 17 crossedModel.unsearched = .stopped (.error (.includeCycle "right")) ∧
    ¬ crossedModel.Acyclic ∧ crossedSchema.build = .error (.includeCycle "right") := by
  have registration : register crossedSchema.case [] crossedSchema.drafts =
      .ok [(none, "back"), (none, "base"), (none, "right"), (none, "left"), (none, "top")] := by
    decide +kernel
  have resolution : crossedSchema.unresolved.resolveDrafts crossedSchema.drafts =
      .ok crossedDefinitions := by
    decide +kernel
  have inside : crossedModel.IncludesInside :=
    resolved_includes_inside (Schema.registered_of_register registration) resolution
  have stopped : crossedModel.rounds 17 crossedModel.unsearched =
      .stopped (.error (.includeCycle "right")) := rfl
  obtain ⟨searched, passes, _⟩ := cycle_search_exact crossedModel inside
  have named : crossedModel.checkAcyclic = .error (.includeCycle "right") :=
    Round.stopped.inj ((searched 17 (by decide)).symm.trans stopped)
  refine ⟨inside, stopped, ?_, (Schema.build_eq_error _ _).mpr ?_⟩
  · rw [← passes, named]
    exact nofun
  · exact Or.inr ⟨by decide, Or.inr ⟨_, registration, Or.inr ⟨_, resolution, named⟩⟩⟩

end ClaimPolicy.Model
