import Mathlib.Algebra.BigOperators.Group.Finset.Basic
import Mathlib.Algebra.Order.BigOperators.Group.Finset
import Mathlib.Algebra.Ring.Nat
import ClaimPolicy.Proofs.ArenaReads

/-!
The search for a cycle as a loop over colours. A definition is new until the loop enters it, active
while it is on the path, and done when all its includes were followed. Definitions on the path count
their includes that were followed. A round follows the next include of the last one, or finishes it
when none is left; with an empty path it looks at the next place to start from. A round that reads a
place outside the arena goes astray and names it.

A round that goes on leaves fewer rounds to come, whatever the arena and wherever the loop stands.
-/
namespace ClaimPolicy.Model

inductive Colour where
  | new
  | active
  | done
  deriving DecidableEq, Repr

structure Entry where
  node : Nat
  followed : Nat

/-- The loop between two rounds. The definition that was entered last comes first on the path. -/
structure Search where
  colours : Array Colour
  path : List Entry
  start : Nat

inductive Round where
  | on (search : Search)
  | stopped (answer : Except Error Unit)
  | astray (place : Nat)

def unsearched (model : Model) : Search where
  colours := Array.replicate model.size .new
  path := []
  start := 0

def Search.enter (search : Search) (id : Nat) : Search :=
  { search with
    colours := search.colours.setIfInBounds id .active
    path := ⟨id, 0⟩ :: search.path }

def startRound (model : Model) (search : Search) : Round :=
  if search.start < model.size then
    match search.colours[search.start]? with
    | none => .astray search.start
    | some .new => .on (Search.enter { search with start := search.start + 1 } search.start)
    | some _ => .on { search with start := search.start + 1 }
  else .stopped (.ok ())

/-- Follows an include: a new definition is entered, an active one closes a cycle. -/
def followRound (model : Model) (search : Search) (target : Nat) : Round :=
  match search.colours[target]? with
  | none => .astray target
  | some .new => .on (search.enter target)
  | some .done => .on search
  | some .active =>
      match model.get? target with
      | none => .astray target
      | some definition => .stopped (.error (.includeCycle definition.token.text))

def round (model : Model) (search : Search) : Round :=
  match search.path with
  | [] => model.startRound search
  | ⟨node, followed⟩ :: below =>
      match model.get? node with
      | none => .astray node
      | some definition =>
          match definition.includes[followed]? with
          | none =>
              .on { search with colours := search.colours.setIfInBounds node .done, path := below }
          | some target =>
              model.followRound { search with path := ⟨node, followed + 1⟩ :: below } target

def rounds (model : Model) : Nat → Search → Round
  | 0, search => .on search
  | count + 1, search =>
      match model.round search with
      | .on later => rounds model count later
      | last => last

variable {model : Model}

/-- A definition on the path takes a round for each include that was not followed and one to
finish. -/
def entryRounds (model : Model) (entry : Entry) : Nat :=
  (model.includesOf entry.node).length - entry.followed + 1

def newPlaces (colours : Array Colour) : Finset Nat :=
  (Finset.range colours.size).filter fun id => colours[id]? = some .new

/-- The most rounds to come before the last. A new definition takes as many as when it is
entered. -/
def roundsLeft (model : Model) (search : Search) : Nat :=
  (model.size - search.start) + (search.path.map model.entryRounds).sum +
    ∑ id ∈ newPlaces search.colours, model.entryRounds ⟨id, 0⟩

theorem mem_new_places {colours : Array Colour} {id : Nat} :
    id ∈ newPlaces colours ↔ colours[id]? = some .new := by
  simp only [newPlaces, Finset.mem_filter, Finset.mem_range, and_iff_right_iff_imp]
  intro new
  exact (Array.getElem?_eq_some_iff.mp new).1

theorem new_places_set (colours : Array Colour) (id : Nat) {colour : Colour}
    (entered : colour ≠ .new) :
    newPlaces (colours.setIfInBounds id colour) = (newPlaces colours).erase id := by
  ext other
  simp only [Finset.mem_erase, mem_new_places, Array.getElem?_setIfInBounds]
  by_cases same : id = other
  · subst same
    simp only [if_true, ne_eq, not_true_eq_false, false_and, iff_false]
    split <;> simp [entered]
  · simp [same, Ne.symm same]

/-- What a new definition has ahead of it moves to the path with it. -/
theorem rounds_left_enter {search : Search} {id : Nat} (new : search.colours[id]? = some .new) :
    model.roundsLeft (search.enter id) = model.roundsLeft search := by
  have moved := Finset.sum_erase_add (newPlaces search.colours)
    (fun id => model.entryRounds ⟨id, 0⟩) (mem_new_places.mpr new)
  simp only [roundsLeft, Search.enter, List.map_cons, List.sum_cons,
    new_places_set search.colours id (show Colour.active ≠ .new by decide)]
  omega

theorem start_round_left {search later : Search} (goes : model.startRound search = .on later) :
    model.roundsLeft later < model.roundsLeft search := by
  unfold startRound at goes
  split at goes
  · next inside =>
      have passed : model.roundsLeft { search with start := search.start + 1 } <
          model.roundsLeft search := by
        simp only [roundsLeft]
        omega
      split at goes
      · cases goes
      · next new =>
          cases goes
          exact Nat.lt_of_le_of_lt (Nat.le_of_eq (rounds_left_enter new)) passed
      · cases goes
        exact passed
  · cases goes

theorem follow_round_left {search later : Search} {target : Nat}
    (goes : model.followRound search target = .on later) :
    model.roundsLeft later = model.roundsLeft search := by
  unfold followRound at goes
  split at goes
  · cases goes
  · next new =>
      cases goes
      exact rounds_left_enter new
  · cases goes
    rfl
  · split at goes <;> cases goes

theorem round_left {search later : Search} (goes : model.round search = .on later) :
    model.roundsLeft later < model.roundsLeft search := by
  unfold round at goes
  split at goes
  · exact start_round_left goes
  · next node followed below onTop =>
      split at goes
      · cases goes
      · next definition found =>
          split at goes
          · cases goes
            have fewer : ∑ id ∈ newPlaces (search.colours.setIfInBounds node .done),
                model.entryRounds ⟨id, 0⟩ ≤
                  ∑ id ∈ newPlaces search.colours, model.entryRounds ⟨id, 0⟩ := by
              rw [new_places_set _ _ (by decide)]
              exact Finset.sum_le_sum_of_subset (Finset.erase_subset _ _)
            simp only [roundsLeft, onTop, List.map_cons, List.sum_cons, entryRounds] at fewer ⊢
            omega
          · next target listed =>
              rw [follow_round_left goes]
              have further : followed < (model.includesOf node).length := by
                rw [includes_of_get found]
                exact (List.getElem?_eq_some_iff.mp listed).1
              simp only [roundsLeft, onTop, List.map_cons, List.sum_cons, entryRounds]
              omega

def includeCount (model : Model) : Nat :=
  ∑ id ∈ Finset.range model.size, (model.includesOf id).length

theorem rounds_left_unsearched (model : Model) :
    model.roundsLeft model.unsearched = 2 * model.size + model.includeCount := by
  have new : newPlaces model.unsearched.colours = Finset.range model.size := by
    ext id
    simp [mem_new_places, unsearched, Array.getElem?_replicate]
  rw [roundsLeft, new]
  simp only [entryRounds, Nat.sub_zero, Finset.sum_add_distrib, ← Finset.card_eq_sum_ones,
    Finset.card_range, includeCount, unsearched, List.map_nil, List.sum_nil]
  omega

inductive Ends (model : Model) (answer : Except Error Unit) : Search → Prop
  | now {search : Search} (stops : model.round search = .stopped answer) : Ends model answer search
  | later {search later : Search} (goes : model.round search = .on later)
      (rest : Ends model answer later) : Ends model answer search

theorem rounds_of_ends {answer : Except Error Unit} {search : Search}
    (ends : model.Ends answer search) {count : Nat} (enough : model.roundsLeft search < count) :
    model.rounds count search = .stopped answer := by
  induction ends generalizing count with
  | now stops =>
      obtain ⟨count, rfl⟩ := Nat.exists_eq_succ_of_ne_zero (Nat.ne_zero_of_lt enough)
      rw [rounds, stops]
  | later goes _ ih =>
      obtain ⟨count, rfl⟩ := Nat.exists_eq_succ_of_ne_zero (Nat.ne_zero_of_lt enough)
      have fewer := round_left goes
      rw [rounds, goes]
      exact ih (by omega)

end ClaimPolicy.Model
