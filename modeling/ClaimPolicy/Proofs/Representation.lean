import Mathlib.Data.List.Forall2
import ClaimPolicy.Proofs.Layout
import ClaimPolicy.Proofs.Registration

/-!
What holds of every model that can be built: definitions stand at their places, the index answers to
exactly the names that were declared, tokens are spelled from declared names, and includes lead to
concrete definitions only. The part without includes already holds of the model in which includes
are resolved, so it is stated on its own.
-/
namespace ClaimPolicy

def Definition.keys (definition : Definition) : List String :=
  definition.name :: definition.aliases

/-- Whether a definition is what a name means at a level. -/
def Definition.AnswersTo (definition : Definition) (mode : CaseMode) (level : Option Nat)
    (name : String) : Prop :=
  definition.parent = level ∧ ∃ key ∈ definition.keys, mode.fold key = mode.fold name

namespace Model

/-- Level and spelling of a definition of each kind. -/
inductive Spelled (model : Model) (definition : Definition) : Prop
  | atom (kind : definition.kind = .atom) (root : definition.parent = none)
      (spelling : definition.token = .atom definition.name)
  | composite (kind : definition.kind = .composite) (root : definition.parent = none)
      (spelling : definition.token = .composite definition.name Name.wildcard)
  | member (kind : definition.kind = .member) (place : Nat) (owner : Definition)
      (found : model.get? place = some owner) (ownerKind : owner.kind = .composite)
      (below : definition.parent = some place)
      (spelling : definition.token = .composite owner.name definition.name)

structure Indexed (model : Model) : Prop where
  placed : ∀ {id definition}, model.get? id = some definition → definition.id = id
  named : ∀ {id definition}, model.get? id = some definition →
    ∀ key ∈ definition.keys, Name.declarationFault? key = none
  spelled : ∀ {id definition}, model.get? id = some definition → model.Spelled definition
  lookup_iff : ∀ {level name id}, model.lookup level name = some id ↔
    ∃ definition, model.get? id = some definition ∧ definition.AnswersTo model.case level name

structure WellFormed (model : Model) : Prop extends model.Indexed where
  included : ∀ {id definition target}, model.get? id = some definition →
    target ∈ definition.includes →
      ∃ other, model.get? target = some other ∧ other.kind ≠ .composite
  includes_distinct : ∀ {id definition}, model.get? id = some definition →
    definition.includes.Nodup
  composites_include_nothing : ∀ {id definition}, model.get? id = some definition →
    definition.kind = .composite → definition.includes = []

def Built (model : Model) : Prop := ∃ schema : Schema, schema.build = .ok model

end Model

/-- Definitions that are drafts with includes filled in, draft by draft. -/
abbrev Draft.Filled (drafts : List Draft) (definitions : List Definition) : Prop :=
  List.Forall₂ (fun draft definition => ∃ includes, definition = draft.definition includes)
    drafts definitions

/-- What does not depend on the includes can be read before they are filled in. -/
theorem Draft.Filled.map_eq {drafts : List Draft} {definitions : List Definition}
    (filled : Draft.Filled drafts definitions) {Value : Type} (read : Definition → Value)
    (same : ∀ (draft : Draft) (includes : List Nat),
      read (draft.definition []) = read (draft.definition includes)) :
    (drafts.map fun draft => draft.definition []).map read = definitions.map read := by
  induction filled with
  | nil => rfl
  | cons head _ ih =>
      obtain ⟨includes, rfl⟩ := head
      rw [List.map_cons, List.map_cons, List.map_cons, ih, same]

/-- Drafts that have passed every check before the resolution of includes. -/
structure Draft.Registered (mode : CaseMode) (drafts : List Draft) : Prop where
  placed : ∀ {place : Nat} {draft : Draft}, drafts[place]? = some draft → draft.id = place
  stand : ∀ {draft : Draft}, draft ∈ drafts → draft.Stands drafts
  named : ∀ draft ∈ drafts, ∀ key ∈ draft.keys, Name.declarationFault? key = none
  distinct : (drafts.flatMap (Draft.slots mode)).Nodup

theorem forall₂_at {First Second : Type} {related : First → Second → Prop} {left : List First}
    {right : List Second} (pairs : List.Forall₂ related left right) {place : Nat}
    {second : Second} (found : right[place]? = some second) :
    ∃ first, left[place]? = some first ∧ related first second := by
  obtain ⟨length, each⟩ := List.forall₂_iff_get.mp pairs
  obtain ⟨inside, rfl⟩ := List.getElem?_eq_some_iff.mp found
  have insideLeft : place < left.length := length ▸ inside
  exact ⟨left[place], List.getElem?_eq_getElem insideLeft, each place insideLeft inside⟩

theorem forall₂_at_left {First Second : Type} {related : First → Second → Prop}
    {left : List First} {right : List Second} (pairs : List.Forall₂ related left right)
    {place : Nat} {first : First} (found : left[place]? = some first) :
    ∃ second, right[place]? = some second ∧ related first second :=
  forall₂_at pairs.flip found

theorem lookup_eq_some_of_nodup {Key Value : Type} [BEq Key] [LawfulBEq Key]
    {entries : List (Key × Value)} (distinct : (entries.map Prod.fst).Nodup) (key : Key)
    (value : Value) : entries.lookup key = some value ↔ (key, value) ∈ entries := by
  induction entries with
  | nil => simp
  | cons entry rest ih =>
      obtain ⟨first, stored⟩ := entry
      rw [List.map_cons, List.nodup_cons] at distinct
      by_cases same : key = first
      · subst same
        have elsewhere : (key, value) ∉ rest := fun member =>
          distinct.1 (List.mem_map.mpr ⟨_, member, rfl⟩)
        simp [elsewhere, eq_comm]
      · have missed : (key == first) = false := by simp [same]
        simp [List.lookup_cons, missed, ih distinct.2, same]

namespace Model

@[simp] theorem of_definitions_get (mode : CaseMode) (definitions : List Definition) (id : Nat) :
    (ofDefinitions mode definitions).get? id = definitions[id]? := by
  simp [ofDefinitions, get?]

@[simp] theorem of_definitions_case (mode : CaseMode) (definitions : List Definition) :
    (ofDefinitions mode definitions).case = mode := rfl

variable {mode : CaseMode} {drafts : List Draft} {definitions : List Definition}

theorem filled_slots_perm (filled : Draft.Filled drafts definitions) :
    ((definitions.flatMap (slotsOf mode)).map Prod.fst).Perm
      (drafts.flatMap (Draft.slots mode)) := by
  induction filled with
  | nil => exact List.Perm.refl _
  | cons head _ ih =>
      obtain ⟨includes, rfl⟩ := head
      rw [List.flatMap_cons, List.map_append, List.flatMap_cons]
      exact (slots_of_definition_perm mode _ includes).append ih

theorem mem_slots_of (mode : CaseMode) (definition : Definition) (level : Option Nat)
    (name : String) (id : Nat) :
    ((level, mode.fold name), id) ∈ slotsOf mode definition ↔
      definition.id = id ∧ definition.AnswersTo mode level name := by
  simp only [slotsOf, List.mem_map, Prod.mk.injEq, Definition.AnswersTo, Definition.keys]
  grind

/-- The index of filled drafts answers to the declared names: no slot stands in it twice, and what
stands in it for a definition carries the place of the definition. -/
theorem filled_lookup_iff (registered : Draft.Registered mode drafts)
    (filled : Draft.Filled drafts definitions) (level : Option Nat) (name : String) (id : Nat) :
    (ofDefinitions mode definitions).lookup level name = some id ↔
      ∃ definition, definitions[id]? = some definition ∧
        definition.AnswersTo mode level name := by
  have distinct : ((definitions.flatMap (slotsOf mode)).map Prod.fst).Nodup :=
    (filled_slots_perm filled).nodup_iff.mpr registered.distinct
  change (definitions.flatMap (slotsOf mode)).lookup (level, mode.fold name) = some id ↔ _
  rw [lookup_eq_some_of_nodup distinct, List.mem_flatMap]
  constructor
  · intro listed
    rcases listed with ⟨definition, member, slot⟩
    obtain ⟨placed, answers⟩ := (mem_slots_of mode definition level name id).mp slot
    obtain ⟨place, found⟩ := List.getElem?_of_mem member
    obtain ⟨draft, drafted, includes, rfl⟩ := forall₂_at filled found
    have same : id = place := placed.symm.trans (registered.placed drafted)
    exact ⟨_, same ▸ found, answers⟩
  · intro declared
    rcases declared with ⟨definition, found, answers⟩
    refine ⟨definition, List.mem_of_getElem? found, ?_⟩
    obtain ⟨draft, drafted, includes, rfl⟩ := forall₂_at filled found
    exact (mem_slots_of mode _ level name id).mpr ⟨registered.placed drafted, answers⟩

theorem filled_spelled (registered : Draft.Registered mode drafts)
    (filled : Draft.Filled drafts definitions) {draft : Draft} (among : draft ∈ drafts)
    (includes : List Nat) :
    (ofDefinitions mode definitions).Spelled (draft.definition includes) := by
  cases registered.stand among with
  | atom kind root =>
      exact .atom kind (by simp [Draft.definition, Draft.level, root])
        (by simp [Draft.definition, Draft.token, kind])
  | composite kind root =>
      exact .composite kind (by simp [Draft.definition, Draft.level, root])
        (by simp [Draft.definition, Draft.token, kind])
  | member kind owner ownerAmong ownerKind below =>
      obtain ⟨place, ownerDrafted⟩ := List.getElem?_of_mem ownerAmong
      obtain ⟨_, found, ownerIncludes, rfl⟩ := forall₂_at_left filled ownerDrafted
      have ownerPlaced := registered.placed ownerDrafted
      subst ownerPlaced
      exact .member kind owner.id (owner.definition ownerIncludes) (by simpa using found)
        ownerKind (by simp [Draft.definition, Draft.level, below])
        (by simp [Draft.definition, Draft.token, kind, below])

theorem indexed_of_filled (registered : Draft.Registered mode drafts)
    (filled : Draft.Filled drafts definitions) : (ofDefinitions mode definitions).Indexed where
  placed found := by
    rw [of_definitions_get] at found
    obtain ⟨draft, drafted, includes, rfl⟩ := forall₂_at filled found
    exact registered.placed drafted
  named found := by
    rw [of_definitions_get] at found
    obtain ⟨draft, drafted, includes, rfl⟩ := forall₂_at filled found
    intro key member
    apply registered.named draft (List.mem_of_getElem? drafted)
    have keys : (draft.name :: Name.sorted draft.aliases).Perm draft.keys :=
      (Name.sorted_perm draft.aliases).cons draft.name
    exact keys.mem_iff.mp member
  spelled found := by
    rw [of_definitions_get] at found
    obtain ⟨draft, drafted, includes, rfl⟩ := forall₂_at filled found
    exact filled_spelled registered filled (List.mem_of_getElem? drafted) includes
  lookup_iff := by
    intro level name id
    simpa using filled_lookup_iff registered filled level name id

end Model

end ClaimPolicy
