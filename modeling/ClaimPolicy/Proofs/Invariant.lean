import ClaimPolicy.Proofs.ArenaReads
import ClaimPolicy.Proofs.Families
import ClaimPolicy.Proofs.TokenOrder

/-!
The invariant of built models. A built model is the arena, the tree, the index and the include graph
of its schema: definitions stand at their places, the index knows exactly their names, roots and
children mirror the parents, tokens are spelled from declared names, and includes lead without
repeats or cycles to atoms and members. So no computation on it reads outside the arena.
-/
namespace ClaimPolicy

namespace Model

structure Represents (model : Model) (schema : Schema) : Prop extends model.WellFormed where
  mode : model.case = schema.case
  size_declared : model.size = schema.size
  size_bounded : model.size ≤ maxModelTokens
  index_distinct : (model.index.map Prod.fst).Nodup
  index_iff : ∀ {level key id}, model.index.lookup (level, key) = some id ↔
    ∃ definition, model.get? id = some definition ∧ definition.parent = level ∧
      ∃ name ∈ definition.keys, model.case.fold name = key
  roots_iff : ∀ {id}, id ∈ model.roots ↔
    ∃ definition, model.get? id = some definition ∧ definition.parent = none
  roots_ordered : model.roots.Pairwise (· < ·)
  roots_declared : (model.roots.filterMap model.get?).map (fun root => (root.kind, root.name)) =
    schema.declarations.map fun declared => (declared.kind, declared.name)
  root_kinds : ∀ {id definition}, model.get? id = some definition →
    (definition.parent = none ↔ definition.kind = .atom ∨ definition.kind = .composite)
  child_iff :
    ∀ {place id}, (∃ owner, model.get? place = some owner ∧ id ∈ owner.children) ↔
    ∃ member, model.get? id = some member ∧ member.parent = some place
  family_kinds : ∀ {place id owner member}, model.get? place = some owner →
    model.get? id = some member → member.parent = some place →
      owner.kind = .composite ∧ member.kind = .member
  acyclic : model.Acyclic

variable {model : Model}

theorem root_kinds_of_indexed (indexed : model.Indexed) {id : Nat} {definition : Definition}
    (found : model.get? id = some definition) :
    definition.parent = none ↔ definition.kind = .atom ∨ definition.kind = .composite := by
  cases indexed.spelled found with
  | atom kind root => simp [kind, root]
  | composite kind root => simp [kind, root]
  | member kind place _ _ _ below => simp [kind, below]

theorem family_kinds_of_indexed (indexed : model.Indexed) {place id : Nat}
    {owner member : Definition} (ownerFound : model.get? place = some owner)
    (found : model.get? id = some member) (below : member.parent = some place) :
    owner.kind = .composite ∧ member.kind = .member := by
  obtain ⟨kind, other, otherFound, ownerKind, _⟩ := spelled_below indexed found below
  have same : other = owner := Option.some.inj (otherFound.symm.trans ownerFound)
  exact ⟨same ▸ ownerKind, kind⟩

namespace BuiltFrom

variable {schema : Schema}

theorem index_eq (built : model.BuiltFrom schema) :
    model.index = (schema.drafts.map model.definitionOf).flatMap (slotsOf schema.case) :=
  congrArg Model.index built.eq_of_drafts

theorem index_distinct (built : model.BuiltFrom schema) : (model.index.map Prod.fst).Nodup := by
  rw [built.index_eq]
  exact (filled_slots_perm model.definitions_filled).nodup_iff.mpr built.registered.distinct

theorem index_iff (built : model.BuiltFrom schema) (level : Option Nat) (key : String) (id : Nat) :
    model.index.lookup (level, key) = some id ↔
      ∃ definition, model.get? id = some definition ∧ definition.parent = level ∧
        ∃ name ∈ definition.keys, model.case.fold name = key := by
  rw [lookup_eq_some_of_nodup built.index_distinct, built.index_eq, List.mem_flatMap]
  constructor
  · intro listed
    obtain ⟨definition, member, slot⟩ := listed
    obtain ⟨draft, among, rfl⟩ := List.mem_map.mp member
    obtain ⟨name, taken, same⟩ := List.mem_map.mp slot
    cases same
    exact ⟨_, built.get_draft among, rfl, name, taken, by rw [built.mode]⟩
  · intro answered
    obtain ⟨definition, found, rfl, name, taken, rfl⟩ := answered
    obtain ⟨draft, among, rfl, rfl⟩ := built.draft_of_get found
    refine ⟨_, List.mem_map_of_mem among, List.mem_map.mpr ⟨name, taken, ?_⟩⟩
    rw [built.mode]
    rfl

theorem roots_iff (built : model.BuiltFrom schema) (id : Nat) :
    id ∈ model.roots ↔
      ∃ definition, model.get? id = some definition ∧ definition.parent = none := by
  simp only [built.roots_eq, List.mem_map, List.mem_filter, Draft.isRoot, Option.isNone_iff_eq_none]
  constructor
  · intro listed
    obtain ⟨draft, ⟨among, root⟩, rfl⟩ := listed
    exact ⟨_, built.get_draft among,
      by simp [definitionOf, Draft.definition, Draft.level, root]⟩
  · intro parentless
    obtain ⟨definition, found, root⟩ := parentless
    obtain ⟨draft, among, placed, rfl⟩ := built.draft_of_get found
    exact ⟨draft, ⟨among, by simpa [definitionOf, Draft.definition, Draft.level] using root⟩,
      placed⟩

theorem roots_ordered (built : model.BuiltFrom schema) : model.roots.Pairwise (· < ·) := by
  rw [built.roots_eq]
  have places : (schema.drafts.map Draft.id).Pairwise (· < ·) := by
    rw [Schema.drafts, Schema.lay_out_ids]
    exact List.pairwise_lt_range'
  exact places.sublist (List.filter_sublist.map _)

theorem child_iff (built : model.BuiltFrom schema) (place id : Nat) :
    (∃ owner, model.get? place = some owner ∧ id ∈ owner.children) ↔
      ∃ member, model.get? id = some member ∧ member.parent = some place := by
  constructor
  · intro listed
    obtain ⟨owner, found, child⟩ := listed
    obtain ⟨above, among, rfl, rfl⟩ := built.draft_of_get found
    obtain ⟨draft, inside, rfl, below⟩ := Schema.child_draft among child
    exact ⟨_, built.get_draft inside, below⟩
  · intro placed
    obtain ⟨member, found, below⟩ := placed
    obtain ⟨draft, among, rfl, rfl⟩ := built.draft_of_get found
    obtain ⟨_, owner, ownerFound, _⟩ := spelled_below built.indexed found below
    obtain ⟨above, ownerAmong, rfl, rfl⟩ := built.draft_of_get ownerFound
    exact ⟨_, ownerFound, (Schema.child_iff ownerAmong among).mpr below⟩

end BuiltFrom

theorem represents_of_build {schema : Schema} (accepted : schema.build = .ok model) :
    model.Represents schema := by
  have built := Schema.built_from accepted
  have wellFormed : model.WellFormed := Model.Built.well_formed ⟨schema, accepted⟩
  have fits := ((schema.build_eq_ok model).mp accepted).1
  exact { wellFormed with
    mode := built.mode
    size_declared := built.size_eq
    size_bounded := built.size_eq ▸ fits
    index_distinct := built.index_distinct
    index_iff := built.index_iff _ _ _
    roots_iff := built.roots_iff _
    roots_ordered := built.roots_ordered
    roots_declared := built.roots_map _ _ fun declared _ _ _ => by cases declared <;> rfl
    root_kinds := root_kinds_of_indexed built.indexed
    child_iff := built.child_iff _ _
    family_kinds := family_kinds_of_indexed built.indexed
    acyclic := built.acyclic }

/-- A model that is built from a schema, in particular from that of a document, represents it, and
look-up, canonical spelling, matching and export stop at no place outside the arena. -/
theorem built_model_invariant (schema : Schema) (model : Model)
    (accepted : schema.build = .ok model) :
    model.Represents schema ∧
      (∀ token mode, model.findChecked token mode = .ok (model.find token mode)) ∧
      (∀ token, model.canonicalChecked token = .ok (model.canonical token)) ∧
      (∀ source target,
        model.tokenMatchChecked source target = .ok (model.tokenMatch source target)) ∧
      model.toDocumentChecked = .ok model.toDocument := by
  have represents := represents_of_build accepted
  have wellFormed := represents.toWellFormed
  refine ⟨represents, find_checked wellFormed.toIndexed, canonical_checked wellFormed.toIndexed,
    token_match_checked wellFormed, to_document_checked wellFormed ?_ ?_⟩
  · intro id listed
    obtain ⟨_, found, _⟩ := represents.roots_iff.mp listed
    exact lt_of_get found
  · intro id definition found child listed
    obtain ⟨_, there, _⟩ := represents.child_iff.mp ⟨definition, found, listed⟩
    exact lt_of_get there

/-- An alias, read up to case, is the key of its member; the export reads every place. -/
theorem role_model_represents :
    roleSchema.build = .ok roleModel ∧ roleModel.Represents roleSchema ∧
      roleModel.index.lookup (some 1, "reader") = some 3 ∧
        roleModel.tokenMatchChecked (.atom "ROOT") (.composite "r" "Reader") = .ok true ∧
          roleModel.toDocumentChecked = .ok roleModel.toDocument := by
  obtain ⟨represents, _, _, matched, exported⟩ :=
    built_model_invariant roleSchema roleModel role_schema_builds
  refine ⟨role_schema_builds, represents, by decide +kernel, ?_, exported⟩
  have met : roleModel.tokenMatch (.atom "ROOT") (.composite "r" "Reader") = true := by
    have edits : roleModel.Includes 0 2 := ⟨by decide, by decide⟩
    have reads : roleModel.Includes 2 3 := ⟨by decide, by decide⟩
    apply (token_match_iff _ _).mpr
    refine Or.inr ⟨0, 3, _, ?_, .cons edits (.single reads), rfl, ?_⟩
    · decide +kernel
    · decide +kernel
  rw [matched, met]

end Model

end ClaimPolicy
