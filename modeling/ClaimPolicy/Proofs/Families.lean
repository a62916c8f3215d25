import ClaimPolicy.Proofs.Acceptance

/-!
Roots and members of a built model. The model holds the drafts of its schema at their places, each
with what its written includes resolve to, and nothing else. So its roots are the declarations in
their order, and the children of a composite are exactly the definitions whose parent it is.
-/
namespace ClaimPolicy

def Declaration.name : Declaration → String
  | .atom declared => declared.name
  | .composite declared => declared.name

def Declaration.kind : Declaration → DefinitionKind
  | .atom _ => .atom
  | .composite _ => .composite

def Declaration.head (place : Nat) : Declaration → Draft
  | .atom declared => declared.draft .atom none place
  | .composite declared => declared.draft place

def Draft.isRoot (draft : Draft) : Bool := draft.parent.isNone

theorem Draft.definition_token (draft : Draft) (includes : List Nat) :
    (draft.definition includes).token = draft.token := rfl

theorem CompositeDeclaration.member_drafts_no_root (id : Nat) (name : String) (next : Nat)
    (members : List TokenDeclaration) :
    (memberDrafts id name next members).filter Draft.isRoot = [] := by
  rw [List.filter_eq_nil_iff]
  intro draft among
  obtain ⟨_, _, _, rfl⟩ := member_drafts_origin among
  simp [TokenDeclaration.draft, Draft.isRoot]

namespace Declaration

theorem drafts_roots (place : Nat) (declared : Declaration) :
    (declared.drafts place).filter Draft.isRoot = [declared.head place] := by
  cases declared with
  | atom declared => rfl
  | composite declared =>
      rw [drafts, List.filter_cons_of_pos rfl, CompositeDeclaration.member_drafts_no_root]
      rfl

theorem child_in_block {place id : Nat} {declared : Declaration} {owner : Draft}
    (among : owner ∈ declared.drafts place) (child : id ∈ owner.children) :
    ∃ draft ∈ declared.drafts place, draft.id = id ∧ draft.level = some owner.id := by
  cases declared with
  | atom declared =>
      have same := List.mem_singleton.mp among
      subst same
      exact absurd child List.not_mem_nil
  | composite declared =>
      rcases List.mem_cons.mp among with rfl | later
      · rw [← CompositeDeclaration.member_drafts_ids place declared.name] at child
        obtain ⟨draft, inside, same⟩ := List.mem_map.mp child
        obtain ⟨_, _, _, rfl⟩ := CompositeDeclaration.member_drafts_origin inside
        exact ⟨_, List.mem_cons_of_mem _ inside, same, rfl⟩
      · obtain ⟨_, _, _, rfl⟩ := CompositeDeclaration.member_drafts_origin later
        exact absurd child List.not_mem_nil

theorem owner_in_block {place above : Nat} {declared : Declaration} {draft : Draft}
    (among : draft ∈ declared.drafts place) (below : draft.level = some above) :
    ∃ owner ∈ declared.drafts place, owner.id = above ∧ draft.id ∈ owner.children := by
  cases declared with
  | atom declared =>
      have same := List.mem_singleton.mp among
      subst same
      cases below
  | composite declared =>
      rcases List.mem_cons.mp among with rfl | later
      · cases below
      · have listed : draft.id ∈ List.range' (place + 1) declared.members.length := by
          rw [← CompositeDeclaration.member_drafts_ids place declared.name]
          exact List.mem_map_of_mem later
        obtain ⟨_, _, _, rfl⟩ := CompositeDeclaration.member_drafts_origin later
        exact ⟨_, List.mem_cons_self, Option.some.inj below, listed⟩

end Declaration

namespace Schema

/-- The drafts at the root are the heads of the blocks, so that what is said of each declaration
holds of the roots in their order. -/
theorem lay_out_roots {Said : Type} (ofDraft : Draft → Said)
    (ofDeclaration : Declaration → Said) {next : Nat} {declarations : List Declaration}
    (agree : ∀ declared ∈ declarations, ∀ place,
      declared.drafts place ⊆ layOut next declarations →
        ofDraft (declared.head place) = ofDeclaration declared) :
    ((layOut next declarations).filter Draft.isRoot).map ofDraft =
      declarations.map ofDeclaration := by
  induction declarations generalizing next with
  | nil => rfl
  | cons declared rest ih =>
      have here := agree declared List.mem_cons_self next (List.subset_append_left _ _)
      have later := ih fun other listed place block =>
        agree other (List.mem_cons_of_mem _ listed) place
          (List.Subset.trans block (List.subset_append_right _ _))
      rw [layOut, List.filter_append, Declaration.drafts_roots, List.singleton_append,
        List.map_cons, List.map_cons, here, later]

variable {schema : Schema}

theorem child_draft {owner : Draft} {id : Nat} (among : owner ∈ schema.drafts)
    (child : id ∈ owner.children) :
    ∃ draft ∈ schema.drafts, draft.id = id ∧ draft.level = some owner.id := by
  obtain ⟨_, _, _, inside, block⟩ := lay_out_block_of_draft among
  obtain ⟨draft, beside, same, below⟩ := Declaration.child_in_block inside child
  exact ⟨draft, block beside, same, below⟩

theorem child_iff {owner draft : Draft} (ownerAmong : owner ∈ schema.drafts)
    (among : draft ∈ schema.drafts) :
    draft.id ∈ owner.children ↔ draft.level = some owner.id := by
  constructor
  · intro child
    obtain ⟨other, otherAmong, same, below⟩ := child_draft ownerAmong child
    rw [← draft_at_unique otherAmong among same]
    exact below
  · intro below
    obtain ⟨_, _, _, inside, block⟩ := lay_out_block_of_draft among
    obtain ⟨other, beside, same, child⟩ := Declaration.owner_in_block inside below
    rw [draft_at_unique ownerAmong (block beside) same.symm]
    exact child

end Schema

namespace Model

def definitionOf (model : Model) (draft : Draft) : Definition :=
  draft.definition (model.includesOf draft.id)

theorem definitions_filled (model : Model) {drafts : List Draft} :
    Draft.Filled drafts (drafts.map model.definitionOf) :=
  Schema.filled_by (fun draft => model.includesOf draft.id) drafts

/-- A model that was built from a schema: the drafts with their includes resolved, and no cycle. -/
structure BuiltFrom (model : Model) (schema : Schema) : Prop extends model.ResolvedFrom schema where
  registered : Draft.Registered schema.case schema.drafts
  eq_of_drafts : model = ofDefinitions schema.case (schema.drafts.map model.definitionOf)
  resolution : ∀ draft ∈ schema.drafts,
    schema.unresolved.resolveIncludes draft.token.text draft.includes =
      .ok (model.includesOf draft.id)
  acyclic : model.Acyclic

theorem resolved_definitions {schema : Schema} {definitions : List Definition}
    (resolved : schema.unresolved.resolveDrafts schema.drafts = .ok definitions) {place : Nat}
    {draft : Draft} (drafted : schema.drafts[place]? = some draft) :
    definitions[place]? = some ((ofDefinitions schema.case definitions).definitionOf draft) ∧
      schema.unresolved.resolveIncludes draft.token.text draft.includes =
        .ok ((ofDefinitions schema.case definitions).includesOf draft.id) := by
  obtain ⟨_, found, includes, here, rfl⟩ :=
    forall₂_at_left (resolve_drafts_pairs resolved) drafted
  have listed : (ofDefinitions schema.case definitions).includesOf draft.id = includes := by
    rw [schema.drafts_placed drafted, includesOf, of_definitions_get, found]
    rfl
  rw [definitionOf, listed]
  exact ⟨found, here⟩

end Model

theorem Schema.built_from {schema : Schema} {model : Model} (accepted : schema.build = .ok model) :
    model.BuiltFrom schema := by
  obtain ⟨_, ⟨taken, registration⟩, definitions, resolved, rfl, checked⟩ :=
    (schema.build_eq_ok model).mp accepted
  have registered := registered_of_register registration
  refine { resolved_from registered resolved with
    registered := registered, eq_of_drafts := ?_, resolution := ?_
    acyclic := (Model.check_acyclic_eq_ok _).mp checked }
  · congr 1
    apply List.ext_getElem?
    intro place
    rw [List.getElem?_map]
    cases drafted : schema.drafts[place]? with
    | some draft => exact (Model.resolved_definitions resolved drafted).1
    | none =>
        have lengths := (Model.resolve_drafts_pairs resolved).length_eq
        rw [List.getElem?_eq_none_iff] at drafted
        rw [List.getElem?_eq_none (lengths ▸ drafted)]
        rfl
  · intro draft among
    obtain ⟨place, drafted⟩ := List.getElem?_of_mem among
    exact (Model.resolved_definitions resolved drafted).2

namespace Model.BuiltFrom

variable {model : Model} {schema : Schema}

theorem roots_eq (built : model.BuiltFrom schema) :
    model.roots = (schema.drafts.filter Draft.isRoot).map Draft.id := by
  have parentless :
      (fun definition : Definition => definition.parent.isNone) ∘ model.definitionOf =
        Draft.isRoot := by
    funext draft
    simp [definitionOf, Draft.definition, Draft.isRoot, Draft.level]
  rw [built.eq_of_drafts]
  simp only [ofDefinitions, List.filter_map, List.map_map, parentless]
  rfl

theorem size_eq (built : model.BuiltFrom schema) : model.size = schema.size := by
  rw [built.eq_of_drafts, size, ofDefinitions, List.size_toArray, List.length_map,
    schema.drafts_length]

theorem get_draft (built : model.BuiltFrom schema) {draft : Draft}
    (among : draft ∈ schema.drafts) : model.get? draft.id = some (model.definitionOf draft) := by
  obtain ⟨includes, found⟩ := built.defined among
  rw [definitionOf, includesOf, found]
  rfl

theorem draft_of_get (built : model.BuiltFrom schema) {id : Nat} {definition : Definition}
    (found : model.get? id = some definition) :
    ∃ draft ∈ schema.drafts, draft.id = id ∧ model.definitionOf draft = definition := by
  obtain ⟨draft, among, placed, _⟩ := built.drafted found
  have here := built.get_draft among
  rw [placed, found] at here
  exact ⟨draft, among, placed, (Option.some.inj here).symm⟩

theorem get_drafts (built : model.BuiltFrom schema) {drafts : List Draft}
    (inside : drafts ⊆ schema.drafts) :
    (drafts.map Draft.id).filterMap model.get? = drafts.map model.definitionOf := by
  rw [List.filterMap_map, ← List.filterMap_eq_map]
  apply List.filterMap_congr
  intro draft member
  exact built.get_draft (inside member)

theorem roots_map (built : model.BuiltFrom schema) {Said : Type}
    (ofDefinition : Definition → Said) (ofDeclaration : Declaration → Said)
    (agree : ∀ declared ∈ schema.declarations, ∀ place,
      declared.drafts place ⊆ schema.drafts →
        ofDefinition (model.definitionOf (declared.head place)) = ofDeclaration declared) :
    (model.roots.filterMap model.get?).map ofDefinition =
      schema.declarations.map ofDeclaration := by
  rw [built.roots_eq, built.get_drafts (List.filter_subset_self _), List.map_map]
  exact Schema.lay_out_roots _ _ agree

end Model.BuiltFrom

end ClaimPolicy
