import ClaimPolicy.Proofs.Respelling

/-!
Export and conversion. A model is written down as the declarations that it was built from, in the
spelling of the model. These build the model again, definition by definition at its place. A
document lists atoms before composites; where the declarations were in that order, the document is
nothing but them, and converting it gives back the very model.
-/
namespace ClaimPolicy

def Declaration.atom? : Declaration → Option TokenDeclaration
  | .atom declared => some declared
  | .composite _ => none

def Declaration.composite? : Declaration → Option CompositeDeclaration
  | .atom _ => none
  | .composite declared => some declared

/-- A schema as a document: atoms first, then composites, each in their order. -/
def Schema.document (schema : Schema) : Document where
  caseSensitive := schema.case == .sensitive
  tokens := schema.declarations.filterMap Declaration.atom?
  composites := schema.declarations.filterMap Declaration.composite?

theorem Document.schema_document (document : Document) : document.toSchema.document = document := by
  have atoms : Declaration.atom? ∘ Declaration.atom = some := rfl
  have composites : Declaration.composite? ∘ Declaration.composite = some := rfl
  have noAtoms : Declaration.atom? ∘ Declaration.composite = fun _ => none := rfl
  have noComposites : Declaration.composite? ∘ Declaration.atom = fun _ => none := rfl
  cases document with
  | mk caseSensitive tokens members =>
      simp only [Document.toSchema, Schema.document, List.filterMap_append, List.filterMap_map,
        atoms, composites, noAtoms, noComposites]
      cases caseSensitive <;> simp

namespace Model

def declaration? (model : Model) (definition : Definition) : Option Declaration :=
  match definition.kind with
  | .atom => some (.atom (model.declarationOf definition))
  | .composite => some (.composite (model.compositeOf definition))
  | .member => none

def toSchema (model : Model) : Schema where
  case := model.case
  declarations := (model.roots.filterMap model.get?).filterMap model.declaration?

theorem roots_exported {Written : Type} (model : Model) (kind : DefinitionKind)
    (write : Definition → Written) (read : Declaration → Option Written)
    (agree : ∀ root, (model.declaration? root).bind read =
      if root.kind == kind then some (write root) else none) :
    (model.rootsOf kind).map write = model.toSchema.declarations.filterMap read := by
  change ((model.roots.filterMap model.get?).filter fun root => root.kind == kind).map write =
    ((model.roots.filterMap model.get?).filterMap model.declaration?).filterMap read
  generalize model.roots.filterMap model.get? = roots
  rw [← List.filterMap_eq_map, List.filterMap_filter, List.filterMap_filterMap]
  apply List.filterMap_congr
  intro root _
  exact (agree root).symm

theorem to_document_eq (model : Model) : model.toDocument = model.toSchema.document := by
  have tokens := model.roots_exported .atom model.declarationOf Declaration.atom? <| by
    intro root
    cases kind : root.kind <;> simp [declaration?, kind, Declaration.atom?]
  have members := model.roots_exported .composite model.compositeOf Declaration.composite? <| by
    intro root
    cases kind : root.kind <;> simp [declaration?, kind, Declaration.composite?]
  rw [toDocument, atoms, composites, tokens, members]
  rfl

namespace BuiltFrom

variable {model : Model} {schema : Schema}

theorem texts_of_draft (built : model.BuiltFrom schema) {draft : Draft}
    (among : draft ∈ schema.drafts) :
    (model.includesOf draft.id).filterMap model.textAt = model.respellIncludes draft.includes :=
  (Schema.unresolved_filled built.registered).texts_of_resolved built.toFilledFrom
    (built.resolution draft among)

theorem declaration_of_draft (built : model.BuiltFrom schema) {draft : Draft}
    (among : draft ∈ schema.drafts) :
    model.declarationOf (model.definitionOf draft) =
      ⟨draft.name, Name.sorted draft.aliases, model.respellIncludes draft.includes⟩ := by
  have texts : ((model.includesOf draft.id).filterMap model.get?).map
      (fun definition => definition.token.text) =
        (model.includesOf draft.id).filterMap model.textAt :=
    List.map_filterMap
  rw [← built.texts_of_draft among, ← texts]
  simp [declarationOf, includeTokens, definitionOf, Draft.definition]

theorem member_drafts_exported (built : model.BuiltFrom schema) {id next : Nat} {name : String}
    {members : List TokenDeclaration}
    (inside : CompositeDeclaration.memberDrafts id name next members ⊆ schema.drafts) :
    (CompositeDeclaration.memberDrafts id name next members).map
        (fun draft => model.declarationOf (model.definitionOf draft)) =
      members.map model.respell := by
  induction members generalizing next with
  | nil => rfl
  | cons member members ih =>
      obtain ⟨here, later⟩ := List.cons_subset.mp inside
      rw [CompositeDeclaration.memberDrafts, List.map_cons, List.map_cons, ih later,
        built.declaration_of_draft here]
      rfl

theorem composite_of_draft (built : model.BuiltFrom schema) {declared : CompositeDeclaration}
    {place : Nat} (block : (Declaration.composite declared).drafts place ⊆ schema.drafts) :
    model.compositeOf (model.definitionOf (declared.draft place)) =
      ⟨declared.name, Name.sorted declared.aliases, declared.members.map model.respell⟩ := by
  have members := (List.cons_subset.mp block).2
  have children : (model.definitionOf (declared.draft place)).children =
      (CompositeDeclaration.memberDrafts place declared.name (place + 1) declared.members).map
        Draft.id :=
    (CompositeDeclaration.member_drafts_ids _ _ _ _).symm
  rw [compositeOf, children, built.get_drafts members, List.map_map]
  congr 1
  exact built.member_drafts_exported members

theorem declarations_eq (built : model.BuiltFrom schema) :
    model.toSchema.declarations = schema.declarations.map model.respellDeclaration := by
  have exported := built.roots_map model.declaration?
    (fun declared => some (model.respellDeclaration declared)) <| by
      intro declared _ place block
      cases declared with
      | atom declared =>
          have here := built.declaration_of_draft (block List.mem_cons_self)
          exact congrArg (fun declared => some (Declaration.atom declared)) here
      | composite declared =>
          exact congrArg (fun declared => some (Declaration.composite declared))
            (built.composite_of_draft block)
  calc
    (model.roots.filterMap model.get?).filterMap model.declaration?
        = ((model.roots.filterMap model.get?).map model.declaration?).filterMap id := by
          rw [List.filterMap_map, Function.id_comp]
    _ = (schema.declarations.map fun declared => some (model.respellDeclaration declared)).filterMap
          id := by rw [exported]
    _ = schema.declarations.map model.respellDeclaration := by
          rw [List.filterMap_map, Function.id_comp, List.filterMap_eq_map']

theorem drafts_eq (built : model.BuiltFrom schema) :
    model.toSchema.drafts = schema.drafts.map model.respellDraft := by
  rw [Schema.drafts, built.declarations_eq, lay_out_respelled]
  rfl

theorem drafts_filled (built : model.BuiltFrom schema) :
    Draft.Filled model.toSchema.drafts (schema.drafts.map model.definitionOf) := by
  rw [built.drafts_eq]
  apply List.forall₂_map_left_iff.mpr
  apply List.forall₂_map_right_iff.mpr
  apply List.forall₂_same.mpr
  intro draft _
  exact ⟨_, (respell_draft_definition model draft _).symm⟩

theorem unresolved_eq (built : model.BuiltFrom schema) :
    model.toSchema.unresolved = schema.unresolved := by
  rw [Schema.unresolved, Schema.unresolved, built.drafts_eq, List.map_map]
  have same : (fun draft : Draft => draft.definition []) ∘ model.respellDraft =
      fun draft => draft.definition [] := by
    funext draft
    exact respell_draft_definition model draft []
  rw [same]
  exact congrArg (fun mode => ofDefinitions mode _) built.mode

theorem named_again (built : model.BuiltFrom schema) :
    ∀ draft ∈ model.toSchema.drafts, ∀ key ∈ draft.keys,
      Name.declarationFault? key = none := by
  intro draft among
  rw [built.drafts_eq] at among
  obtain ⟨origin, originAmong, rfl⟩ := List.mem_map.mp among
  exact built.indexed.named (built.get_draft originAmong)

/-- Respelling takes the slots of the schema, though in another order. -/
theorem distinct_again (built : model.BuiltFrom schema) :
    (model.toSchema.drafts.flatMap (Draft.slots model.toSchema.case)).Nodup := by
  change (model.toSchema.drafts.flatMap (Draft.slots model.case)).Nodup
  rw [built.mode]
  have slots : (model.toSchema.drafts.flatMap (Draft.slots schema.case)).Perm
      (schema.drafts.flatMap (Draft.slots schema.case)) :=
    (filled_slots_perm built.drafts_filled).symm.trans (filled_slots_perm model.definitions_filled)
  exact slots.nodup_iff.mpr built.registered.distinct

theorem resolved_again (built : model.BuiltFrom schema) (wellFormed : model.WellFormed)
    {draft : Draft} (among : draft ∈ schema.drafts) (owner : String) :
    schema.unresolved.resolveIncludes owner (model.respellIncludes draft.includes) =
      .ok (model.includesOf draft.id) := by
  have looked := Schema.unresolved_filled built.registered
  have found := built.get_draft among
  rw [← built.texts_of_draft among]
  apply resolve_texts
  · exact wellFormed.includes_distinct found
  · intro target listed
    obtain ⟨definition, there, concrete⟩ := wellFormed.included found listed
    obtain ⟨draft, targetAmong, rfl, rfl⟩ := built.draft_of_get there
    -- Before the includes are resolved the same draft stands at this place.
    obtain ⟨includes, lookedUp⟩ := looked.defined targetAmong
    have spelled : model.textAt draft.id = some draft.token.text :=
      (text_at_eq_some_iff _ _).mpr ⟨draft.token, ⟨_, there, rfl⟩, rfl⟩
    have resolves := resolves_text looked.indexed lookedUp concrete
    rw [Draft.definition_token] at resolves
    exact ⟨draft.token.text, spelled, resolves⟩

theorem resolve_drafts_again (built : model.BuiltFrom schema) (wellFormed : model.WellFormed)
    {drafts : List Draft} (inside : drafts ⊆ schema.drafts) :
    schema.unresolved.resolveDrafts (drafts.map model.respellDraft) =
      .ok (drafts.map model.definitionOf) := by
  induction drafts with
  | nil => rfl
  | cons draft drafts ih =>
      obtain ⟨here, later⟩ := List.cons_subset.mp inside
      have resolved := built.resolved_again wellFormed here (model.respellDraft draft).token.text
      rw [List.map_cons, resolveDrafts]
      change (schema.unresolved.resolveIncludes _ (model.respellIncludes draft.includes) >>= _) = _
      rw [resolved, ih later]
      change Except.ok ((model.respellDraft draft).definition _ :: _) = _
      rw [respell_draft_definition]
      rfl

end BuiltFrom

/-- What a built model declares builds the model again. -/
theorem to_schema_builds {model : Model} {schema : Schema} (accepted : schema.build = .ok model) :
    model.toSchema.build = .ok model := by
  have built := Schema.built_from accepted
  have wellFormed : model.WellFormed := Built.well_formed ⟨schema, accepted⟩
  have resolved : model.toSchema.unresolved.resolveDrafts model.toSchema.drafts =
      .ok (schema.drafts.map model.definitionOf) := by
    rw [built.unresolved_eq, built.drafts_eq]
    exact built.resolve_drafts_again wellFormed (List.Subset.refl _)
  have acyclic := (check_acyclic_eq_ok model).mpr built.acyclic
  refine Schema.build_of_stages ?_ built.named_again built.distinct_again resolved ?_ acyclic
  · have fits := ((schema.build_eq_ok model).mp accepted).1
    rw [← Schema.drafts_length, built.drafts_eq, List.length_map, Schema.drafts_length]
    exact fits
  · change model = ofDefinitions model.case _
    rw [built.mode]
    exact built.eq_of_drafts

def respellDocument (model : Model) (document : Document) : Document where
  caseSensitive := document.caseSensitive
  tokens := document.tokens.map model.respell
  composites := document.composites.map fun declared =>
    { declared with
      aliases := Name.sorted declared.aliases
      members := declared.members.map model.respell }

theorem to_schema_of_document {document : Document} {model : Model}
    (converted : document.build = .ok model) :
    model.toSchema = (model.respellDocument document).toSchema := by
  have built := Schema.built_from converted
  have respelled : model.toSchema =
      ⟨document.toSchema.case,
       document.toSchema.declarations.map model.respellDeclaration⟩ := by
    rw [← built.declarations_eq, ← built.mode]
    rfl
  rw [respelled]
  simp only [Document.toSchema, respellDocument, List.map_append, List.map_map]
  rfl

/-- The model of a document is exported to a document that converts to the very same model. -/
theorem document_round_trip (document : Document) (model : Model)
    (converted : document.build = .ok model) : model.toDocument.build = .ok model := by
  have schema := to_schema_of_document converted
  have same : model.toDocument.toSchema = model.toSchema := by
    rw [to_document_eq, schema, Document.schema_document]
  rw [Document.build, same]
  exact to_schema_builds converted

/-- A document whose includes are written in aliases and capitals, one of them twice. -/
def roleDocument : Document where
  tokens := [⟨"admin", ["root"], ["role:editor", "R:Editor"]⟩]
  composites :=
    [⟨"role", ["r"], [⟨"editor", [], ["R:Reader"]⟩, ⟨"viewer", ["reader"], []⟩]⟩]

theorem role_document_round_trip :
    roleDocument.build = .ok roleModel ∧ roleModel.toDocument ≠ roleDocument ∧
      roleModel.toDocument.build = .ok roleModel := by
  have resolved : roleDocument.toSchema.unresolved.resolveDrafts roleDocument.toSchema.drafts =
      .ok roleModel.definitions.toList := by
    decide +kernel
  have acyclic := (check_acyclic_eq_ok roleModel).mpr (Schema.built_from role_schema_builds).acyclic
  have converted : roleDocument.build = .ok roleModel :=
    Schema.build_of_stages (by decide) (by decide +kernel) (by decide +kernel) resolved
      (by decide +kernel) acyclic
  exact ⟨converted, by decide +kernel, document_round_trip roleDocument roleModel converted⟩

end Model

end ClaimPolicy
