import ClaimPolicy.Proofs.Reordering
import ClaimPolicy.Proofs.RoundTrip

/-!
Export and conversion of any built model. Its document declares what the model declares, with the
atoms moved to the front, so that definitions may stand at other places in the converted model. That
model has the same document, because both models spell declarations alike, and it gives the same
answers.
-/
namespace ClaimPolicy

namespace Schema

theorem document_case (schema : Schema) : schema.document.toSchema.case = schema.case := by
  cases mode : schema.case <;> simp [document, Document.toSchema, mode]

theorem atoms_first_perm (declarations : List Declaration) :
    ((declarations.filterMap Declaration.atom?).map Declaration.atom ++
      (declarations.filterMap Declaration.composite?).map Declaration.composite).Perm
        declarations := by
  induction declarations with
  | nil => exact List.Perm.refl _
  | cons declared rest ih =>
      cases declared with
      | atom declared => exact ih.cons (Declaration.atom declared)
      | composite declared =>
          exact List.perm_middle.trans (ih.cons (Declaration.composite declared))

theorem document_reorders (schema : Schema) : schema.Reorders schema.document.toSchema :=
  ⟨schema.document_case.symm, (atoms_first_perm schema.declarations).symm⟩

end Schema

namespace Model

variable {model other : Model} {schema otherSchema : Schema}

theorem respell_includes_congr
    (same : ∀ included, other.includedToken included = model.includedToken included)
    (written : List String) : other.respellIncludes written = model.respellIncludes written := by
  induction written with
  | nil => rfl
  | cons included rest ih => simp only [respellIncludes, same, ih]

theorem respell_reordered (filled : model.FilledFrom schema)
    (otherFilled : other.FilledFrom otherSchema) (reordered : schema.Reorders otherSchema)
    (declared : Declaration) :
    other.respellDeclaration declared = model.respellDeclaration declared := by
  have named : ∀ included, other.includedToken included = model.includedToken included := by
    intro included
    apply Option.ext
    intro token
    rw [filled.included_token_iff, otherFilled.included_token_iff]
    exact ⟨reordered.symm.resolves, reordered.resolves⟩
  have spelled : other.respell = model.respell := by
    funext declared
    rw [respell, respell, respell_includes_congr named]
  cases declared with
  | atom declared => rw [respellDeclaration, respellDeclaration, spelled]
  | composite declared => rw [respellDeclaration, respellDeclaration, spelled]

theorem respell_own (built : model.BuiltFrom model.toSchema) {declared : Declaration}
    (listed : declared ∈ model.toSchema.declarations) :
    model.respellDeclaration declared = declared := by
  have fixed : model.toSchema.declarations.map id =
      model.toSchema.declarations.map model.respellDeclaration := by
    rw [List.map_id]
    exact built.declarations_eq
  exact (List.map_inj_left.mp fixed declared listed).symm

theorem to_schema_reordered (built : model.BuiltFrom model.toSchema)
    (otherBuilt : other.BuiltFrom otherSchema) (reordered : model.toSchema.Reorders otherSchema) :
    other.toSchema = otherSchema := by
  have declarations : other.toSchema.declarations = otherSchema.declarations := by
    rw [otherBuilt.declarations_eq]
    nth_rewrite 2 [← List.map_id otherSchema.declarations]
    apply List.map_congr_left
    intro declared listed
    rw [respell_reordered built.toFilledFrom otherBuilt.toFilledFrom reordered]
    exact respell_own built (reordered.declarations.mem_iff.mpr listed)
  calc
    other.toSchema = ⟨other.case, other.toSchema.declarations⟩ := rfl
    _ = ⟨otherSchema.case, otherSchema.declarations⟩ := by rw [declarations, otherBuilt.mode]
    _ = otherSchema := rfl

/-- The document of a built model converts to a model with the same document and case mode, under
which every token has the same canonical spelling and the same tokens match, whatever the order in
which atoms and composites were declared. -/
theorem reload_keeps_meaning (model : Model) (built : model.Built) :
    ∃ reloaded, model.toDocument.build = .ok reloaded ∧
      reloaded.toDocument = model.toDocument ∧ reloaded.case = model.case ∧
      (∀ token, reloaded.canonical token = model.canonical token) ∧
      ∀ source target, reloaded.tokenMatch source target = model.tokenMatch source target := by
  obtain ⟨schema, accepted⟩ := built
  have rebuilt := to_schema_builds accepted
  have original := Schema.built_from rebuilt
  have reordered := model.toSchema.document_reorders
  obtain ⟨reloaded, converted⟩ :=
    Schema.build_of_legal (reordered.legal (Schema.legal_of_build rebuilt))
  have copy := Schema.built_from converted
  rw [to_document_eq]
  refine ⟨reloaded, converted, ?_, copy.mode.trans reordered.mode.symm, ?_, ?_⟩
  · rw [to_document_eq, to_schema_reordered original copy reordered, Document.schema_document]
  · exact canonical_reordered original.toFilledFrom copy.toFilledFrom reordered
  · exact token_match_reordered original.toResolvedFrom copy.toResolvedFrom reordered

/-- The role schema with its atom last, so that its definitions stand at other places. -/
def adminLastSchema : Schema where
  declarations := roleSchema.declarations.reverse

def adminLastModel : Model where
  case := .insensitive
  definitions := #[
    ⟨0, "role", .composite "role" "*", .composite, ["r"], [], [1, 2], none⟩,
    ⟨1, "editor", .composite "role" "editor", .member, [], [2], [], some 0⟩,
    ⟨2, "viewer", .composite "role" "viewer", .member, ["reader"], [], [], some 0⟩,
    ⟨3, "admin", .atom "admin", .atom, ["root"], [1], [], none⟩]
  roots := [0, 3]
  index := [((none, "role"), 0), ((none, "r"), 0), ((some 0, "editor"), 1), ((some 0, "viewer"), 2),
    ((some 0, "reader"), 2), ((none, "admin"), 3), ((none, "root"), 3)]

theorem admin_last_builds : adminLastSchema.build = .ok adminLastModel := by
  have acyclic : adminLastModel.checkAcyclic = .ok () :=
    Model.check_acyclic_of_depth ([0, 1, 0, 2].getD · 0) (by decide)
  exact Schema.build_of_layout (by decide) (by decide +kernel) (by decide +kernel)
    (by decide +kernel) (by decide +kernel) acyclic

/-- Reloading moves the atom to the front and every definition to another place. -/
theorem admin_last_reloaded :
    adminLastModel.Built ∧ adminLastModel.toDocument.build = .ok roleModel ∧
      roleModel ≠ adminLastModel ∧ roleModel.toDocument = adminLastModel.toDocument ∧
        ∀ source target,
          roleModel.tokenMatch source target = adminLastModel.tokenMatch source target := by
  have built : adminLastModel.Built := ⟨adminLastSchema, admin_last_builds⟩
  have declared : adminLastModel.toDocument.toSchema = roleModel.toSchema := by decide +kernel
  have converted : adminLastModel.toDocument.build = .ok roleModel := by
    rw [Document.build, declared]
    exact to_schema_builds role_schema_builds
  obtain ⟨reloaded, again, exported, _, _, matched⟩ := reload_keeps_meaning adminLastModel built
  have same : roleModel = reloaded := Except.ok.inj (converted.symm.trans again)
  subst same
  exact ⟨built, converted, by decide +kernel, exported, matched⟩

end Model

end ClaimPolicy
