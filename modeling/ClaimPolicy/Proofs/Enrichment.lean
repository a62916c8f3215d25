import ClaimPolicy.Proofs.Extension

/-!
More includes give more permission. With the same names at every level, tokens are spelled and known
as before, and a chain of includes is still a chain. So tokens that met go on to meet, and what is
held stays held. A requirement that passed goes on to pass, and a prohibition that passes did so
before. Consolidation drops other claims when more tokens meet, so that the two decisions are
compared by the plain rule for the claims as given.
-/
namespace ClaimPolicy

/-- The same declarations under the same names, with all their includes and perhaps more. -/
structure Schema.AddsIncludes (first second : Schema) : Prop where
  kept : first.KeptIn (· ⊆ ·) second
  nothing_else : second.KeptIn (fun _ _ => True) first

namespace Checker

theorem can_iff {checker : Checker} (legal : checker.Legal) {authorization : Authorization}
    {assertion : Assertion} (held : checker.Knows authorization)
    (required : checker.Knows assertion) :
    checker.can (.parsed authorization) (.parsed assertion) = .ok true ↔
      ∀ required ∈ assertion, checker.passes authorization required = true := by
  rw [can_known legal held required, Except.ok.injEq, List.all_eq_true]

section More

variable {first second : Checker}

theorem satisfies_of_more {held wanted : Permission}
    (more : ∀ source ∈ held.tokens, ∀ target ∈ wanted.tokens,
      tokenMatch first.model source target = true → tokenMatch second.model source target = true)
    (satisfied : first.satisfies held wanted = true) : second.satisfies held wanted = true := by
  rw [satisfies_iff, Covers] at satisfied ⊢
  refine ⟨more _ List.mem_cons_self _ List.mem_cons_self satisfied.1, ?_⟩
  rcases satisfied.2 with unscoped | ⟨heldScope, wantedScope, held, wanted, met⟩
  · exact Or.inl unscoped
  · refine Or.inr ⟨heldScope, wantedScope, held, wanted, more _ ?_ _ ?_ met⟩
    · exact List.mem_cons_of_mem _ (Option.mem_toList.mpr held)
    · exact List.mem_cons_of_mem _ (Option.mem_toList.mpr wanted)

theorem holds_of_more {authorization : Authorization} {wanted : Permission}
    (more : ∀ held ∈ authorization, ∀ source ∈ Permission.tokens held,
      ∀ target ∈ wanted.tokens,
      tokenMatch first.model source target = true → tokenMatch second.model source target = true)
    (held : first.holds authorization wanted = true) :
    second.holds authorization wanted = true := by
  rw [holds_iff] at held ⊢
  obtain ⟨permission, member, satisfied⟩ := held
  exact ⟨permission, member, satisfies_of_more (more permission member) satisfied⟩

variable (more : ∀ source target, tokenMatch first.model source target = true →
  tokenMatch second.model source target = true)
include more

theorem passes_of_more {authorization : Authorization} {required : Requirement}
    (positive : required.negated = false) (passing : first.passes authorization required = true) :
    second.passes authorization required = true := by
  rw [passes, positive, Bool.bne_false] at passing ⊢
  exact holds_of_more (fun _ _ source _ target _ => more source target) passing

theorem passes_of_fewer {authorization : Authorization} {required : Requirement}
    (negative : required.negated = true) (passing : second.passes authorization required = true) :
    first.passes authorization required = true := by
  rw [passes, negative, Bool.bne_true, Bool.not_eq_true'] at passing ⊢
  cases held : first.holds authorization required.permission with
  | false => rfl
  | true =>
      rw [holds_of_more (fun _ _ source _ target _ => more source target) held] at passing
      cases passing

end More

end Checker

namespace Model

variable {model richer : Model} {schema otherSchema : Schema}

theorem token_match_enriched (resolved : model.ResolvedFrom schema)
    (richerResolved : richer.ResolvedFrom otherSchema) (adds : schema.AddsIncludes otherSchema)
    {source target : Token} (met : model.tokenMatch source target = true) :
    richer.tokenMatch source target = true := by
  have spelling := canonical_or_self_eq_of_kept resolved.toFilledFrom richerResolved.toFilledFrom
    adds.kept adds.nothing_else
  exact token_match_kept resolved richerResolved adds.kept (spelling source) (spelling target) met

end Model

namespace Schema

/-- More includes never take away a match, and leave what is known as it was. So what may be done
may still be done when the assertion only requires, and was allowed before when it only forbids. -/
theorem includes_add_permission (first second : Schema) (adds : first.AddsIncludes second)
    (model richer : Model) (accepted : first.build = .ok model)
    (richerAccepted : second.build = .ok richer) :
    (∀ source target, model.tokenMatch source target = true →
      richer.tokenMatch source target = true) ∧
    (∀ token, richer.knows token = model.knows token) ∧
    ∀ (authorization : Authorization) (assertion : Assertion),
      Checker.Knows ⟨some model⟩ authorization → Checker.Knows ⟨some model⟩ assertion →
        ((∀ required ∈ assertion, Requirement.negated required = false) →
          Checker.can ⟨some model⟩ (.parsed authorization) (.parsed assertion) = .ok true →
            Checker.can ⟨some richer⟩ (.parsed authorization) (.parsed assertion) =
              .ok true) ∧
        ((∀ required ∈ assertion, Requirement.negated required = true) →
          Checker.can ⟨some richer⟩ (.parsed authorization) (.parsed assertion) = .ok true →
            Checker.can ⟨some model⟩ (.parsed authorization) (.parsed assertion) =
              .ok true) := by
  have built := built_from accepted
  have richerBuilt := built_from richerAccepted
  have more : ∀ source target, tokenMatch (some model) source target = true →
      tokenMatch (some richer) source target = true :=
    fun _ _ => Model.token_match_enriched built.toResolvedFrom richerBuilt.toResolvedFrom adds
  have known : ∀ token, richer.knows token = model.knows token :=
    Model.knows_eq_of_kept built richerBuilt adds.kept adds.nothing_else
  refine ⟨more, known, ?_⟩
  intro authorization assertion held required
  have richerHeld : Checker.Knows ⟨some richer⟩ authorization :=
    fun claim member token inside => (known token).trans (held claim member token inside)
  have richerRequired : Checker.Knows ⟨some richer⟩ assertion :=
    fun claim member token inside => (known token).trans (required claim member token inside)
  rw [Checker.can_iff (Checker.legal_of_built ⟨first, accepted⟩) held required,
    Checker.can_iff (Checker.legal_of_built ⟨second, richerAccepted⟩) richerHeld richerRequired]
  constructor
  · intro positive passing required member
    exact Checker.passes_of_more more (positive required member) (passing required member)
  · intro negative passing required member
    exact Checker.passes_of_fewer more (negative required member) (passing required member)

/-- The role schema before its editor was given an include. -/
def plainRoleSchema : Schema where
  declarations := [
    .atom ⟨"admin", ["root"], ["role:editor"]⟩,
    .composite ⟨"role", ["r"], [⟨"editor", [], []⟩, ⟨"viewer", ["reader"], []⟩]⟩]

def plainRoleModel : Model where
  case := .insensitive
  definitions := #[
    ⟨0, "admin", .atom "admin", .atom, ["root"], [2], [], none⟩,
    ⟨1, "role", .composite "role" "*", .composite, ["r"], [], [2, 3], none⟩,
    ⟨2, "editor", .composite "role" "editor", .member, [], [], [], some 1⟩,
    ⟨3, "viewer", .composite "role" "viewer", .member, ["reader"], [], [], some 1⟩]
  roots := [0, 1]
  index := [((none, "admin"), 0), ((none, "root"), 0), ((none, "role"), 1), ((none, "r"), 1),
    ((some 1, "editor"), 2), ((some 1, "viewer"), 3), ((some 1, "reader"), 3)]

theorem plain_role_schema_builds : plainRoleSchema.build = .ok plainRoleModel := by
  have acyclic : plainRoleModel.checkAcyclic = .ok () :=
    Model.check_acyclic_of_depth ([1, 0, 0, 0].getD · 0) (by decide)
  exact build_of_layout (by decide) (by decide +kernel) (by decide +kernel)
    (by decide +kernel) (by decide +kernel) acyclic

theorem editor_gains_include : plainRoleSchema.AddsIncludes roleSchema :=
  ⟨by decide, by decide⟩

def adminOnly : Authorization := [⟨.atom "ROOT", none⟩]

def allRoles : Authorization := [⟨.composite "r" "*", none⟩]

def editorRequired : Assertion := [⟨⟨.composite "role" "Editor", none⟩, false⟩]

def editorForbidden : Assertion := [⟨⟨.composite "role" "Editor", none⟩, true⟩]

def editorOnly : Authorization := [⟨.composite "role" "editor", none⟩]

def viewerRequired : Assertion := [⟨⟨.composite "r" "reader", none⟩, false⟩]

/-- What an include allowed stays allowed, what was not forbidden with more includes was not
forbidden with fewer, and what was denied for a prohibition is denied with more. A requirement that
was denied may be granted. -/
theorem editor_required_and_forbidden : plainRoleSchema.AddsIncludes roleSchema ∧
    plainRoleSchema.build = .ok plainRoleModel ∧ roleSchema.build = .ok roleModel ∧
      Checker.can ⟨some roleModel⟩ (.parsed adminOnly) (.parsed editorRequired) = .ok true ∧
      Checker.can ⟨some plainRoleModel⟩ (.parsed allRoles) (.parsed editorForbidden) =
        .ok true ∧
      Checker.can ⟨some plainRoleModel⟩ (.parsed adminOnly) (.parsed editorForbidden) =
        .ok false ∧
      Checker.can ⟨some roleModel⟩ (.parsed adminOnly) (.parsed editorForbidden) = .ok false ∧
      Checker.can ⟨some plainRoleModel⟩ (.parsed editorOnly) (.parsed viewerRequired) =
        .ok false ∧
      Checker.can ⟨some roleModel⟩ (.parsed editorOnly) (.parsed viewerRequired) =
        .ok true := by
  have plainLegal : Checker.Legal ⟨some plainRoleModel⟩ :=
    Checker.legal_of_built ⟨_, plain_role_schema_builds⟩
  have richLegal : Checker.Legal ⟨some roleModel⟩ :=
    Checker.legal_of_built ⟨_, role_schema_builds⟩
  have edits : plainRoleModel.tokenMatch (.atom "ROOT") (.composite "role" "Editor") = true := by
    have included : plainRoleModel.Includes 0 2 := ⟨by decide, by decide⟩
    apply (Model.token_match_iff _ _).mpr
    right
    exact ⟨0, 2, _, by decide +kernel, .single included, rfl, by decide +kernel⟩
  have reads :
      roleModel.tokenMatch (.composite "role" "editor") (.composite "r" "reader") = true := by
    have included : roleModel.Includes 2 3 := ⟨by decide, by decide⟩
    apply (Model.token_match_iff _ _).mpr
    right
    exact ⟨2, 3, _, by decide +kernel, .single included, rfl, by decide +kernel⟩
  have readsNot : plainRoleModel.tokenMatch (.composite "role" "editor") (.composite "r" "reader") =
      false := by
    rw [Model.token_match_of_nothing_included (by decide +kernel)]
    decide +kernel
  obtain ⟨_, _, compared⟩ :=
    includes_add_permission _ _ editor_gains_include plainRoleModel roleModel
    plain_role_schema_builds role_schema_builds
  have allowed := (compared adminOnly editorRequired (by decide +kernel) (by decide +kernel)).1
    (by decide)
  have spared := (compared allRoles editorForbidden (by decide +kernel) (by decide +kernel)).2
    (by decide)
  have forbidden := (compared adminOnly editorForbidden (by decide +kernel) (by decide +kernel)).2
    (by decide)
  have denied :
      Checker.can ⟨some plainRoleModel⟩ (.parsed adminOnly) (.parsed editorForbidden) =
        .ok false := by
    rw [Checker.can_known plainLegal (by decide +kernel) (by decide +kernel)]
    simp [editorForbidden, adminOnly, Checker.passes, Checker.holds, Checker.satisfies, tokenMatch,
      edits]
  refine ⟨editor_gains_include, plain_role_schema_builds, role_schema_builds, allowed ?_,
    spared ?_, denied, ?_, ?_, ?_⟩
  · apply (Checker.can_iff plainLegal (by decide +kernel) (by decide +kernel)).mpr
    simp [editorRequired, adminOnly, Checker.passes, Checker.holds, Checker.satisfies, tokenMatch,
      edits]
  · apply (Checker.can_iff richLegal (by decide +kernel) (by decide +kernel)).mpr
    decide +kernel
  · have answered :
        Checker.can ⟨some roleModel⟩ (.parsed adminOnly) (.parsed editorForbidden) = _ :=
      Checker.can_known richLegal (by decide +kernel) (by decide +kernel)
    rw [answered] at forbidden ⊢
    rw [denied] at forbidden
    simpa using forbidden
  · rw [Checker.can_known plainLegal (by decide +kernel) (by decide +kernel)]
    simp [viewerRequired, editorOnly, Checker.passes, Checker.holds, Checker.satisfies, tokenMatch,
      readsNot]
  · apply (Checker.can_iff richLegal (by decide +kernel) (by decide +kernel)).mpr
    simp [viewerRequired, editorOnly, Checker.passes, Checker.holds, Checker.satisfies, tokenMatch,
      reads]

end Schema

end ClaimPolicy
