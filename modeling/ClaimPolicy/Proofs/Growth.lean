import ClaimPolicy.Proofs.Agreement
import ClaimPolicy.Proofs.Extension

/-!
A schema that grows says of its old tokens what it said before. New declarations, members and
aliases take names that were free, so that what a known token names is still the only thing that it
names. A chain of includes that starts at an old definition never leaves the old ones, since these
include what they always did. Hence every decision on claims that were valid before the growth stays
the same.
-/
namespace ClaimPolicy

/-- All that was declared is still declared, with the includes that it had. Declarations, members of
composites and aliases may be added anywhere. -/
abbrev Schema.Grows (first second : Schema) : Prop := first.KeptIn Eq second

theorem Schema.Grows.kept {first second : Schema} (grows : first.Grows second) :
    first.KeptIn (· ⊆ ·) second := by
  apply grows.mono
  rintro written _ rfl
  exact List.Subset.refl written

namespace Model

variable {model grown : Model} {schema larger : Schema}

theorem names_before_growth (filled : model.FilledFrom schema)
    (grownFilled : grown.FilledFrom larger)
    (grows : schema.Grows larger) {written target : Token} (known : model.knows written = true)
    (names : larger.Names written target) : schema.Names written target := by
  have concrete := grownFilled.names_concrete names
  rcases knows_cases known with ⟨id, found⟩ | wild
  · obtain ⟨_, _, before⟩ := filled.names_of_find (find_strict_of_claim concrete found)
    have same := grownFilled.names_unique (grows.names before) names
    exact same ▸ before
  · rw [wild] at concrete
    exact absurd concrete (by decide)

theorem includes_before_growth (resolved : schema.IncludesResolve)
    (grownFilled : grown.FilledFrom larger) (grows : schema.Grows larger) {source target : Token}
    {declared : TokenDeclaration} (declares : schema.Declares source declared)
    (step : larger.Includes source target) : schema.Includes source target := by
  obtain ⟨other, again, included, written, resolves⟩ := step
  obtain ⟨opposite, there, alike⟩ := grows.declares declares
  have same : other = opposite := grownFilled.declares_unique again there
  have before : included ∈ declared.includes := by
    rw [alike.includes, ← same]
    exact written
  obtain ⟨goal, found⟩ := resolved source declared declares included before
  have reached : goal = target := grownFilled.resolves_unique (grows.resolves found) resolves
  exact ⟨declared, declares, included, before, reached ▸ found⟩

/-- The end of a chain from an old definition is again an old definition, which carries the
induction. -/
theorem chain_before_growth (resolved : schema.IncludesResolve)
    (grownFilled : grown.FilledFrom larger) (grows : schema.Grows larger) {source target : Token}
    {declared : TokenDeclaration} (declares : schema.Declares source declared)
    (chain : Relation.TransGen larger.Includes source target) :
    Relation.TransGen schema.Includes source target ∧
      ∃ last, schema.Declares target last := by
  induction chain with
  | single step =>
      have before := includes_before_growth resolved grownFilled grows declares step
      exact ⟨.single before, before.declared⟩
  | tail _ step ih =>
      obtain ⟨walked, last, between⟩ := ih
      have before := includes_before_growth resolved grownFilled grows between step
      exact ⟨walked.tail before, before.declared⟩

section Built

variable (built : model.BuiltFrom schema) (grownBuilt : grown.BuiltFrom larger)
  (grows : schema.Grows larger)
include built grownBuilt grows

theorem token_match_before_growth (resolved : schema.IncludesResolve) {source target : Token}
    (sourceKnown : model.knows source = true) (targetKnown : model.knows target = true)
    (met : grown.tokenMatch source target = true) : model.tokenMatch source target = true := by
  have mode := case_kept built.toFilledFrom grownBuilt.toFilledFrom grows
  rw [grownBuilt.match_iff, mode, canonical_or_self_kept built grownBuilt grows sourceKnown,
    canonical_or_self_kept built grownBuilt grows targetKnown] at met
  rw [built.match_iff]
  rcases met with direct | ⟨start, reached, names, chain, met⟩
  · exact Or.inl direct
  · have spelledKnown : model.knows (model.canonicalOrSelf source) = true := by
      rw [knows_canonical_or_self built.indexed, sourceKnown]
    have before := names_before_growth built.toFilledFrom grownBuilt.toFilledFrom grows
      spelledKnown names
    obtain ⟨_, declares⟩ := before.declared
    have walked := (chain_before_growth resolved grownBuilt.toFilledFrom grows declares chain).1
    exact Or.inr ⟨start, reached, before, walked, met⟩

theorem agrees_grown (resolved : schema.IncludesResolve) :
    Checker.AgreesOn (model.knows · = true) ⟨some model⟩ ⟨some grown⟩ where
  mode := case_kept built.toFilledFrom grownBuilt.toFilledFrom grows
  known old := (knows_kept built grownBuilt grows old).trans old.symm
  spelled old := canonical_or_self_kept built grownBuilt grows old
  closed := by
    intro token old
    change model.knows (model.canonicalOrSelf token) = true
    rw [knows_canonical_or_self built.indexed, old]
  matched := by
    intro source target sourceKnown targetKnown
    change grown.tokenMatch source target = model.tokenMatch source target
    rw [Bool.eq_iff_iff]
    exact ⟨token_match_before_growth built grownBuilt grows resolved sourceKnown targetKnown,
      token_match_kept built.toResolvedFrom grownBuilt.toResolvedFrom grows.kept
        (canonical_or_self_kept built grownBuilt grows sourceKnown)
        (canonical_or_self_kept built grownBuilt grows targetKnown)⟩

end Built

end Model

namespace Schema

/-- What is valid before a schema grows is valid after it and is reduced to the same claims, and
each decision on valid inputs gives the same verdict, with the same failed requirement. -/
theorem growth_conservative (first second : Schema) (grows : first.Grows second)
    (model grown : Model) (accepted : first.build = .ok model)
    (grownAccepted : second.build = .ok grown) :
    (∀ (kind : Kind) (input : ClaimInput kind) (resolved : List (Claim kind)),
      Checker.resolve ⟨some model⟩ input = .ok resolved →
        Checker.resolve ⟨some grown⟩ input = .ok resolved) ∧
      ∀ authorization assertion held required,
        Checker.resolve ⟨some model⟩ authorization = .ok held →
          Checker.resolve ⟨some model⟩ assertion = .ok required →
            ∃ verdict, Checker.test ⟨some model⟩ authorization assertion = .ok verdict ∧
              Checker.test ⟨some grown⟩ authorization assertion = .ok verdict := by
  have agree := Model.agrees_grown (built_from accepted) (built_from grownAccepted) grows
    (legal_of_build accepted).resolved
  constructor
  · intro kind input resolved valid
    rw [agree.resolve_eq (Checker.resolved_known valid), valid]
  · intro authorization assertion held required heldValid requiredValid
    have tested : Checker.test ⟨some model⟩ authorization assertion =
        .ok (Checker.evaluate ⟨some model⟩ held required) := by
      rw [Checker.test, heldValid, requiredValid]
      rfl
    refine ⟨_, tested, ?_⟩
    rw [agree.test_eq (Checker.legal_of_built ⟨first, accepted⟩)
      (Checker.resolved_known heldValid)
      (Checker.resolved_known requiredValid), tested]

/-- The role schema with an atom in front, an alias for its own atom and a member between its
own. -/
def grownRoleSchema : Schema where
  declarations := [
    .atom ⟨"guest", [], ["role:viewer"]⟩,
    .atom ⟨"admin", ["super", "root"], ["role:editor"]⟩,
    .composite ⟨"role", ["r"],
      [⟨"editor", [], ["R:Reader"]⟩, ⟨"auditor", [], ["guest"]⟩,
       ⟨"viewer", ["reader"], []⟩]⟩]

def grownRoleModel : Model where
  case := .insensitive
  definitions := #[
    ⟨0, "guest", .atom "guest", .atom, [], [5], [], none⟩,
    ⟨1, "admin", .atom "admin", .atom, ["root", "super"], [3], [], none⟩,
    ⟨2, "role", .composite "role" "*", .composite, ["r"], [], [3, 4, 5], none⟩,
    ⟨3, "editor", .composite "role" "editor", .member, [], [5], [], some 2⟩,
    ⟨4, "auditor", .composite "role" "auditor", .member, [], [0], [], some 2⟩,
    ⟨5, "viewer", .composite "role" "viewer", .member, ["reader"], [], [], some 2⟩]
  roots := [0, 1, 2]
  index := [((none, "guest"), 0), ((none, "admin"), 1), ((none, "root"), 1), ((none, "super"), 1),
    ((none, "role"), 2), ((none, "r"), 2), ((some 2, "editor"), 3), ((some 2, "auditor"), 4),
    ((some 2, "viewer"), 5), ((some 2, "reader"), 5)]

theorem grown_role_schema_builds : grownRoleSchema.build = .ok grownRoleModel := by
  have acyclic : grownRoleModel.checkAcyclic = .ok () :=
    Model.check_acyclic_of_depth ([1, 2, 0, 1, 2, 0].getD · 0) (by decide)
  exact build_of_layout (by decide) (by decide +kernel) (by decide +kernel)
    (by decide +kernel) (by decide +kernel) acyclic

theorem role_schema_grows : roleSchema.Grows grownRoleSchema := by decide

/-- The growth moves every definition, and the denial still reports the same prohibition. -/
theorem reader_denied_after_growth : roleSchema.Grows grownRoleSchema ∧
    roleSchema.build = .ok roleModel ∧ grownRoleSchema.build = .ok grownRoleModel ∧
      Checker.test ⟨some grownRoleModel⟩ (.parsed readerOnly) (.parsed roleProhibitions) =
        .ok (.denied ⟨⟨.composite "role" "*", none⟩, true⟩) := by
  have conservative := growth_conservative roleSchema grownRoleSchema role_schema_grows roleModel
    grownRoleModel role_schema_builds grown_role_schema_builds
  have held :=
    (Checker.resolve_eq_ok_iff (.parsed readerOnly) _).mpr ⟨_, rfl, reader_only_known, rfl⟩
  have required := (Checker.resolve_eq_ok_iff (.parsed roleProhibitions) _).mpr
    ⟨_, rfl, role_prohibitions_known, rfl⟩
  obtain ⟨verdict, tested, again⟩ := conservative.2 _ _ _ _ held required
  have same : verdict = .denied ⟨⟨.composite "role" "*", none⟩, true⟩ :=
    Except.ok.inj (tested.symm.trans reader_only_denied)
  exact ⟨role_schema_grows, role_schema_builds, grown_role_schema_builds, same ▸ again⟩

end Schema

end ClaimPolicy
