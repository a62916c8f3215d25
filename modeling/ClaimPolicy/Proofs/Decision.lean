import ClaimPolicy.Proofs.Consolidation

/-!
Decisions on claims as given. A decision is made on canonical and reduced collections, yet it is the
one that the plain rule gives for the collections themselves: what a dropped permission satisfies is
satisfied by one that is kept, and a dropped requirement follows from one that is kept, whichever
its sign.
-/
namespace ClaimPolicy

namespace Checker

variable {checker : Checker}

/-- The plain rule: some permission held covers the required one exactly when it is not negated. -/
def Respects (checker : Checker) (authorization : Authorization) (required : Requirement) : Prop :=
  (∃ held ∈ authorization, checker.Covers held required.permission) ↔ required.negated = false

def Knows (checker : Checker) {kind : Kind} (claims : List (Claim kind)) : Prop :=
  ∀ claim ∈ claims, ∀ token ∈ Claim.tokens claim, checker.knows token = true

instance (checker : Checker) {kind : Kind} (claims : List (Claim kind)) :
    Decidable (checker.Knows claims) :=
  inferInstanceAs (Decidable (∀ _ ∈ _, _))

theorem holds_iff (authorization : Authorization) (wanted : Permission) :
    checker.holds authorization wanted = true ↔
      ∃ held ∈ authorization, checker.satisfies held wanted = true :=
  List.any_eq_true

theorem passes_iff (authorization : Authorization) (required : Requirement) :
    checker.passes authorization required = true ↔ checker.Respects authorization required := by
  have plain : checker.holds authorization required.permission = true ↔
      ∃ held ∈ authorization, checker.Covers held required.permission := by
    simp only [holds_iff, satisfies_iff]
  rw [Respects, ← plain, passes, bne_iff_ne]
  cases checker.holds authorization required.permission <;> cases required.negated <;> decide

theorem evaluate_granted_iff (authorization : Authorization) (assertion : Assertion) :
    checker.evaluate authorization assertion = .granted ↔
      ∀ required ∈ assertion, checker.passes authorization required = true := by
  unfold evaluate
  split
  · next failed found =>
      have member := List.mem_of_find?_eq_some found
      have failing := List.find?_some found
      constructor
      · intro contra
        cases contra
      · intro passing
        rw [passing failed member] at failing
        exact absurd failing (by decide)
  · next nothing =>
      rw [List.find?_eq_none] at nothing
      simpa using nothing

theorem evaluate_denied {authorization : Authorization} {assertion : Assertion}
    {failed : Requirement} (denied : checker.evaluate authorization assertion = .denied failed) :
    ∃ before after, assertion = before ++ failed :: after ∧
      ¬ checker.passes authorization failed = true ∧
        ∀ required ∈ before, checker.passes authorization required = true := by
  unfold evaluate at denied
  split at denied
  · next found =>
      cases denied
      obtain ⟨failing, before, after, rfl, passing⟩ := List.find?_eq_some_iff_append.mp found
      exact ⟨before, after, rfl, by simpa using failing, by simpa using passing⟩
  · cases denied

theorem validate_known {kind : Kind} {claims : List (Claim kind)} (known : checker.Knows claims) :
    checker.validate claims = .ok (checker.consolidate claims) := by
  have nothing : claims.find? (fun claim => !claim.tokens.all checker.knows) = none := by
    rw [List.find?_eq_none]
    intro claim member
    have all : claim.tokens.all checker.knows = true := List.all_eq_true.mpr (known claim member)
    rw [all]
    decide
  rw [validate, nothing]

theorem test_known {authorization : Authorization} {assertion : Assertion}
    (held : checker.Knows authorization) (required : checker.Knows assertion) :
    checker.test (.parsed authorization) (.parsed assertion) =
      .ok (checker.evaluate (checker.consolidate authorization).claims
        (checker.consolidate assertion).claims) := by
  rw [test, resolve, resolve, validate_known held, validate_known required]
  rfl

theorem holds_consolidated (legal : checker.Legal) (authorization : Authorization)
    (wanted : Permission) :
    checker.holds (checker.consolidate authorization).claims wanted =
      checker.holds authorization wanted := by
  rw [Bool.eq_iff_iff, holds_iff, holds_iff]
  constructor
  · intro covered
    rcases covered with ⟨keeper, member, satisfied⟩
    obtain ⟨held, inside, rfl⟩ := consolidate_member legal member
    rw [canonicalize_eq_map] at satisfied
    exact ⟨held, inside, (satisfies_map_spelling legal held wanted).1 ▸ satisfied⟩
  · intro covered
    rcases covered with ⟨held, member, satisfied⟩
    obtain ⟨keeper, inside, covers⟩ := consolidate_represent legal member
    have spelled : checker.satisfies (checker.canonicalize held) wanted = true := by
      rw [canonicalize_eq_map]
      exact (satisfies_map_spelling legal held wanted).1.trans satisfied
    have above : checker.satisfies keeper (checker.canonicalize held) = true :=
      ((subsumes_iff _ _).mp covers).2.2
    exact ⟨keeper, inside, satisfies_trans legal above spelled⟩

theorem holds_canonical (legal : checker.Legal) (authorization : Authorization)
    (wanted : Permission) :
    checker.holds authorization (wanted.map checker.spelling) =
      checker.holds authorization wanted := by
  unfold holds
  congr 1
  funext held
  exact (satisfies_map_spelling legal held wanted).2

theorem passes_canonical (legal : checker.Legal) (authorization : Authorization)
    (required : Requirement) :
    checker.passes authorization (@canonicalize checker .assertion required) =
      checker.passes authorization required := by
  have same := holds_canonical legal authorization required.permission
  rw [canonicalize_eq_map, passes, passes, ← same]
  rfl

theorem holds_mono (legal : checker.Legal) {authorization : Authorization}
    {stronger weaker : Permission} (satisfied : checker.satisfies stronger weaker = true)
    (held : checker.holds authorization stronger = true) :
    checker.holds authorization weaker = true := by
  rw [holds_iff] at held ⊢
  obtain ⟨permission, member, front⟩ := held
  exact ⟨permission, member, satisfies_trans legal front satisfied⟩

theorem passes_of_subsumes (legal : checker.Legal) {authorization : Authorization}
    {keeper required : Requirement} (covers : @subsumes checker .assertion keeper required = true)
    (passing : checker.passes authorization keeper = true) :
    checker.passes authorization required = true := by
  obtain ⟨signs, _, direction⟩ := (@subsumes_iff checker .assertion keeper required).mp covers
  have sameSign : keeper.negated = required.negated := signs
  have satisfied : checker.implied required.negated keeper.permission required.permission = true :=
    direction
  rw [passes, bne_iff_ne, sameSign] at passing
  rw [passes, bne_iff_ne]
  cases negated : required.negated with
  | false =>
      rw [negated] at passing satisfied
      have held : checker.holds authorization keeper.permission = true := by simpa using passing
      rw [holds_mono legal satisfied held]
      decide
  | true =>
      -- What the narrower requirement forbids satisfies what the broader one forbids.
      rw [negated] at passing satisfied
      intro held
      exact passing (holds_mono legal satisfied held)

theorem passes_consolidated (legal : checker.Legal) (authorization : Authorization)
    (assertion : Assertion) :
    (∀ required ∈ (checker.consolidate assertion).claims,
        checker.passes authorization required = true) ↔
      ∀ required ∈ assertion, checker.passes authorization required = true := by
  constructor
  · intro passing required member
    obtain ⟨keeper, inside, covers⟩ := consolidate_represent legal member
    rw [← passes_canonical legal]
    exact passes_of_subsumes legal covers (passing keeper inside)
  · intro passing keeper member
    obtain ⟨required, inside, rfl⟩ := consolidate_member legal member
    rw [passes_canonical legal]
    exact passing required inside

theorem passes_held_consolidated (legal : checker.Legal) (authorization : Authorization)
    (required : Requirement) :
    checker.passes (checker.consolidate authorization).claims required =
      checker.passes authorization required := by
  rw [passes, passes, holds_consolidated legal]

/-- Consolidation never changes a decision: with known tokens only, a test is granted exactly when
the authorization as given respects every requirement as given, and what a denial reports is the
first consolidated requirement that it does not respect. -/
theorem decision_by_plain_rule (checker : Checker) (legal : checker.Legal)
    (authorization : Authorization) (assertion : Assertion)
    (heldKnown : checker.Knows authorization) (requiredKnown : checker.Knows assertion) :
    ∃ verdict, checker.test (.parsed authorization) (.parsed assertion) = .ok verdict ∧
      (verdict = .granted ↔
        ∀ required ∈ assertion, checker.Respects authorization required) ∧
        ∀ failed, verdict = .denied failed →
          ∃ before after, (checker.consolidate assertion).claims = before ++ failed :: after ∧
            ¬ checker.Respects authorization failed ∧
              ∀ required ∈ before, checker.Respects authorization required := by
  have tested := test_known heldKnown requiredKnown
  refine ⟨_, tested, ?_, ?_⟩
  · rw [evaluate_granted_iff]
    simp only [passes_held_consolidated legal]
    rw [passes_consolidated legal]
    simp only [passes_iff]
  · intro failed denied
    obtain ⟨before, after, parts, failing, passing⟩ := evaluate_denied denied
    simp only [passes_held_consolidated legal, passes_iff] at failing passing
    exact ⟨before, after, parts, failing, passing⟩

end Checker

def readerOnly : Authorization :=
  [⟨.composite "r" "Reader", none⟩, ⟨.composite "ROLE" "*", none⟩]

theorem reader_only_known : roleChecker.Knows readerOnly := by decide +kernel

theorem role_prohibitions_known : roleChecker.Knows roleProhibitions := by decide +kernel

theorem reader_only_denied : roleChecker.test (.parsed readerOnly) (.parsed roleProhibitions) =
    .ok (.denied ⟨⟨.composite "role" "*", none⟩, true⟩) := by
  rw [Checker.test_known reader_only_known role_prohibitions_known]
  exact congrArg Except.ok (by decide +kernel)

/-- One alias is held and all roles are forbidden: the denial reports the canonical prohibition that
made the one written first redundant. -/
theorem reader_denied_by_prohibition :
    roleChecker.Legal ∧ roleChecker.Knows readerOnly ∧ roleChecker.Knows roleProhibitions ∧
      roleChecker.test (.parsed readerOnly) (.parsed roleProhibitions) =
        .ok (.denied ⟨⟨.composite "role" "*", none⟩, true⟩) ∧
        ¬ roleChecker.Respects readerOnly ⟨⟨.composite "role" "*", none⟩, true⟩ := by
  obtain ⟨verdict, tested, _, reported⟩ := Checker.decision_by_plain_rule roleChecker
    role_checker_legal readerOnly roleProhibitions reader_only_known role_prohibitions_known
  have same : verdict = .denied ⟨⟨.composite "role" "*", none⟩, true⟩ :=
    Except.ok.inj (tested.symm.trans reader_only_denied)
  obtain ⟨_, _, _, violated, _⟩ := reported _ same
  exact ⟨role_checker_legal, reader_only_known, role_prohibitions_known, reader_only_denied,
    violated⟩

end ClaimPolicy
