import Mathlib.Data.List.Find
import ClaimPolicy.Proofs.NormalForm

/-!
Collections of claims as sets. A verdict depends on an authorization only through which of the
required permissions it holds, so that neither order nor repetition of what is held matters, and
nothing that is held takes away what something else holds. Whether an assertion passes depends only
on which requirements are in it; their order can only change which failing one is reported.
-/
namespace ClaimPolicy

namespace Checker

variable {checker : Checker}

theorem evaluate_congr {left right : Authorization} {assertion : Assertion}
    (alike : ∀ required ∈ assertion,
      checker.passes left required = checker.passes right required) :
    checker.evaluate left assertion = checker.evaluate right assertion := by
  have failing : assertion.find? (fun required => !checker.passes left required) =
      assertion.find? fun required => !checker.passes right required := by
    apply List.find?_congr
    intro required member
    rw [alike required member]
  rw [evaluate, evaluate, failing]

/-- Authorizations that hold the same of the required permissions get the same verdict. The reported
requirement is a canonical one, which is held exactly when the one that was given is. -/
theorem test_of_holds (legal : checker.Legal) {left right : Authorization} {assertion : Assertion}
    (leftKnown : checker.Knows left) (rightKnown : checker.Knows right)
    (requiredKnown : checker.Knows assertion)
    (alike : ∀ required ∈ assertion, checker.holds left (Requirement.permission required) =
      checker.holds right (Requirement.permission required)) :
    ∃ verdict, checker.test (.parsed left) (.parsed assertion) = .ok verdict ∧
      checker.test (.parsed right) (.parsed assertion) = .ok verdict := by
  refine ⟨_, test_known leftKnown requiredKnown, ?_⟩
  rw [test_known rightKnown requiredKnown]
  refine congrArg Except.ok (evaluate_congr ?_)
  intro keeper kept
  obtain ⟨required, member, rfl⟩ := consolidate_member legal kept
  rw [passes_held_consolidated legal, passes_held_consolidated legal, passes_canonical legal,
    passes_canonical legal, passes, passes, alike required member]

theorem holds_merge (left right : Authorization) (wanted : Permission) :
    checker.holds (Claims.merge left right) wanted =
      (checker.holds left wanted || checker.holds right wanted) :=
  List.any_append

theorem known_merge {left right : Authorization} (leftKnown : checker.Knows left)
    (rightKnown : checker.Knows right) : checker.Knows (Claims.merge left right) :=
  List.forall_mem_append.mpr ⟨leftKnown, rightKnown⟩

theorem passes_merge {left : Authorization} (right : Authorization) {required : Requirement}
    (positive : required.negated = false) (passing : checker.passes left required = true) :
    checker.passes (Claims.merge left right) required = true := by
  rw [passes, positive, Bool.bne_false] at passing ⊢
  rw [holds_merge, passing, Bool.true_or]

theorem can_single (legal : checker.Legal) {authorization : Authorization} {wanted : Permission}
    (held : checker.Knows authorization)
    (known : ∀ token ∈ wanted.tokens, checker.knows token = true) :
    checker.can (.parsed authorization) (.parsed [⟨wanted, false⟩]) =
      .ok (checker.holds authorization wanted) := by
  have required : @Knows checker .assertion [⟨wanted, false⟩] :=
    List.forall_mem_singleton.mpr known
  rw [can_known legal held required]
  simp [passes]

theorem test_granted_iff (legal : checker.Legal) {authorization : Authorization}
    {assertion : Assertion} (held : checker.Knows authorization)
    (required : checker.Knows assertion) :
    checker.test (.parsed authorization) (.parsed assertion) = .ok .granted ↔
      ∀ required ∈ assertion, checker.passes authorization required = true := by
  rw [test_known held required, Except.ok.injEq, evaluate_granted_iff]
  simp only [passes_held_consolidated legal]
  exact passes_consolidated legal authorization assertion

/-- Authorizations behave as sets. Their order makes no difference to a verdict, down to the
requirement that a denial reports; merging keeps what either side may do, and adds nothing to it for
a single requirement. Of an assertion only its members matter for whether it passes. -/
theorem claims_behave_as_sets (checker : Checker) (legal : checker.Legal)
    (left right : Authorization) (assertion : Assertion) (leftKnown : checker.Knows left)
    (rightKnown : checker.Knows right) (requiredKnown : checker.Knows assertion) :
    (∃ verdict,
      checker.test (.parsed (Claims.merge left right)) (.parsed assertion) = .ok verdict ∧
        checker.test (.parsed (Claims.merge right left)) (.parsed assertion) = .ok verdict) ∧
    (Claims.hasNegations assertion = false →
      checker.can (.parsed left) (.parsed assertion) = .ok true →
        checker.can (.parsed (Claims.merge left right)) (.parsed assertion) = .ok true) ∧
    (∀ wanted : Permission, (∀ token ∈ wanted.tokens, checker.knows token = true) →
      ∃ byLeft byRight,
        checker.can (.parsed left) (.parsed [⟨wanted, false⟩]) = .ok byLeft ∧
          checker.can (.parsed right) (.parsed [⟨wanted, false⟩]) = .ok byRight ∧
            checker.can (.parsed (Claims.merge left right)) (.parsed [⟨wanted, false⟩]) =
              .ok (byLeft || byRight)) ∧
    ∀ other : Assertion, (∀ required, required ∈ other ↔ required ∈ assertion) →
      ∃ verdict again,
        checker.test (.parsed left) (.parsed assertion) = .ok verdict ∧
          checker.test (.parsed left) (.parsed other) = .ok again ∧
            (again = .granted ↔ verdict = .granted) := by
  have bothKnown := known_merge leftKnown rightKnown
  refine ⟨?_, ?_, ?_, ?_⟩
  · apply test_of_holds legal bothKnown (known_merge rightKnown leftKnown) requiredKnown
    intro required _
    rw [holds_merge, holds_merge, Bool.or_comm]
  · intro positive granted
    have signs : ∀ required ∈ assertion, ¬ Claim.negated required = true :=
      List.any_eq_false.mp positive
    rw [can_known legal leftKnown requiredKnown, Except.ok.injEq, List.all_eq_true] at granted
    rw [can_known legal bothKnown requiredKnown, Except.ok.injEq, List.all_eq_true]
    intro required member
    have sign : Requirement.negated required = false :=
      Bool.eq_false_iff.mpr (signs required member)
    exact passes_merge right sign (granted required member)
  · intro wanted known
    refine ⟨_, _, can_single legal leftKnown known, can_single legal rightKnown known, ?_⟩
    rw [can_single legal bothKnown known, holds_merge]
  · intro other sameMembers
    have otherKnown : checker.Knows other :=
      fun claim member => requiredKnown claim ((sameMembers claim).mp member)
    have first := test_granted_iff legal leftKnown requiredKnown
    have second := test_granted_iff legal leftKnown otherKnown
    rw [test_known leftKnown requiredKnown, Except.ok.injEq] at first
    rw [test_known leftKnown otherKnown, Except.ok.injEq] at second
    refine ⟨_, _, test_known leftKnown requiredKnown, test_known leftKnown otherKnown, ?_⟩
    rw [first, second]
    exact forall_congr' fun required => imp_congr_left (sameMembers required)

end Checker

def rolesRequired : Assertion := [
  ⟨⟨.composite "R" "*", none⟩, false⟩, ⟨⟨.composite "role" "Viewer", none⟩, false⟩]

/-- A reader who may also act as root is an administrator and goes on to meet what a reader meets,
in whichever order the two authorizations come and however often the requirements are repeated. What
is forbidden to either is forbidden to both together. -/
theorem reader_keeps_roles :
    roleChecker.Legal ∧ roleChecker.Knows readerOnly ∧ roleChecker.Knows rootThenReader ∧
      roleChecker.Knows rolesRequired ∧
      roleChecker.test (.parsed (Claims.merge readerOnly rootThenReader))
        (.parsed roleProhibitions) =
        .ok (.denied ⟨⟨.composite "role" "*", none⟩, true⟩) ∧
      roleChecker.test (.parsed (Claims.merge rootThenReader readerOnly))
        (.parsed roleProhibitions) =
        .ok (.denied ⟨⟨.composite "role" "*", none⟩, true⟩) ∧
      roleChecker.can (.parsed (Claims.merge readerOnly rootThenReader)) (.parsed rolesRequired) =
        .ok true ∧
      roleChecker.can (.parsed readerOnly) (.parsed [⟨⟨.atom "admin", none⟩, false⟩]) =
        .ok false ∧
      roleChecker.can (.parsed (Claims.merge readerOnly rootThenReader))
        (.parsed [⟨⟨.atom "admin", none⟩, false⟩]) = .ok true ∧
      roleChecker.test (.parsed readerOnly) (.parsed (rolesRequired.reverse ++ rolesRequired)) =
        .ok .granted := by
  have readerKnown := reader_only_known
  have rootKnown := root_then_reader_known
  have requiredKnown : roleChecker.Knows rolesRequired := by decide +kernel
  have prohibitedKnown := role_prohibitions_known
  have adminKnown : ∀ token ∈ Permission.tokens ⟨.atom "admin", none⟩,
      roleChecker.knows token = true := by
    decide +kernel
  have allowed : roleChecker.can (.parsed readerOnly) (.parsed rolesRequired) = .ok true := by
    rw [Checker.can_known role_checker_legal readerKnown requiredKnown]
    exact congrArg Except.ok (by decide +kernel)
  have granted : roleChecker.test (.parsed readerOnly) (.parsed rolesRequired) = .ok .granted := by
    rw [Checker.test_granted_iff role_checker_legal readerKnown requiredKnown]
    decide +kernel
  obtain ⟨_, keeps, single, members⟩ :=
    Checker.claims_behave_as_sets roleChecker role_checker_legal
    readerOnly rootThenReader rolesRequired readerKnown rootKnown requiredKnown
  obtain ⟨⟨verdict, merged, swapped⟩, _⟩ := Checker.claims_behave_as_sets roleChecker
    role_checker_legal readerOnly rootThenReader roleProhibitions readerKnown rootKnown
      prohibitedKnown
  -- The reader holds what is forbidden, so the merged authorization is denied for the same reason.
  obtain ⟨same, alone, together⟩ := Checker.test_of_holds role_checker_legal readerKnown
    (Checker.known_merge readerKnown rootKnown) prohibitedKnown (by decide +kernel)
  have reported : verdict = .denied ⟨⟨.composite "role" "*", none⟩, true⟩ := by
    have first := Except.ok.inj (merged.symm.trans together)
    exact first.trans (Except.ok.inj (alone.symm.trans reader_only_denied))
  obtain ⟨byReader, byRoot, readerAsked, rootAsked, either⟩ :=
    single ⟨.atom "admin", none⟩ adminKnown
  have root :
      roleChecker.can (.parsed rootThenReader) (.parsed [⟨⟨.atom "admin", none⟩, false⟩]) =
        .ok true := by
    rw [Checker.can_single role_checker_legal rootKnown adminKnown]
    exact congrArg Except.ok (by decide +kernel)
  have reader :
      roleChecker.can (.parsed readerOnly) (.parsed [⟨⟨.atom "admin", none⟩, false⟩]) =
        .ok false := by
    have viewer : roleModel.tokenMatch (.composite "r" "Reader") (.atom "admin") = false := by
      rw [Model.token_match_of_nothing_included (by decide +kernel)]
      decide +kernel
    have all : roleModel.tokenMatch (.composite "ROLE" "*") (.atom "admin") = false := by
      decide +kernel
    rw [Checker.can_single role_checker_legal readerKnown adminKnown]
    simp [readerOnly, Checker.holds, Checker.satisfies, tokenMatch, roleChecker, viewer, all]
  have rooted : byRoot = true := Except.ok.inj (rootAsked.symm.trans root)
  rw [rooted, Bool.or_true] at either
  obtain ⟨again, repetition, tested, repeated, kept⟩ :=
    members (rolesRequired.reverse ++ rolesRequired)
    (by simp)
  have success : repetition = .granted :=
    kept.mpr (Except.ok.inj (tested.symm.trans granted))
  exact ⟨role_checker_legal, readerKnown, rootKnown, requiredKnown, reported ▸ merged,
    reported ▸ swapped, keeps (by decide) allowed, reader, either, success ▸ repeated⟩

end ClaimPolicy
