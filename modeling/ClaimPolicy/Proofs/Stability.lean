import ClaimPolicy.Proofs.Agreement
import ClaimPolicy.Proofs.Meaning
import ClaimPolicy.Proofs.Merging

/-!
The result of consolidation is stable. What is kept is a part of the claims in canonical spelling,
in their order, so that nothing was changed exactly when all of them are there and were spelled so
already. Spelling and reducing again change nothing, and canonical spellings stay known.
-/
namespace ClaimPolicy.Checker

variable {checker : Checker} {kind : Kind}

theorem survivors_sublist (before after : List (Claim kind)) :
    (checker.survivors before after).Sublist after := by
  induction after generalizing before with
  | nil => exact List.Sublist.slnil
  | cons first after ih =>
      rw [survivors]
      split
      · exact (ih _).cons_cons first
      · exact (ih _).cons first

theorem consolidate_sublist (legal : checker.Legal) (claims : List (Claim kind)) :
    (checker.consolidate claims).claims.Sublist (claims.map (Claim.map checker.spelling)) := by
  have canonical : @canonicalize checker kind = Claim.map checker.spelling :=
    funext checker.canonicalize_eq_map
  rw [consolidate_survivors legal, canonical]
  exact survivors_sublist _ _

theorem consolidate_idempotent (legal : checker.Legal) (claims : List (Claim kind)) :
    (checker.consolidate (checker.consolidate claims).claims).claims =
      (checker.consolidate claims).claims := by
  have nothing : (checker.consolidate ([] : List (Claim kind))).claims = [] := rfl
  have alone := consolidate_append legal claims []
  rwa [nothing, List.append_nil, List.append_nil] at alone

theorem knows_spelling (legal : checker.Legal) (token : Token) :
    checker.knows (checker.spelling token) = checker.knows token := by
  unfold spelling knows
  cases known : checker.model with
  | none => rfl
  | some model =>
      exact Model.knows_canonical_or_self (legal model known).well_formed.toIndexed token

/-- Every token that is kept is the spelling of one that was given. -/
theorem token_of_kept (legal : checker.Legal) {claims : List (Claim kind)} {keeper : Claim kind}
    (kept : keeper ∈ (checker.consolidate claims).claims) {token : Token}
    (member : token ∈ Claim.tokens keeper) :
    ∃ claim ∈ claims, ∃ given ∈ Claim.tokens claim, token = checker.spelling given := by
  obtain ⟨claim, inside, rfl⟩ := consolidate_member legal kept
  rw [canonicalize_eq_map, Claim.tokens_map] at member
  obtain ⟨given, among, rfl⟩ := List.mem_map.mp member
  exact ⟨claim, inside, given, among, rfl⟩

theorem known_consolidated (legal : checker.Legal) {claims : List (Claim kind)}
    (known : checker.Knows claims) : checker.Knows (checker.consolidate claims).claims := by
  intro keeper kept token member
  obtain ⟨claim, inside, given, among, rfl⟩ := token_of_kept legal kept member
  rw [knows_spelling legal]
  exact known claim inside given among

/-- The flag tells whether the result differs from what was given. A claim that is spelled anew and
then dropped is missed by its place, since the result is shorter. -/
theorem unchanged_iff (legal : checker.Legal) (claims : List (Claim kind)) :
    (checker.consolidate claims).changed = false ↔
      (checker.consolidate claims).claims = claims := by
  have spelled : claims.map checker.canonicalize = claims.map (Claim.map checker.spelling) :=
    List.map_congr_left fun claim _ => checker.canonicalize_eq_map claim
  have part := consolidate_sublist legal claims
  rw [← spelled] at part
  have flag : (checker.consolidate claims).changed = false ↔
      claims.map checker.canonicalize = claims ∧
        (checker.consolidate claims).claims.length =
          (claims.map checker.canonicalize).length := by
    simp only [consolidate, Bool.or_eq_false_iff, bne_eq_false_iff_eq]
  rw [flag]
  constructor
  · intro unchanged
    obtain ⟨same, counted⟩ := unchanged
    rw [part.eq_of_length counted, same]
  · intro same
    have counted : (checker.consolidate claims).claims.length =
        (claims.map checker.canonicalize).length := by
      rw [same, List.length_map]
    exact ⟨(part.eq_of_length counted).symm.trans same, counted⟩

theorem consolidate_again (legal : checker.Legal) (claims : List (Claim kind)) :
    checker.consolidate (checker.consolidate claims).claims =
      ⟨(checker.consolidate claims).claims, false⟩ := by
  have same := consolidate_idempotent legal claims
  have unchanged := (unchanged_iff legal (checker.consolidate claims).claims).mpr same
  calc checker.consolidate (checker.consolidate claims).claims
      = ⟨(checker.consolidate (checker.consolidate claims).claims).claims,
          (checker.consolidate (checker.consolidate claims).claims).changed⟩ := rfl
    _ = ⟨(checker.consolidate claims).claims, false⟩ := by rw [same, unchanged]

/-- Consolidation reports no change exactly when it gives back what it was given. Its result is
consolidated already, and the result of a validation is validated again without a change. -/
theorem consolidation_stable (checker : Checker) (legal : checker.Legal) (kind : Kind)
    (claims : List (Claim kind)) :
    ((checker.consolidate claims).changed = false ↔
      (checker.consolidate claims).claims = claims) ∧
    checker.consolidate (checker.consolidate claims).claims =
      ⟨(checker.consolidate claims).claims, false⟩ ∧
    ∀ reduced, checker.validate claims = .ok reduced →
      checker.validate reduced.claims = .ok ⟨reduced.claims, false⟩ := by
  refine ⟨unchanged_iff legal claims, consolidate_again legal claims, ?_⟩
  intro reduced validated
  obtain ⟨known, rfl⟩ := (validate_eq_ok_iff claims reduced).mp validated
  rw [validate_known (known_consolidated legal known), consolidate_again legal]

end ClaimPolicy.Checker

namespace ClaimPolicy

def viewerThenAdmin : Authorization := [
  ⟨.composite "role" "viewer", some (.atom "*")⟩, ⟨.atom "admin", none⟩]

/-- What the atom includes is dropped and the rest is spelled anew, which is a change; the second
validation finds nothing to change. -/
theorem reader_then_admin_settled :
    roleChecker.Legal ∧
      roleChecker.validate readerThenAdmin = .ok ⟨viewerThenAdmin, true⟩ ∧
      roleChecker.validate viewerThenAdmin = .ok ⟨viewerThenAdmin, false⟩ := by
  have kept : (roleChecker.consolidate readerThenAdmin).claims = viewerThenAdmin :=
    reader_then_admin_reduced
  obtain ⟨flag, _, again⟩ := Checker.consolidation_stable roleChecker role_checker_legal
    .authorization readerThenAdmin
  rw [kept] at flag
  have changed : (roleChecker.consolidate readerThenAdmin).changed = true := by
    rw [← Bool.not_eq_false, flag]
    decide
  have reduced : roleChecker.consolidate readerThenAdmin = ⟨viewerThenAdmin, true⟩ := by
    rw [← kept, ← changed]
  have validated := Checker.validate_known reader_then_admin_known
  rw [reduced] at validated
  exact ⟨role_checker_legal, validated, again _ validated⟩

end ClaimPolicy
