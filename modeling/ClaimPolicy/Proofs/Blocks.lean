import ClaimPolicy.Proofs.Subsumption

/-!
Consolidation block by block. Redundancy leads neither from one sign to the other nor from one
subject to another, so the loop over all claims reduces the claims of one sign, or of one subject,
as if the others were not there. Within such a block it sees nothing of a claim but its permission.
-/
namespace ClaimPolicy

theorem Token.equals_congr (mode : CaseMode) {left right : Token}
    (same : equals mode left right = true) (other : Token) :
    equals mode left other = equals mode right other := by
  rw [Bool.eq_iff_iff]
  constructor
  · exact equals_trans mode (equals_symm mode same)
  · exact equals_trans mode same

namespace Checker

/-- A block of claims that redundancy does not leave. Its claims may be seen as claims of another
kind among which redundancy is the same. -/
structure Block (checker : Checker) (kind viewed : Kind) where
  inside : Claim kind → Bool
  view : Claim kind → Claim viewed
  closed : ∀ other claim, checker.subsumes other claim = true → inside other = inside claim
  faithful : ∀ other claim, inside other = true → inside claim = true →
    checker.subsumes (view other) (view claim) = checker.subsumes other claim
  spelled : ∀ claim, view (checker.canonicalize claim) = checker.canonicalize (view claim)

namespace Block

variable {checker : Checker} {kind viewed : Kind}

def part (block : checker.Block kind viewed) (claims : List (Claim kind)) : List (Claim viewed) :=
  (claims.filter block.inside).map block.view

variable (block : checker.Block kind viewed)

theorem part_cons_inside {claim : Claim kind} (inside : block.inside claim = true)
    (claims : List (Claim kind)) :
    block.part (claim :: claims) = block.view claim :: block.part claims := by
  rw [part, List.filter_cons_of_pos inside, List.map_cons, part]

theorem part_cons_outside {claim : Claim kind} (outside : block.inside claim = false)
    (claims : List (Claim kind)) : block.part (claim :: claims) = block.part claims := by
  rw [part, List.filter_cons_of_neg (by simp [outside]), part]

theorem redundant_in_part {claim : Claim kind} (inside : block.inside claim = true)
    (claims : List (Claim kind)) :
    ((block.part claims).any fun other => checker.subsumes other (block.view claim)) =
      claims.any fun other => checker.subsumes other claim := by
  rw [part, List.any_map, List.any_filter]
  congr 1
  funext other
  rw [Function.comp_apply]
  cases beside : block.inside other with
  | true => rw [Bool.true_and, block.faithful other claim beside inside]
  | false =>
      have apart : checker.subsumes other claim = false := by
        rw [← Bool.not_eq_true]
        intro covers
        have same := block.closed other claim covers
        rw [beside, inside] at same
        cases same
      rw [Bool.false_and, apart]

/-- At each turn of the loop the claims kept so far are, within the block, those that a loop over
the block alone keeps. -/
theorem part_prune (earlier kept : List (Claim kind)) :
    block.part (checker.prune earlier kept) =
      checker.prune (block.part earlier) (block.part kept) := by
  induction earlier generalizing kept with
  | nil => rfl
  | cons claim earlier ih =>
      cases place : block.inside claim with
      | false =>
          rw [block.part_cons_outside place, prune]
          split
          · exact ih kept
          · rw [ih, block.part_cons_outside place]
      | true =>
          -- The whole list and the block decide alike whether the claim is redundant.
          have same := block.redundant_in_part place (earlier ++ kept)
          rw [part, List.filter_append, List.map_append, ← part, ← part] at same
          rw [block.part_cons_inside place, prune, prune, same]
          split
          · exact ih kept
          · rw [ih, block.part_cons_inside place]

/-- Reducing all claims reduces the block. Which claims are in it is decided in canonical
spelling. -/
theorem part_consolidate (claims : List (Claim kind)) :
    block.part (checker.consolidate claims).claims =
      (checker.consolidate ((claims.filter fun claim =>
        block.inside (checker.canonicalize claim)).map block.view)).claims := by
  have spelled : block.view ∘ checker.canonicalize = checker.canonicalize ∘ block.view :=
    funext block.spelled
  have source : block.part (claims.map checker.canonicalize) =
      ((claims.filter fun claim => block.inside (checker.canonicalize claim)).map
        block.view).map checker.canonicalize := by
    rw [part, List.filter_map, List.map_map, List.map_map, spelled]
    rfl
  have turned : block.part (claims.map checker.canonicalize).reverse =
      (block.part (claims.map checker.canonicalize)).reverse := by
    rw [part, List.filter_reverse, List.map_reverse, ← part]
  have reduced := block.part_prune (claims.map checker.canonicalize).reverse []
  rw [turned, source] at reduced
  exact reduced

end Block

variable (checker : Checker)

theorem sign_canonicalize {kind : Kind} (claim : Claim kind) :
    (checker.canonicalize claim).negated = claim.negated := by
  rw [canonicalize_eq_map, Claim.negated_map]

def required : checker.Block .assertion .authorization where
  inside claim := !Requirement.negated claim
  view := Requirement.permission
  closed other claim covers := congrArg not ((subsumes_iff other claim).mp covers).1
  faithful := by
    intro other claim otherRequired claimRequired
    have unsigned : Requirement.negated claim = false := by simpa using claimRequired
    have beside : Requirement.negated other = false := by simpa using otherRequired
    rw [Bool.eq_iff_iff, subsumes_iff, subsumes_iff]
    simp only [Claim.negated, Claim.subject, Claim.permission, sameSubject, unsigned, beside]
  spelled claim := by
    rw [canonicalize_eq_map, canonicalize_eq_map]
    rfl

def forbidden : checker.Block .assertion .assertion where
  inside := Requirement.negated
  view := id
  closed other claim covers := ((subsumes_iff other claim).mp covers).1
  faithful _ _ _ _ := rfl
  spelled _ := rfl

/-- What is delegated to one subject, spelled in any case. -/
def delegated (subject : Token) : checker.Block .grants .authorization where
  inside claim := Token.equals checker.case (Delegation.subject claim) subject
  view := Delegation.permission
  closed other claim covers :=
    Token.equals_congr checker.case ((subsumes_iff other claim).mp covers).2.1 subject
  faithful := by
    intro other claim otherSubject claimSubject
    have subjects : checker.sameSubject (Claim.subject other) (Claim.subject claim) = true :=
      Token.equals_trans _ otherSubject (Token.equals_symm _ claimSubject)
    rw [Bool.eq_iff_iff, subsumes_iff, subsumes_iff, subjects]
    simp only [Claim.negated, Claim.subject, Claim.permission, sameSubject]
  spelled claim := by
    rw [canonicalize_eq_map, canonicalize_eq_map]
    rfl

/-- Signs and subjects never interact. Of the reduced requirements those that are not negated are
the reduced permissions of those that were not, and the negated ones are the reduced negated ones.
Of the reduced delegations those to one subject, in any case, are the reduced permissions of those
whose subject was it in canonical spelling. -/
theorem blocks_reduced_apart :
    (∀ assertion : Assertion,
      ((checker.consolidate assertion).claims.filter fun claim =>
          !Requirement.negated claim).map Requirement.permission =
        (checker.consolidate ((assertion.filter fun claim =>
          !Requirement.negated claim).map Requirement.permission : Authorization)).claims ∧
      (checker.consolidate assertion).claims.filter Requirement.negated =
        (checker.consolidate (assertion.filter Requirement.negated : Assertion)).claims) ∧
    ∀ (grants : Grants) (subject : Token),
      ((checker.consolidate grants).claims.filter fun claim =>
          Token.equals checker.case (Delegation.subject claim) subject).map Delegation.permission =
        (checker.consolidate ((grants.filter fun claim =>
          Token.equals checker.case (checker.spelling (Delegation.subject claim)) subject).map
            Delegation.permission : Authorization)).claims := by
  constructor
  · intro assertion
    have signs : ∀ claim : Claim .assertion,
        Requirement.negated (checker.canonicalize claim) = Requirement.negated claim :=
      checker.sign_canonicalize
    have positive := checker.required.part_consolidate assertion
    have negative := checker.forbidden.part_consolidate assertion
    simp only [Block.part, required, forbidden, signs, List.map_id] at positive negative
    exact ⟨positive, negative⟩
  · intro grants subject
    have spelled : ∀ claim : Claim .grants, Delegation.subject (checker.canonicalize claim) =
        checker.spelling (Delegation.subject claim) := by
      intro claim
      rw [canonicalize_eq_map]
      rfl
    have shared := (checker.delegated subject).part_consolidate grants
    simp only [Block.part, delegated, spelled] at shared
    exact shared

end Checker

/-- Two spellings of one subject between claims of another, and what is left of each. -/
example :
    (roleChecker.consolidate ([
      ⟨.atom "root", ⟨.composite "r" "Reader", none⟩⟩,
      ⟨.composite "role" "*", ⟨.atom "Admin", none⟩⟩,
      ⟨.atom "ADMIN", ⟨.composite "role" "*", none⟩⟩,
      ⟨.composite "R" "*", ⟨.atom "root", none⟩⟩] : Grants)).claims = [
        ⟨.atom "admin", ⟨.composite "role" "viewer", none⟩⟩,
        ⟨.composite "role" "*", ⟨.atom "admin", none⟩⟩] := by
  decide +kernel

example :
    (roleChecker.consolidate ([
      ⟨⟨.composite "r" "Reader", none⟩, false⟩,
      ⟨⟨.composite "r" "Reader", none⟩, true⟩,
      ⟨⟨.composite "role" "*", none⟩, true⟩,
      ⟨⟨.composite "role" "*", none⟩, false⟩] : Assertion)).claims = [
        ⟨⟨.composite "role" "viewer", none⟩, false⟩,
        ⟨⟨.composite "role" "*", none⟩, true⟩] := by
  decide +kernel

end ClaimPolicy
