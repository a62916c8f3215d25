import ClaimPolicy.Checker
import ClaimPolicy.Proofs.TokenOrder

/-!
When one permission satisfies another and when one claim makes another redundant. Both are preorders
under any model that can be built, and neither changes when tokens are brought to their canonical
spelling. Redundancy never crosses signs, and for negated claims it runs against satisfaction.
-/
namespace ClaimPolicy

namespace Checker

/-- The checker has no model, or one that some declarations give. -/
def Legal (checker : Checker) : Prop := ∀ known ∈ checker.model, known.Built

/-- Holding one permission satisfies a wanted one: its token is met, and its scope if it has one. -/
def Covers (checker : Checker) (held wanted : Permission) : Prop :=
  tokenMatch checker.model held.token wanted.token = true ∧
    ((held.scope = none ∧ wanted.scope = none) ∨
      ∃ heldScope wantedScope, held.scope = some heldScope ∧ wanted.scope = some wantedScope ∧
        tokenMatch checker.model heldScope wantedScope = true)

variable {checker : Checker}

theorem satisfies_iff (held wanted : Permission) :
    checker.satisfies held wanted = true ↔ checker.Covers held wanted := by
  rw [satisfies, Covers, Bool.and_eq_true]
  cases held.scope <;> cases wanted.scope <;> simp

theorem satisfies_refl (checker : Checker) (permission : Permission) :
    checker.satisfies permission permission = true := by
  apply (satisfies_iff _ _).mpr
  constructor
  · exact match_refl _ _
  · cases permission.scope with
    | none => exact Or.inl ⟨rfl, rfl⟩
    | some scope => exact Or.inr ⟨scope, scope, rfl, rfl, match_refl _ _⟩

theorem satisfies_trans (legal : checker.Legal) {first second third : Permission}
    (front : checker.satisfies first second = true)
    (back : checker.satisfies second third = true) : checker.satisfies first third = true := by
  rw [satisfies_iff, Covers] at front back ⊢
  apply And.intro (match_trans legal front.1 back.1)
  rcases front.2 with ⟨noFirst, noSecond⟩ | ⟨one, two, firstScope, secondScope, met⟩
  · rcases back.2 with ⟨_, noThird⟩ | ⟨_, _, someScope, _⟩
    · exact Or.inl ⟨noFirst, noThird⟩
    · rw [noSecond] at someScope
      exact absurd someScope (by simp)
  · rcases back.2 with ⟨noSecond, _⟩ | ⟨again, three, sameScope, thirdScope, next⟩
    · rw [noSecond] at secondScope
      exact absurd secondScope (by simp)
    · have same : two = again := Option.some.inj (secondScope.symm.trans sameScope)
      subst same
      exact Or.inr ⟨one, three, firstScope, thirdScope, match_trans legal met next⟩

theorem satisfies_scope {held wanted : Permission}
    (satisfied : checker.satisfies held wanted = true) :
    held.scope.isSome = wanted.scope.isSome := by
  rcases ((satisfies_iff held wanted).mp satisfied).2 with
    ⟨none, absent⟩ | ⟨_, _, one, two, _⟩
  · rw [none, absent]
  · rw [one, two]
    rfl

variable {kind : Kind}

theorem same_subject_refl (checker : Checker) (claim : Claim kind) :
    checker.sameSubject claim.subject claim.subject = true := by
  cases subject : claim.subject with
  | none => rfl
  | some token => exact Token.equals_refl _ token

/-- Claims of one kind all have a subject or none of them has. -/
theorem same_subject_trans {first second third : Claim kind}
    (front : checker.sameSubject first.subject second.subject = true)
    (back : checker.sameSubject second.subject third.subject = true) :
    checker.sameSubject first.subject third.subject = true := by
  cases kind with
  | authorization => rfl
  | assertion => rfl
  | grants => exact Token.equals_trans _ front back

/-- Satisfaction in the direction in which claims of this sign make each other redundant. -/
def implied (checker : Checker) (negated : Bool) (other claim : Permission) : Bool :=
  if negated then checker.satisfies claim other else checker.satisfies other claim

theorem subsumes_iff (other claim : Claim kind) :
    checker.subsumes other claim = true ↔
      other.negated = claim.negated ∧
        checker.sameSubject other.subject claim.subject = true ∧
          checker.implied claim.negated other.permission claim.permission = true := by
  have scopes : checker.implied claim.negated other.permission claim.permission = true →
      other.permission.scope.isSome = claim.permission.scope.isSome := by
    unfold implied
    split
    · exact fun satisfied => (satisfies_scope satisfied).symm
    · exact satisfies_scope
  simp only [subsumes, Bool.and_eq_true, beq_iff_eq]
  constructor
  · intro parts
    rcases parts with ⟨⟨⟨signs, _⟩, subjects⟩, satisfied⟩
    exact ⟨signs, subjects, satisfied⟩
  · intro parts
    rcases parts with ⟨signs, subjects, satisfied⟩
    exact ⟨⟨⟨signs, scopes satisfied⟩, subjects⟩, satisfied⟩

theorem implied_refl (checker : Checker) (negated : Bool) (claim : Permission) :
    checker.implied negated claim claim = true := by
  cases negated <;> exact checker.satisfies_refl claim

theorem implied_trans (legal : checker.Legal) {negated : Bool} {first second third : Permission}
    (front : checker.implied negated first second = true)
    (back : checker.implied negated second third = true) :
    checker.implied negated first third = true := by
  cases negated with
  | false => exact satisfies_trans legal front back
  | true => exact satisfies_trans legal back front

theorem subsumes_refl (checker : Checker) (claim : Claim kind) :
    checker.subsumes claim claim = true :=
  (subsumes_iff claim claim).mpr
    ⟨rfl, checker.same_subject_refl claim, checker.implied_refl _ claim.permission⟩

theorem subsumes_trans (legal : checker.Legal) {first second third : Claim kind}
    (front : checker.subsumes first second = true)
    (back : checker.subsumes second third = true) : checker.subsumes first third = true := by
  rw [subsumes_iff] at front back ⊢
  obtain ⟨frontSign, frontSubject, frontImplied⟩ := front
  obtain ⟨backSign, backSubject, backImplied⟩ := back
  rw [backSign] at frontImplied
  exact ⟨frontSign.trans backSign, same_subject_trans frontSubject backSubject,
    implied_trans legal frontImplied backImplied⟩

/-- The spelling that canonicalizing a claim gives each of its tokens. -/
def spelling (checker : Checker) : Token → Token :=
  match checker.model with
  | some model => model.canonicalOrSelf
  | none => id

theorem canonicalize_eq_map (checker : Checker) (claim : Claim kind) :
    checker.canonicalize claim = Claim.map checker.spelling claim := by
  unfold canonicalize spelling
  cases checker.model with
  | some model => rfl
  | none =>
      have unchanged : ∀ permission : Permission, permission.map id = permission := by
        intro permission
        simp [Permission.map]
      cases kind with
      | authorization => exact (unchanged claim).symm
      | assertion => simp [Claim.map, unchanged]
      | grants => simp [Claim.map, unchanged]

theorem match_spelling (legal : checker.Legal) (source target : Token) :
    tokenMatch checker.model (checker.spelling source) target =
        tokenMatch checker.model source target ∧
      tokenMatch checker.model source (checker.spelling target) =
        tokenMatch checker.model source target := by
  unfold spelling
  cases known : checker.model with
  | none => exact ⟨rfl, rfl⟩
  | some model =>
      exact Model.token_match_canonical (legal model known).well_formed.toIndexed source target

theorem satisfies_map_spelling (legal : checker.Legal) (held wanted : Permission) :
    checker.satisfies (held.map checker.spelling) wanted = checker.satisfies held wanted ∧
      checker.satisfies held (wanted.map checker.spelling) = checker.satisfies held wanted := by
  have same := match_spelling legal
  simp only [satisfies, Permission.map]
  constructor
  · rw [(same held.token wanted.token).1]
    cases held.scope <;> cases wanted.scope <;> simp [same]
  · rw [(same held.token wanted.token).2]
    cases held.scope <;> cases wanted.scope <;> simp [same]

end Checker

def roleChecker : Checker := ⟨some roleModel⟩

theorem role_checker_legal : roleChecker.Legal := by
  intro known same
  cases same
  exact role_model_built

end ClaimPolicy
