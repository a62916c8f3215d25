import Mathlib.Data.List.Find
import ClaimPolicy.Proofs.Decision

/-!
Checkers that agree on some tokens. Everything that a checker says about claims made of these
tokens, from validation to the verdict, depends on its model only through what the model says about
the tokens: whether they are known, how they are spelled and which of them meet which.
-/
namespace ClaimPolicy

def ClaimInput.claims {kind : Kind} : ClaimInput kind → Except Error (List (Claim kind))
  | .raw text => Claims.parse kind text
  | .parsed claims => .ok claims

def Claims.Over (inside : Token → Prop) {kind : Kind} (claims : List (Claim kind)) : Prop :=
  ∀ claim ∈ claims, ∀ token ∈ Claim.tokens claim, inside token

theorem Claim.map_congr {rename other : Token → Token} {kind : Kind} {claim : Claim kind}
    (same : ∀ token ∈ tokens claim, rename token = other token) :
    map rename claim = map other claim := by
  have inner :
      ∀ permission : Permission, (∀ token ∈ permission.tokens, rename token = other token) →
      permission.map rename = permission.map other := by
    intro permission agree
    simp only [Permission.tokens, List.forall_mem_cons] at agree
    have scopes := Option.map_congr fun token member => agree.2 token (Option.mem_toList.mpr member)
    rw [Permission.map, Permission.map, agree.1, scopes]
  simp only [tokens, List.forall_mem_append] at same
  have permissions := inner claim.permission same.2
  cases kind with
  | authorization => exact permissions
  | assertion => exact congrArg (Requirement.mk · claim.negated) permissions
  | grants =>
      have subjects := same.1 (Delegation.subject claim) (by simp [subject])
      exact congrArg₂ Delegation.mk subjects permissions

namespace Checker

theorem resolve_eq_bind (checker : Checker) {kind : Kind} (input : ClaimInput kind) :
    checker.resolve input =
      input.claims >>= fun claims => checker.validate claims >>=
        fun reduced => .ok reduced.claims := by
  cases input <;> rfl

theorem validate_eq_ok_iff {checker : Checker} {kind : Kind} (claims : List (Claim kind))
    (reduced : Reduced kind) : checker.validate claims = .ok reduced ↔
      checker.Knows claims ∧ reduced = checker.consolidate claims := by
  constructor
  · intro accepted
    unfold validate at accepted
    split at accepted
    · cases accepted
    · next nothing =>
        cases accepted
        refine ⟨?_, rfl⟩
        intro claim member
        have known := List.find?_eq_none.mp nothing claim member
        simpa using known
  · intro valid
    obtain ⟨known, rfl⟩ := valid
    exact validate_known known

theorem resolve_eq_ok_iff {checker : Checker} {kind : Kind} (input : ClaimInput kind)
    (resolved : List (Claim kind)) : checker.resolve input = .ok resolved ↔
      ∃ claims, input.claims = .ok claims ∧ checker.Knows claims ∧
        resolved = (checker.consolidate claims).claims := by
  simp only [resolve_eq_bind, bind_eq_ok, validate_eq_ok_iff, Except.ok.injEq]
  grind

theorem resolved_known {checker : Checker} {kind : Kind} {input : ClaimInput kind}
    {resolved : List (Claim kind)} (accepted : checker.resolve input = .ok resolved) :
    ∀ claims, input.claims = .ok claims → Claims.Over (checker.knows · = true) claims := by
  intro claims read
  obtain ⟨others, again, known, _⟩ := (resolve_eq_ok_iff _ _).mp accepted
  have same : others = claims := Except.ok.inj (again.symm.trans read)
  subst same
  exact known

/-- Two checkers say the same about each token of the given sort, whose canonical spellings are of
it again. -/
structure AgreesOn (inside : Token → Prop) (first second : Checker) : Prop where
  mode : second.case = first.case
  known : ∀ {token}, inside token → second.knows token = first.knows token
  spelled : ∀ {token}, inside token → second.spelling token = first.spelling token
  closed : ∀ {token}, inside token → inside (first.spelling token)
  matched : ∀ {source target}, inside source → inside target →
    tokenMatch second.model source target = tokenMatch first.model source target

namespace AgreesOn

variable {inside : Token → Prop} {first second : Checker} {kind : Kind}

theorem satisfies_eq (agree : first.AgreesOn inside second) {held wanted : Permission}
    (heldInside : ∀ token ∈ held.tokens, inside token)
    (wantedInside : ∀ token ∈ wanted.tokens, inside token) :
    second.satisfies held wanted = first.satisfies held wanted := by
  obtain ⟨heldToken, heldScope⟩ := held
  obtain ⟨wantedToken, wantedScope⟩ := wanted
  simp only [Permission.tokens, List.forall_mem_cons] at heldInside wantedInside
  have tokens := agree.matched heldInside.1 wantedInside.1
  cases heldScope with
  | none => cases wantedScope <;> simp only [satisfies, tokens]
  | some one =>
      cases wantedScope with
      | none => simp only [satisfies, tokens]
      | some other =>
          have scopes := agree.matched (heldInside.2 one (by simp)) (wantedInside.2 other (by simp))
          simp only [satisfies, tokens, scopes]

theorem permission_inside {claim : Claim kind}
    (within : ∀ token ∈ Claim.tokens claim, inside token) :
    ∀ token ∈ claim.permission.tokens, inside token :=
  fun token member => within token (List.mem_append_right _ member)

theorem subsumes_eq (agree : first.AgreesOn inside second) {other claim : Claim kind}
    (otherInside : ∀ token ∈ Claim.tokens other, inside token)
    (claimInside : ∀ token ∈ Claim.tokens claim, inside token) :
    second.subsumes other claim = first.subsumes other claim := by
  have held := permission_inside otherInside
  have wanted := permission_inside claimInside
  have subjects : second.sameSubject = first.sameSubject := by
    funext left right
    cases left <;> cases right <;> simp only [sameSubject, agree.mode]
  rw [subsumes, subsumes, subjects, agree.satisfies_eq held wanted, agree.satisfies_eq wanted held]

theorem canonicalize_eq (agree : first.AgreesOn inside second) {claim : Claim kind}
    (within : ∀ token ∈ Claim.tokens claim, inside token) :
    second.canonicalize claim = first.canonicalize claim := by
  rw [canonicalize_eq_map, canonicalize_eq_map]
  exact Claim.map_congr fun token member => agree.spelled (within token member)

theorem canonicalize_inside (agree : first.AgreesOn inside second) {claim : Claim kind}
    (within : ∀ token ∈ Claim.tokens claim, inside token) :
    ∀ token ∈ Claim.tokens (first.canonicalize claim), inside token := by
  rw [canonicalize_eq_map, Claim.tokens_map]
  intro token member
  obtain ⟨written, among, rfl⟩ := List.mem_map.mp member
  exact agree.closed (within written among)

theorem prune_eq (agree : first.AgreesOn inside second) {earlier kept : List (Claim kind)}
    (earlierInside : Claims.Over inside earlier) (keptInside : Claims.Over inside kept) :
    second.prune earlier kept = first.prune earlier kept := by
  induction earlier generalizing kept with
  | nil => rfl
  | cons claim earlier ih =>
      obtain ⟨here, rest⟩ := List.forall_mem_cons.mp earlierInside
      have others : Claims.Over inside (earlier ++ kept) :=
        List.forall_mem_append.mpr ⟨rest, keptInside⟩
      have same : ((earlier ++ kept).any fun other => second.subsumes other claim) =
          (earlier ++ kept).any fun other => first.subsumes other claim := by
        rw [Bool.eq_iff_iff, List.any_eq_true, List.any_eq_true]
        refine exists_congr fun other => and_congr_right fun place => ?_
        rw [agree.subsumes_eq (others other place) here]
      rw [prune, prune, same, ih rest keptInside,
        ih rest (List.forall_mem_cons.mpr ⟨here, keptInside⟩)]

theorem consolidate_eq (agree : first.AgreesOn inside second) {claims : List (Claim kind)}
    (within : Claims.Over inside claims) :
    second.consolidate claims = first.consolidate claims := by
  have canonical : claims.map second.canonicalize = claims.map first.canonicalize :=
    List.map_congr_left fun claim member => agree.canonicalize_eq (within claim member)
  have pruned : second.prune (claims.map first.canonicalize).reverse [] =
      first.prune (claims.map first.canonicalize).reverse [] := by
    apply agree.prune_eq _ (List.forall_mem_nil _)
    intro claim member
    obtain ⟨given, among, rfl⟩ := List.mem_map.mp (List.mem_reverse.mp member)
    exact agree.canonicalize_inside (within given among)
  simp only [consolidate, canonical, pruned]

theorem validate_eq (agree : first.AgreesOn inside second) {claims : List (Claim kind)}
    (within : Claims.Over inside claims) : second.validate claims = first.validate claims := by
  have unknown : claims.find? (fun claim => !claim.tokens.all second.knows) =
      claims.find? fun claim => !claim.tokens.all first.knows := by
    apply List.find?_congr
    intro claim member
    congr 1
    rw [Bool.eq_iff_iff, List.all_eq_true, List.all_eq_true]
    refine forall_congr' fun token => forall_congr' fun among => ?_
    rw [agree.known (within claim member token among)]
  rw [validate, validate, unknown, agree.consolidate_eq within]

theorem evaluate_eq (agree : first.AgreesOn inside second) {authorization : Authorization}
    {assertion : Assertion} (heldInside : Claims.Over inside authorization)
    (requiredInside : Claims.Over inside assertion) :
    second.evaluate authorization assertion = first.evaluate authorization assertion := by
  have failing : assertion.find? (fun required => !second.passes authorization required) =
      assertion.find? fun required => !first.passes authorization required := by
    apply List.find?_congr
    intro required member
    have wanted : ∀ token ∈ (Requirement.permission required).tokens, inside token :=
      permission_inside (requiredInside required member)
    have holding : second.holds authorization required.permission =
        first.holds authorization required.permission := by
      rw [Bool.eq_iff_iff, holds_iff, holds_iff]
      refine exists_congr fun held => and_congr_right fun place => ?_
      have offered : ∀ token ∈ Permission.tokens held, inside token :=
        permission_inside (heldInside held place)
      rw [agree.satisfies_eq offered wanted]
    rw [passes, passes, holding]
  rw [evaluate, evaluate, failing]

theorem consolidate_inside (agree : first.AgreesOn inside second) (legal : first.Legal)
    {claims : List (Claim kind)} (within : Claims.Over inside claims) :
    Claims.Over inside (first.consolidate claims).claims := by
  intro keeper kept
  obtain ⟨claim, member, rfl⟩ := consolidate_member legal kept
  exact agree.canonicalize_inside (within claim member)

theorem resolve_eq (agree : first.AgreesOn inside second) {input : ClaimInput kind}
    (within : ∀ claims, input.claims = .ok claims → Claims.Over inside claims) :
    second.resolve input = first.resolve input := by
  rw [resolve_eq_bind, resolve_eq_bind]
  cases read : input.claims with
  | error fault => rfl
  | ok claims =>
      have same := agree.validate_eq (within claims read)
      change (second.validate claims >>= _) = (first.validate claims >>= _)
      rw [same]

theorem resolve_inside (agree : first.AgreesOn inside second) (legal : first.Legal)
    {input : ClaimInput kind}
    (within : ∀ claims, input.claims = .ok claims → Claims.Over inside claims)
    {resolved : List (Claim kind)} (accepted : first.resolve input = .ok resolved) :
    Claims.Over inside resolved := by
  obtain ⟨claims, read, _, rfl⟩ := (resolve_eq_ok_iff _ _).mp accepted
  exact agree.consolidate_inside legal (within claims read)

/-- Checkers that agree on all tokens of the inputs decide alike: the same verdict or the same
error. -/
theorem test_eq (agree : first.AgreesOn inside second) (legal : first.Legal)
    {authorization : ClaimInput .authorization} {assertion : ClaimInput .assertion}
    (heldInside : ∀ claims, authorization.claims = .ok claims → Claims.Over inside claims)
    (requiredInside : ∀ claims, assertion.claims = .ok claims → Claims.Over inside claims) :
    second.test authorization assertion = first.test authorization assertion := by
  rw [test, test, agree.resolve_eq heldInside, agree.resolve_eq requiredInside]
  cases heldResolved : first.resolve authorization with
  | error fault => rfl
  | ok held =>
      cases requiredResolved : first.resolve assertion with
      | error fault => rfl
      | ok required =>
          exact congrArg Except.ok
            (agree.evaluate_eq (agree.resolve_inside legal heldInside heldResolved)
              (agree.resolve_inside legal requiredInside requiredResolved))

end AgreesOn

end Checker

end ClaimPolicy
