import Mathlib.Data.List.Pairwise
import ClaimPolicy.Proofs.Decision
import ClaimPolicy.Proofs.Matching

/-!
The reduced form of an authorization is a normal form. Known permissions that satisfy each other
have one canonical spelling, so two reduced authorizations that satisfy each other's permissions
hold the same ones. Authorizations that no assertion tells apart are of this sort, since each
permission held may itself be required.
-/
namespace ClaimPolicy

namespace Model

variable {model : Model}

theorem find_wildcard_atom (indexed : model.Indexed) (mode : LookupMode) :
    model.findId (.atom Name.wildcard) mode = none := by
  cases found : model.findId (.atom Name.wildcard) mode with
  | none => rfl
  | some id =>
      obtain ⟨definition, here, _, answers⟩ := (find_atom_iff indexed _ _ _).mp found
      exact absurd rfl (answered_not_wildcard indexed here answers)

theorem canonical_wildcard_atom (indexed : model.Indexed) :
    model.canonicalOrSelf (.atom Name.wildcard) = .atom Name.wildcard :=
  canonical_or_self_of_none (find_wildcard_atom indexed .claim)

theorem knows_cases {token : Token} (known : model.knows token = true) :
    (∃ id, model.findId token .claim = some id) ∨ token = .atom Name.wildcard := by
  rw [knows, Bool.or_eq_true] at known
  rcases known with found | wild
  · exact Or.inl (Option.isSome_iff_exists.mp found)
  · cases token with
    | atom name => exact Or.inr (by simp_all [Token.isWildcard, Token.parts])
    | composite parent child => simp [Token.isAtom] at wild

/-- Canonical forms of known tokens that are equal up to case are equal. -/
theorem canonical_eq_of_equals (indexed : model.Indexed) {left right : Token}
    (leftKnown : model.knows left = true) (rightKnown : model.knows right = true)
    (same : Token.equals model.case (model.canonicalOrSelf left) (model.canonicalOrSelf right) =
      true) : model.canonicalOrSelf left = model.canonicalOrSelf right := by
  have agree := find_congr same .claim
  rw [find_canonical_or_self indexed, find_canonical_or_self indexed] at agree
  rcases knows_cases leftKnown with ⟨id, found⟩ | leftWild
  · obtain ⟨definition, here⟩ := find_id_found indexed found
    rw [canonical_or_self_of_find found here, canonical_or_self_of_find (agree ▸ found) here]
  · rcases knows_cases rightKnown with ⟨id, found⟩ | rightWild
    · rw [leftWild, find_wildcard_atom indexed, found] at agree
      cases agree
    · rw [leftWild, rightWild]

end Model

namespace Checker

variable {model : Model}

theorem match_antisymm (built : model.Built) {left right : Token}
    (leftKnown : model.knows left = true) (rightKnown : model.knows right = true)
    (front : tokenMatch (some model) left right = true)
    (back : tokenMatch (some model) right left = true) :
    model.canonicalOrSelf left = model.canonicalOrSelf right :=
  Model.canonical_eq_of_equals built.well_formed.toIndexed leftKnown rightKnown
    (Model.token_match_antisymm built.well_formed built.acyclic front back)

theorem satisfies_antisymm (built : model.Built) {left right : Permission}
    (leftKnown : ∀ token ∈ left.tokens, model.knows token = true)
    (rightKnown : ∀ token ∈ right.tokens, model.knows token = true)
    (front : Checker.satisfies ⟨some model⟩ left right = true)
    (back : Checker.satisfies ⟨some model⟩ right left = true) :
    left.map model.canonicalOrSelf = right.map model.canonicalOrSelf := by
  rw [satisfies_iff, Covers] at front back
  obtain ⟨leftToken, leftScope⟩ := left
  obtain ⟨rightToken, rightScope⟩ := right
  simp only [Permission.tokens, List.forall_mem_cons] at leftKnown rightKnown
  have tokens := match_antisymm built leftKnown.1 rightKnown.1 front.1 back.1
  have scopes : leftScope.map model.canonicalOrSelf = rightScope.map model.canonicalOrSelf := by
    rcases front.2 with ⟨rfl, rfl⟩ | ⟨one, two, rfl, rfl, met⟩
    · rfl
    · rcases back.2 with ⟨none, _⟩ | ⟨_, _, sameTwo, sameOne, returned⟩
      · cases none
      · cases sameTwo
        cases sameOne
        exact congrArg some (match_antisymm built (leftKnown.2 one (by simp))
          (rightKnown.2 two (by simp)) met returned)
  simp only [Permission.map, tokens, scopes]

section Kept

variable {checker : Checker} {kind : Kind}

/-- Of the claims that are kept, none makes another redundant. -/
theorem kept_eq_of_subsumes (legal : checker.Legal) {claims : List (Claim kind)}
    {one other : Claim kind} (oneKept : one ∈ (checker.consolidate claims).claims)
    (otherKept : other ∈ (checker.consolidate claims).claims)
    (covers : checker.subsumes one other = true) : one = other := by
  rw [consolidate_survivors legal] at oneKept otherKept
  have symmetric : Std.Symm fun earlier later : Claim kind =>
      checker.subsumes earlier later = false ∧ checker.subsumes later earlier = false :=
    ⟨fun _ _ free => And.symm free⟩
  have apart := checker.survivors_antichain [] (claims.map checker.canonicalize)
  by_cases same : one = other
  · exact same
  · have free := (apart.forall oneKept otherKept same).1
    rw [free] at covers
    cases covers

theorem consolidate_nodup (legal : checker.Legal) (claims : List (Claim kind)) :
    (checker.consolidate claims).claims.Nodup := by
  rw [consolidate_survivors legal]
  apply (checker.survivors_antichain [] (claims.map checker.canonicalize)).imp
  intro earlier later free same
  rw [same, checker.subsumes_refl] at free
  exact absurd free.1 (by decide)

theorem can_known (legal : checker.Legal) {authorization : Authorization} {assertion : Assertion}
    (held : checker.Knows authorization) (required : checker.Knows assertion) :
    checker.can (.parsed authorization) (.parsed assertion) =
      .ok (assertion.all fun required => checker.passes authorization required) := by
  rw [can, test_known held required]
  refine congrArg Except.ok ?_
  have granted : ∀ verdict : Verdict, verdict.isGranted = true ↔ verdict = .granted := by
    intro verdict
    cases verdict <;> simp [Verdict.isGranted]
  rw [Bool.eq_iff_iff, granted, evaluate_granted_iff, List.all_eq_true]
  simp only [passes_held_consolidated legal]
  exact passes_consolidated legal authorization assertion

end Kept

variable {left right : Authorization}

theorem legal_of_built (built : model.Built) : Checker.Legal ⟨some model⟩ := by
  intro known same
  cases same
  exact built

theorem holds_self {checker : Checker} {authorization : Authorization} (held : Permission)
    (member : held ∈ authorization) : checker.holds authorization held = true :=
  (holds_iff _ _).mpr ⟨held, member, checker.satisfies_refl held⟩

theorem satisfies_canonicalize {checker : Checker} (legal : checker.Legal)
    (held wanted : Claim .authorization) :
    checker.satisfies (checker.canonicalize held) wanted = checker.satisfies held wanted ∧
      checker.satisfies held (checker.canonicalize wanted) = checker.satisfies held wanted := by
  rw [canonicalize_eq_map, canonicalize_eq_map]
  exact satisfies_map_spelling legal held wanted

theorem holds_of_alike {checker : Checker} (legal : checker.Legal) (leftKnown : checker.Knows left)
    (rightKnown : checker.Knows right)
    (alike : ∀ assertion, checker.Knows assertion →
      checker.can (.parsed left) (.parsed assertion) =
        checker.can (.parsed right) (.parsed assertion))
    {wanted : Permission} (known : ∀ token ∈ wanted.tokens, checker.knows token = true)
    (held : checker.holds left wanted = true) : checker.holds right wanted = true := by
  have wantedKnown : @Knows checker .assertion [⟨wanted, false⟩] := by
    intro claim member
    rw [List.mem_singleton] at member
    subst member
    exact known
  have answers := alike _ wantedKnown
  rw [can_known legal leftKnown wantedKnown, can_known legal rightKnown wantedKnown] at answers
  simpa [passes, held] using answers

/-- Of two authorizations that hold the same known permissions, either one keeps what the other
keeps: what the first keeps is satisfied by something that the second keeps, and that again by
something that the first keeps, which can only be what it was at the start. -/
theorem kept_of_alike (built : model.Built) (leftKnown : Checker.Knows ⟨some model⟩ left)
    (rightKnown : Checker.Knows ⟨some model⟩ right)
    (forth : ∀ held ∈ left, Checker.holds ⟨some model⟩ right held = true)
    (back : ∀ held ∈ right, Checker.holds ⟨some model⟩ left held = true)
    {keeper : Permission} (kept : keeper ∈ (Checker.consolidate ⟨some model⟩ left).claims) :
    keeper ∈ (Checker.consolidate ⟨some model⟩ right).claims := by
  have legal := legal_of_built built
  obtain ⟨held, heldMember, rfl⟩ := consolidate_member legal kept
  have rightHolds := forth held heldMember
  rw [← holds_consolidated legal, holds_iff] at rightHolds
  obtain ⟨other, otherKept, otherSatisfies⟩ := rightHolds
  obtain ⟨granted, grantedMember, rfl⟩ := consolidate_member legal otherKept
  have leftHolds := back granted grantedMember
  rw [← holds_consolidated legal, holds_iff] at leftHolds
  obtain ⟨third, thirdKept, thirdSatisfies⟩ := leftHolds
  rw [(satisfies_canonicalize legal granted held).1] at otherSatisfies
  have around :
      Checker.satisfies ⟨some model⟩ third (canonicalize ⟨some model⟩ held) = true := by
    rw [(satisfies_canonicalize legal third held).2]
    exact satisfies_trans legal thirdSatisfies otherSatisfies
  have same :=
    kept_eq_of_subsumes legal thirdKept kept ((subsumes_iff _ _).mpr ⟨rfl, rfl, around⟩)
  rw [same, (satisfies_canonicalize legal held granted).1] at thirdSatisfies
  have spelled := satisfies_antisymm built (leftKnown held heldMember)
    (rightKnown granted grantedMember) thirdSatisfies otherSatisfies
  have equal : canonicalize ⟨some model⟩ held = canonicalize ⟨some model⟩ granted := spelled
  rw [equal]
  exact otherKept

/-- Under a built model two authorizations with known tokens get the same answer for every assertion
with known tokens exactly when they keep the same claims, perhaps in another order. -/
theorem reduced_form_complete (model : Model) (built : model.Built) (left right : Authorization)
    (leftKnown : Checker.Knows ⟨some model⟩ left)
    (rightKnown : Checker.Knows ⟨some model⟩ right) :
    (∀ assertion, Checker.Knows ⟨some model⟩ assertion →
      Checker.can ⟨some model⟩ (.parsed left) (.parsed assertion) =
        Checker.can ⟨some model⟩ (.parsed right) (.parsed assertion)) ↔
      (Checker.consolidate ⟨some model⟩ left).claims.Perm
        (Checker.consolidate ⟨some model⟩ right).claims := by
  have legal := legal_of_built built
  constructor
  · intro alike
    have forth := fun held member => holds_of_alike legal leftKnown rightKnown alike
      (leftKnown held member) (holds_self held member)
    have back := fun held member => holds_of_alike legal rightKnown leftKnown
      (fun assertion known => (alike assertion known).symm) (rightKnown held member)
      (holds_self held member)
    rw [List.perm_ext_iff_of_nodup (consolidate_nodup legal left) (consolidate_nodup legal right)]
    intro keeper
    exact ⟨kept_of_alike built leftKnown rightKnown forth back,
      kept_of_alike built rightKnown leftKnown back forth⟩
  · intro same assertion known
    have holding : ∀ wanted, Checker.holds ⟨some model⟩ left wanted =
        Checker.holds ⟨some model⟩ right wanted := by
      intro wanted
      rw [← holds_consolidated legal left, ← holds_consolidated legal right]
      exact same.any_eq
    rw [can_known legal leftKnown known, can_known legal rightKnown known]
    simp only [passes, holding]

end Checker

def rootThenReader : Authorization := [
  ⟨.atom "root", none⟩, ⟨.composite "r" "Reader", some (.atom "*")⟩]

theorem root_then_reader_known : roleChecker.Knows rootThenReader := by decide +kernel

theorem root_then_reader_reduced : (roleChecker.consolidate rootThenReader).claims =
    [⟨.atom "admin", none⟩, ⟨.composite "role" "viewer", some (.atom "*")⟩] := by
  decide +kernel

def readerThenAdmin : Authorization := [
  ⟨.composite "ROLE" "viewer", some (.atom "*")⟩, ⟨.atom "Admin", none⟩,
  ⟨.composite "role" "editor", none⟩]

theorem reader_then_admin_known : roleChecker.Knows readerThenAdmin := by decide +kernel

theorem reader_then_admin_reduced : (roleChecker.consolidate readerThenAdmin).claims =
    [⟨.composite "role" "viewer", some (.atom "*")⟩, ⟨.atom "admin", none⟩] := by
  have included : roleModel.tokenMatch (.atom "admin") (.composite "role" "editor") = true := by
    have step : roleModel.Includes 0 2 := ⟨by decide, by decide⟩
    apply (Model.token_match_iff _ _).mpr
    refine Or.inr ⟨0, 2, _, ?_, .single step, rfl, ?_⟩
    · decide +kernel
    · decide +kernel
  have covers : @Checker.subsumes roleChecker .authorization ⟨.atom "admin", none⟩
      ⟨.composite "role" "editor", none⟩ = true :=
    (Checker.subsumes_iff _ _).mpr
      ⟨rfl, rfl, (Checker.satisfies_iff _ _).mpr ⟨included, Or.inl ⟨rfl, rfl⟩⟩⟩
  have spelled : (readerThenAdmin.map roleChecker.canonicalize).reverse =
      [⟨.composite "role" "editor", none⟩, ⟨.atom "admin", none⟩,
        ⟨.composite "role" "viewer", some (.atom "*")⟩] := by decide +kernel
  change roleChecker.prune (readerThenAdmin.map roleChecker.canonicalize).reverse [] = _
  rw [spelled, Checker.prune, if_pos (by simp [covers])]
  decide +kernel

/-- Aliases are spelled out, what the atom includes is dropped, and the order is another one.
Without the atom some assertion is answered differently. -/
theorem root_and_admin_alike :
    roleModel.Built ∧ roleChecker.Knows rootThenReader ∧ roleChecker.Knows readerThenAdmin ∧
      (roleChecker.consolidate rootThenReader).claims =
        [⟨.atom "admin", none⟩, ⟨.composite "role" "viewer", some (.atom "*")⟩] ∧
      (roleChecker.consolidate readerThenAdmin).claims =
        [⟨.composite "role" "viewer", some (.atom "*")⟩, ⟨.atom "admin", none⟩] ∧
      (∀ assertion, roleChecker.Knows assertion →
        roleChecker.can (.parsed rootThenReader) (.parsed assertion) =
          roleChecker.can (.parsed readerThenAdmin) (.parsed assertion)) ∧
      roleChecker.Knows readerOnly ∧
      (roleChecker.consolidate readerOnly).claims = [⟨.composite "role" "viewer", none⟩] ∧
      ∃ assertion, roleChecker.Knows assertion ∧
        roleChecker.can (.parsed rootThenReader) (.parsed assertion) ≠
          roleChecker.can (.parsed readerOnly) (.parsed assertion) := by
  have readerReduced : (roleChecker.consolidate readerOnly).claims =
      [⟨.composite "role" "viewer", none⟩] := by decide +kernel
  have same : (roleChecker.consolidate rootThenReader).claims.Perm
      (roleChecker.consolidate readerThenAdmin).claims := by
    rw [root_then_reader_reduced, reader_then_admin_reduced]
    exact List.Perm.swap _ _ _
  have different : ¬ (roleChecker.consolidate rootThenReader).claims.Perm
      (roleChecker.consolidate readerOnly).claims := by
    rw [root_then_reader_reduced, readerReduced]
    decide
  have alike := (Checker.reduced_form_complete roleModel role_model_built rootThenReader
    readerThenAdmin root_then_reader_known reader_then_admin_known).mpr same
  have told := (Checker.reduced_form_complete roleModel role_model_built rootThenReader
    readerOnly root_then_reader_known reader_only_known).not.mpr different
  simp only [not_forall] at told
  obtain ⟨assertion, known, differs⟩ := told
  exact ⟨role_model_built, root_then_reader_known, reader_then_admin_known,
    root_then_reader_reduced, reader_then_admin_reduced, alike, reader_only_known, readerReduced,
    assertion, known, differs⟩

end ClaimPolicy
