import ClaimPolicy.Proofs.NormalForm

/-!
Consolidation in pieces. A claim that does not stay may be taken out beforehand: whatever it makes
redundant is redundant without it, by the claim that drives it out. So any part of a collection may
be reduced on its own before the rest is put beside it, and the same claims survive in the same
order.
-/
namespace ClaimPolicy

theorem Claim.map_map (outer inner : Token → Token) {kind : Kind} (claim : Claim kind) :
    Claim.map outer (Claim.map inner claim) = Claim.map (outer ∘ inner) claim := by
  cases kind <;> simp [Claim.map, Permission.map]

namespace Checker

variable {checker : Checker} {kind : Kind}

/-- A claim that stays is not made redundant by one that is driven out over it. -/
theorem not_subsumed_by_leaving (legal : checker.Legal) {before after : List (Claim kind)}
    {claim first : Claim kind}
    (leaves : ¬ checker.staysBetween before claim (first :: after) = true)
    (stays : checker.staysBetween before first after = true) :
    checker.subsumes claim first = false := by
  rw [← Bool.not_eq_true]
  intro covers
  obtain ⟨free, both⟩ := (stays_between_iff _ _ _).mp stays
  rcases not_stays_between leaves with ⟨other, early, above⟩ | ⟨other, place, above, strict⟩
  · have reached := subsumes_trans legal above covers
    rw [free other early] at reached
    cases reached
  · rcases List.mem_cons.mp place with rfl | later
    · rw [covers] at strict
      cases strict
    · have back := both other later (subsumes_trans legal above covers)
      rw [subsumes_trans legal covers back] at strict
      cases strict

/-- A claim that is driven out may be forgotten by the claims after it. The wide list of earlier
claims makes redundant what the narrow one does and what the claim does. -/
theorem survivors_without (legal : checker.Legal) {narrow wide after : List (Claim kind)}
    {claim : Claim kind}
    (extra : ∀ other, (∃ earlier ∈ wide, checker.subsumes earlier other = true) ↔
      (∃ earlier ∈ narrow, checker.subsumes earlier other = true) ∨
        checker.subsumes claim other = true)
    (leaves : ¬ checker.staysBetween narrow claim after = true) :
    checker.survivors wide after = checker.survivors narrow after := by
  induction after generalizing narrow wide with
  | nil => rfl
  | cons first after ih =>
      have further : ∀ other,
          (∃ earlier ∈ wide ++ [first], checker.subsumes earlier other = true) ↔
            (∃ earlier ∈ narrow ++ [first], checker.subsumes earlier other = true) ∨
              checker.subsumes claim other = true := by
        intro other
        have here := extra other
        simp only [List.mem_append, List.mem_singleton, or_and_right, exists_or, exists_eq_left]
        grind
      have stillLeaves : ¬ checker.staysBetween (narrow ++ [first]) claim after = true := by
        rw [stays_between_iff] at leaves ⊢
        grind
      have same : checker.staysBetween wide first after =
          checker.staysBetween narrow first after := by
        have driven : checker.staysBetween narrow first after = true →
            checker.subsumes claim first = false :=
          not_subsumed_by_leaving legal leaves
        have here := extra first
        rw [Bool.eq_iff_iff]
        simp only [stays_between_iff] at driven ⊢
        grind
      rw [survivors, survivors, same, ih further stillLeaves]

/-- Nor does a claim before it see the difference. If the claim that is driven out makes the earlier
one redundant, so does what drives it out, and that the earlier one can only answer. -/
theorem stays_between_drop (legal : checker.Legal) {before front back : List (Claim kind)}
    {first claim : Claim kind}
    (leaves : ¬ checker.staysBetween (before ++ first :: front) claim back = true) :
    checker.staysBetween before first (front ++ claim :: back) =
      checker.staysBetween before first (front ++ back) := by
  have driven : ∃ other ∈ before ++ first :: (front ++ back),
      checker.subsumes other claim = true := by
    rcases not_stays_between leaves with ⟨other, early, above⟩ | ⟨other, late, above, _⟩
    · refine ⟨other, ?_, above⟩
      rw [← List.cons_append, ← List.append_assoc]
      exact List.mem_append_left _ early
    · refine ⟨other, ?_, above⟩
      exact List.mem_append_right _ (List.mem_cons_of_mem _ (List.mem_append_right _ late))
  rw [Bool.eq_iff_iff, stays_between_iff, stays_between_iff]
  constructor
  · intro stays
    refine ⟨stays.1, ?_⟩
    intro other place
    apply stays.2 other
    rcases List.mem_append.mp place with early | late
    · exact List.mem_append_left _ early
    · exact List.mem_append_right _ (List.mem_cons_of_mem _ late)
  · intro stays
    obtain ⟨free, both⟩ := stays
    have answered :
        checker.subsumes claim first = true → checker.subsumes first claim = true := by
      intro covers
      obtain ⟨other, place, above⟩ := driven
      have reached := subsumes_trans legal above covers
      rcases List.mem_append.mp place with early | later
      · rw [free other early] at reached
        cases reached
      · rcases List.mem_cons.mp later with rfl | beside
        · exact above
        · exact subsumes_trans legal (both other beside reached) above
    refine ⟨free, ?_⟩
    intro other place
    rcases List.mem_append.mp place with early | later
    · exact both other (List.mem_append_left _ early)
    · rcases List.mem_cons.mp later with rfl | late
      · exact answered
      · exact both other (List.mem_append_right _ late)

/-- Taking out a claim that is driven out changes nothing. -/
theorem survivors_drop (legal : checker.Legal) (before front back : List (Claim kind))
    {claim : Claim kind} (leaves : ¬ checker.staysBetween (before ++ front) claim back = true) :
    checker.survivors before (front ++ claim :: back) =
      checker.survivors before (front ++ back) := by
  induction front generalizing before with
  | nil =>
      rw [List.append_nil] at leaves
      rw [List.nil_append, survivors, if_neg leaves]
      apply survivors_without legal _ leaves
      intro other
      simp only [List.mem_append, List.mem_singleton, or_and_right, exists_or, exists_eq_left]
  | cons first front ih =>
      rw [List.cons_append, List.cons_append, survivors, survivors,
        stays_between_drop legal leaves, ih]
      rwa [List.append_assoc]

/-- A claim driven out by some claims is driven out by more. -/
theorem leaves_among_more {before after more further : List (Claim kind)} {claim : Claim kind}
    (leaves : ¬ checker.staysBetween before claim after = true) (earlier : before ⊆ more)
    (later : after ⊆ further) : ¬ checker.staysBetween more claim further = true := by
  rw [stays_between_iff] at leaves ⊢
  intro stays
  exact leaves ⟨fun other early => stays.1 other (earlier early),
    fun other late => stays.2 other (later late)⟩

/-- Any part of a collection may be reduced first. The claims of the part that were passed already
lie before what is left of it. -/
theorem survivors_of_part (legal : checker.Legal) {passed front : List (Claim kind)}
    (inside : passed ⊆ front) (part back : List (Claim kind)) :
    checker.survivors [] (front ++ (checker.survivors passed part ++ back)) =
      checker.survivors [] (front ++ (part ++ back)) := by
  induction part generalizing passed front with
  | nil => rfl
  | cons claim part ih =>
      rw [survivors]
      split
      · have within : passed ++ [claim] ⊆ front ++ [claim] :=
          List.append_subset.mpr ⟨List.subset_append_of_subset_left _ inside,
            List.subset_append_right _ _⟩
        simpa using ih within
      · next leaves =>
          have forgotten : checker.survivors (passed ++ [claim]) part =
              checker.survivors passed part := by
            apply survivors_without legal _ leaves
            intro other
            simp only [List.mem_append, List.mem_singleton, or_and_right, exists_or, exists_eq_left]
          have driven := leaves_among_more leaves inside (List.subset_append_left part back)
          rw [forgotten, ih inside, List.cons_append]
          exact (survivors_drop legal [] front (part ++ back) driven).symm

theorem spelling_idempotent (legal : checker.Legal) (token : Token) :
    checker.spelling (checker.spelling token) = checker.spelling token := by
  unfold spelling
  cases known : checker.model with
  | none => rfl
  | some model =>
      exact Model.canonical_or_self_idempotent (legal model known).well_formed.toIndexed token

theorem canonicalize_kept (legal : checker.Legal) (claims : List (Claim kind)) :
    (checker.consolidate claims).claims.map checker.canonicalize =
      (checker.consolidate claims).claims := by
  have spelled : checker.spelling ∘ checker.spelling = checker.spelling :=
    funext (spelling_idempotent legal)
  nth_rewrite 2 [← List.map_id (checker.consolidate claims).claims]
  apply List.map_congr_left
  intro keeper kept
  obtain ⟨claim, _, rfl⟩ := consolidate_member legal kept
  rw [canonicalize_eq_map, canonicalize_eq_map, Claim.map_map, spelled]
  rfl

theorem consolidate_append (legal : checker.Legal) (left right : List (Claim kind)) :
    (checker.consolidate ((checker.consolidate left).claims ++
        (checker.consolidate right).claims)).claims =
      (checker.consolidate (left ++ right)).claims := by
  have front := survivors_of_part legal (List.Subset.refl []) (left.map checker.canonicalize)
  have back := survivors_of_part legal (List.nil_subset (left.map checker.canonicalize))
    (right.map checker.canonicalize) []
  simp only [List.nil_append, List.append_nil] at front back
  rw [consolidate_survivors legal, List.map_append, canonicalize_kept legal,
    canonicalize_kept legal, consolidate_survivors legal left, consolidate_survivors legal right,
    front, back, consolidate_survivors legal, List.map_append]

/-- Consolidating the parts of a merged authorization beforehand gives the same claims in the same
order as consolidating it at once. -/
theorem consolidate_merged (checker : Checker) (legal : checker.Legal)
    (left right : Authorization) :
    (checker.consolidate (Claims.merge left right)).claims =
      (checker.consolidate (Claims.merge (checker.consolidate left).claims
        (checker.consolidate right).claims)).claims :=
  (consolidate_append legal left right).symm

end Checker

/-- The second claim asks less than the first. -/
def rolesViewedThenAdmin : Authorization := [
  ⟨.composite "ROLE" "viewer", some (.composite "r" "*")⟩,
  ⟨.composite "r" "*", some (.composite "role" "*")⟩, ⟨.atom "ADMIN", none⟩]

/-- Both halves drop a claim of their own, the second one loses another to the first, and each has a
claim that stays. -/
theorem role_halves_consolidate :
    roleChecker.Legal ∧
      (roleChecker.consolidate readerThenAdmin).claims =
        [⟨.composite "role" "viewer", some (.atom "*")⟩, ⟨.atom "admin", none⟩] ∧
      (roleChecker.consolidate rolesViewedThenAdmin).claims =
        [⟨.composite "role" "viewer", some (.composite "role" "*")⟩,
         ⟨.atom "admin", none⟩] ∧
      (roleChecker.consolidate (Claims.merge readerThenAdmin rolesViewedThenAdmin)).claims =
        [⟨.composite "role" "viewer", some (.atom "*")⟩, ⟨.atom "admin", none⟩,
          ⟨.composite "role" "viewer", some (.composite "role" "*")⟩] := by
  have right : (roleChecker.consolidate rolesViewedThenAdmin).claims =
      [⟨.composite "role" "viewer", some (.composite "role" "*")⟩,
       ⟨.atom "admin", none⟩] := by
    decide +kernel
  refine ⟨role_checker_legal, reader_then_admin_reduced, right, ?_⟩
  rw [Checker.consolidate_merged roleChecker role_checker_legal readerThenAdmin
    rolesViewedThenAdmin, reader_then_admin_reduced, right]
  decide +kernel

end ClaimPolicy
