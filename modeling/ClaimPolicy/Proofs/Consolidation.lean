import ClaimPolicy.Proofs.Subsumption

/-!
What consolidation keeps. A claim stays when no claim before it makes it redundant, and a claim
after it does so only if the two make each other redundant. The loop runs from the last claim to the
first over a list that is already shrinking, so it compares with fewer claims than that; since
redundancy is a preorder, the claims it has dropped do not matter.
-/
namespace ClaimPolicy

namespace Checker

variable {checker : Checker} {kind : Kind}

/-- Whether a claim stays, by the claims before it and the claims after it. -/
def staysBetween (checker : Checker) (before : List (Claim kind)) (claim : Claim kind)
    (after : List (Claim kind)) : Bool :=
  !(before.any fun other => checker.subsumes other claim) &&
    after.all fun other => !checker.subsumes other claim || checker.subsumes claim other

def survivors (checker : Checker) (before : List (Claim kind)) :
    List (Claim kind) → List (Claim kind)
  | [] => []
  | claim :: after =>
      if checker.staysBetween before claim after then
        claim :: survivors checker (before ++ [claim]) after
      else survivors checker (before ++ [claim]) after

theorem stays_between_iff (before : List (Claim kind)) (claim : Claim kind)
    (after : List (Claim kind)) :
    checker.staysBetween before claim after = true ↔
      (∀ other ∈ before, checker.subsumes other claim = false) ∧
        ∀ other ∈ after, checker.subsumes other claim = true →
          checker.subsumes claim other = true := by
  simp only [staysBetween, Bool.and_eq_true, Bool.not_eq_true', List.any_eq_false, List.all_eq_true,
    Bool.or_eq_true, Bool.not_eq_true]
  grind

theorem not_stays_between {before after : List (Claim kind)} {claim : Claim kind}
    (leaves : ¬ checker.staysBetween before claim after = true) :
    (∃ other ∈ before, checker.subsumes other claim = true) ∨
      ∃ other ∈ after, checker.subsumes other claim = true ∧
        checker.subsumes claim other = false := by
  rw [stays_between_iff] at leaves
  grind

theorem mem_survivors_cons {before after : List (Claim kind)} {first claim : Claim kind}
    (member : claim ∈ checker.survivors before (first :: after)) :
    (claim = first ∧ checker.staysBetween before first after = true) ∨
      claim ∈ checker.survivors (before ++ [first]) after := by
  rw [survivors] at member
  split at member
  · next stays =>
      rcases List.mem_cons.mp member with same | later
      · exact Or.inl ⟨same, stays⟩
      · exact Or.inr later
  · exact Or.inr member

theorem survivors_of_later {before after : List (Claim kind)} (first : Claim kind)
    {claim : Claim kind} (member : claim ∈ checker.survivors (before ++ [first]) after) :
    claim ∈ checker.survivors before (first :: after) := by
  rw [survivors]
  split
  · exact List.mem_cons_of_mem _ member
  · exact member

theorem survivors_not_subsumed {before after : List (Claim kind)} {claim : Claim kind}
    (member : claim ∈ checker.survivors before after) :
    claim ∈ after ∧ ∀ other ∈ before, checker.subsumes other claim = false := by
  induction after generalizing before with
  | nil => simp [survivors] at member
  | cons first after ih =>
      rcases mem_survivors_cons member with ⟨rfl, stays⟩ | later
      · exact ⟨List.mem_cons_self, ((stays_between_iff _ _ _).mp stays).1⟩
      · obtain ⟨inside, free⟩ := ih later
        constructor
        · exact List.mem_cons_of_mem _ inside
        · intro other earlier
          exact free other (List.mem_append_left _ earlier)

theorem survivors_represent (legal : checker.Legal) (before : List (Claim kind))
    {after : List (Claim kind)} {claim : Claim kind} (member : claim ∈ after) :
    ∃ other ∈ before ++ checker.survivors before after,
      checker.subsumes other claim = true := by
  induction after generalizing before claim with
  | nil => simp at member
  | cons first after ih =>
      -- A claim of the tail has a representative that is the first claim or is good already.
      have tail : ∀ later ∈ after, checker.subsumes first later = true ∨
          ∃ other ∈ before ++ checker.survivors before (first :: after),
            checker.subsumes other later = true := by
        intro later inside
        obtain ⟨other, place, covers⟩ := ih (before ++ [first]) inside
        rcases List.mem_append.mp place with early | survivor
        · rcases List.mem_append.mp early with known | same
          · exact Or.inr ⟨other, List.mem_append_left _ known, covers⟩
          · rw [List.mem_singleton] at same
            subst same
            exact Or.inl covers
        · exact Or.inr
            ⟨other, List.mem_append_right _ (survivors_of_later first survivor), covers⟩
      have head : ∃ other ∈ before ++ checker.survivors before (first :: after),
          checker.subsumes other first = true := by
        by_cases stays : checker.staysBetween before first after = true
        · have kept : first ∈ checker.survivors before (first :: after) := by
            rw [survivors, if_pos stays]
            exact List.mem_cons_self
          exact ⟨first, List.mem_append_right _ kept, checker.subsumes_refl first⟩
        · rcases not_stays_between stays with
            ⟨other, early, covers⟩ | ⟨later, inside, covers, strict⟩
          · exact ⟨other, List.mem_append_left _ early, covers⟩
          · rcases tail later inside with back | ⟨other, place, above⟩
            · rw [back] at strict
              exact absurd strict (by decide)
            · exact ⟨other, place, subsumes_trans legal above covers⟩
      rcases List.mem_cons.mp member with rfl | inside
      · exact head
      · rcases tail claim inside with covers | found
        · obtain ⟨other, place, above⟩ := head
          exact ⟨other, place, subsumes_trans legal above covers⟩
        · exact found

theorem survivors_antichain (checker : Checker) (before after : List (Claim kind)) :
    (checker.survivors before after).Pairwise fun earlier later =>
      checker.subsumes earlier later = false ∧ checker.subsumes later earlier = false := by
  induction after generalizing before with
  | nil => exact .nil
  | cons first after ih =>
      rw [survivors]
      split
      · next stays =>
          apply List.Pairwise.cons
          · intro later member
            obtain ⟨inside, free⟩ := survivors_not_subsumed member
            have forward := free first (List.mem_append_right _ (List.mem_singleton_self first))
            have both := ((stays_between_iff _ _ _).mp stays).2 later inside
            rw [forward] at both
            exact ⟨forward, by simpa using both⟩
          · exact ih _
      · exact ih _

/-- To see whether a claim stays, the survivors after it do as well as all the claims after it. -/
theorem stays_by_survivors (legal : checker.Legal) (before : List (Claim kind))
    (claim : Claim kind) (after : List (Claim kind)) :
    ((before ++ checker.survivors (before ++ [claim]) after).any fun other =>
        checker.subsumes other claim) = !checker.staysBetween before claim after := by
  rw [Bool.eq_iff_iff, List.any_eq_true, Bool.not_eq_true', ← Bool.not_eq_true]
  constructor
  · intro covered stays
    rcases covered with ⟨other, place, covers⟩
    obtain ⟨free, both⟩ := (stays_between_iff _ _ _).mp stays
    rcases List.mem_append.mp place with early | survivor
    · rw [free other early] at covers
      exact absurd covers (by decide)
    · obtain ⟨inside, apart⟩ := survivors_not_subsumed survivor
      have back := both other inside covers
      rw [apart claim (List.mem_append_right _ (List.mem_singleton_self claim))] at back
      exact absurd back (by decide)
  · intro leaves
    rcases not_stays_between leaves with
      ⟨other, early, covers⟩ | ⟨later, inside, covers, strict⟩
    · exact ⟨other, List.mem_append_left _ early, covers⟩
    · obtain ⟨other, place, above⟩ := survivors_represent legal (before ++ [claim]) inside
      rcases List.mem_append.mp place with front | survivor
      · rcases List.mem_append.mp front with early | same
        · exact ⟨other, List.mem_append_left _ early, subsumes_trans legal above covers⟩
        · rw [List.mem_singleton] at same
          subst same
          rw [above] at strict
          exact absurd strict (by decide)
      · exact ⟨other, List.mem_append_right _ survivor, subsumes_trans legal above covers⟩

/-- At each turn of the loop the kept claims are the survivors after those still to be looked at. -/
theorem prune_survivors (legal : checker.Legal) (earlier after : List (Claim kind)) :
    checker.prune earlier (checker.survivors earlier.reverse after) =
      checker.survivors [] (earlier.reverse ++ after) := by
  induction earlier generalizing after with
  | nil => rfl
  | cons claim earlier ih =>
      have dropped : ((earlier ++ checker.survivors (earlier.reverse ++ [claim]) after).any
          fun other => checker.subsumes other claim) =
            !checker.staysBetween earlier.reverse claim after := by
        rw [← stays_by_survivors legal, List.any_append, List.any_append, List.any_reverse]
      have turn := ih (claim :: after)
      rw [survivors] at turn
      rw [List.reverse_cons, List.append_assoc, List.singleton_append, prune, dropped]
      by_cases stays : checker.staysBetween earlier.reverse claim after = true
      · simpa [stays] using turn
      · simpa [stays] using turn

theorem consolidate_survivors (legal : checker.Legal) (claims : List (Claim kind)) :
    (checker.consolidate claims).claims =
      checker.survivors [] (claims.map checker.canonicalize) := by
  have turns := prune_survivors legal (claims.map checker.canonicalize).reverse []
  simpa [survivors, consolidate] using turns

theorem consolidate_member (legal : checker.Legal) {claims : List (Claim kind)}
    {keeper : Claim kind} (member : keeper ∈ (checker.consolidate claims).claims) :
    ∃ claim ∈ claims, keeper = checker.canonicalize claim := by
  rw [consolidate_survivors legal] at member
  obtain ⟨claim, inside, rfl⟩ := List.mem_map.mp (survivors_not_subsumed member).1
  exact ⟨claim, inside, rfl⟩

theorem consolidate_represent (legal : checker.Legal) {claims : List (Claim kind)}
    {claim : Claim kind} (member : claim ∈ claims) :
    ∃ keeper ∈ (checker.consolidate claims).claims,
      checker.subsumes keeper (checker.canonicalize claim) = true := by
  rw [consolidate_survivors legal]
  exact survivors_represent legal [] (List.mem_map_of_mem member)

/-- A claim and its place: no claim at another place makes it redundant without being redundant
beside it, and none of those equivalent to it comes earlier. -/
def Stays (checker : Checker) (claims : List (Claim kind)) (entry : Claim kind × Nat) : Prop :=
  (∀ other ∈ claims.zipIdx, other.2 ≠ entry.2 → checker.subsumes other.1 entry.1 = true →
      checker.subsumes entry.1 other.1 = true) ∧
    ∀ other ∈ claims.zipIdx, other.2 < entry.2 →
      ¬ (checker.subsumes other.1 entry.1 = true ∧ checker.subsumes entry.1 other.1 = true)

instance (checker : Checker) (claims : List (Claim kind)) : DecidablePred (checker.Stays claims) :=
  fun _ => inferInstanceAs (Decidable (_ ∧ _))

theorem has_place {claims : List (Claim kind)} {claim : Claim kind} (member : claim ∈ claims)
    (start : Nat) : ∃ place, (claim, place) ∈ claims.zipIdx start := by
  rw [← List.zipIdx_map_fst start claims] at member
  obtain ⟨⟨_, place⟩, placed, rfl⟩ := List.mem_map.mp member
  exact ⟨place, placed⟩

/-- Seen from one place, the claims at other places are those before it and those after it. -/
theorem stays_iff (before : List (Claim kind)) (claim : Claim kind) (after : List (Claim kind)) :
    checker.Stays (before ++ claim :: after) (claim, before.length) ↔
      checker.staysBetween before claim after = true := by
  have split : (before ++ claim :: after).zipIdx =
      before.zipIdx ++ (claim, before.length) :: after.zipIdx (before.length + 1) := by
    rw [List.zipIdx_append, Nat.zero_add, List.zipIdx_cons]
  rw [stays_between_iff, Stays, split]
  constructor
  · intro entryStays
    rcases entryStays with ⟨notStrict, notLater⟩
    constructor
    · intro other early
      obtain ⟨place, placed⟩ := has_place early 0
      have lower : place < before.length := List.snd_lt_of_mem_zipIdx placed
      have inside := List.mem_append_left
        ((claim, before.length) :: after.zipIdx (before.length + 1)) placed
      rw [← Bool.not_eq_true]
      intro covers
      exact notLater _ inside lower ⟨covers, notStrict _ inside (Nat.ne_of_lt lower) covers⟩
    · intro other late covers
      obtain ⟨place, placed⟩ := has_place late (before.length + 1)
      have higher : before.length < place := List.le_snd_of_mem_zipIdx placed
      have inside := List.mem_append_right before.zipIdx
        (List.mem_cons_of_mem (claim, before.length) placed)
      exact notStrict _ inside (Nat.ne_of_gt higher) covers
  · intro between
    rcases between with ⟨free, both⟩
    have early : ∀ other ∈ before.zipIdx, ¬ checker.subsumes other.1 claim = true := by
      intro other placed
      rw [free other.1 (List.fst_mem_of_mem_zipIdx placed)]
      decide
    constructor
    · intro other placed apart covers
      rcases List.mem_append.mp placed with front | back
      · exact absurd covers (early other front)
      · rcases List.mem_cons.mp back with same | late
        · exact absurd (congrArg Prod.snd same) apart
        · exact both other.1 (List.fst_mem_of_mem_zipIdx late) covers
    · intro other placed lower equivalent
      have covers := equivalent.1
      rcases List.mem_append.mp placed with front | back
      · exact early other front covers
      · rcases List.mem_cons.mp back with same | late
        · exact Nat.ne_of_lt lower (congrArg Prod.snd same)
        · have higher : before.length < other.2 := List.le_snd_of_mem_zipIdx late
          exact Nat.lt_asymm lower higher

theorem survivors_eq_filter (before after : List (Claim kind)) :
    checker.survivors before after =
      ((after.zipIdx before.length).filter
        fun entry => checker.Stays (before ++ after) entry).map Prod.fst := by
  induction after generalizing before with
  | nil => rfl
  | cons first after ih =>
      have rest := ih (before ++ [first])
      rw [List.length_append, List.length_singleton, List.append_assoc,
        List.singleton_append] at rest
      rw [survivors, List.zipIdx_cons, rest]
      by_cases stays : checker.staysBetween before first after = true
      · have here := (stays_iff before first after).mpr stays
        simp [stays, here]
      · have here := mt (stays_iff before first after).mp stays
        simp [stays, here]

/-- Consolidation keeps exactly the claims, in canonical spelling and in order, that no other claim
makes strictly redundant and that have no equivalent before them. So each claim has one that makes
it redundant among those kept, none of those kept makes another redundant, and some claim is
kept. -/
theorem consolidation_meaning (checker : Checker) (legal : checker.Legal)
    (claims : List (Claim kind)) :
    let canonical := claims.map (Claim.map checker.spelling)
    let kept := (checker.consolidate claims).claims
    kept = (canonical.zipIdx.filter fun entry => checker.Stays canonical entry).map Prod.fst ∧
      (∀ claim ∈ canonical, ∃ keeper ∈ kept, checker.subsumes keeper claim = true) ∧
        (kept.Pairwise fun earlier later =>
          checker.subsumes earlier later = false ∧ checker.subsumes later earlier = false) ∧
          (claims ≠ [] → kept ≠ []) := by
  intro canonical kept
  have spelled : claims.map checker.canonicalize = canonical :=
    List.map_congr_left fun claim _ => checker.canonicalize_eq_map claim
  have stayed : kept = checker.survivors [] canonical := by
    rw [← spelled]
    exact consolidate_survivors legal claims
  refine ⟨?_, ?_, ?_, ?_⟩
  · rw [stayed]
    exact survivors_eq_filter [] canonical
  · intro claim member
    rw [← spelled] at member
    obtain ⟨given, inside, rfl⟩ := List.mem_map.mp member
    exact consolidate_represent legal inside
  · rw [stayed]
    exact checker.survivors_antichain [] canonical
  · intro some none
    obtain ⟨claim, member⟩ := List.exists_mem_of_ne_nil claims some
    obtain ⟨keeper, inside, _⟩ := consolidate_represent legal member
    have nothing : keeper ∈ kept := inside
    rw [none] at nothing
    exact absurd nothing List.not_mem_nil

end Checker

def roleProhibitions : Assertion := [
  ⟨⟨.composite "r" "Reader", none⟩, true⟩, ⟨⟨.composite "role" "*", none⟩, true⟩,
  ⟨⟨.composite "ROLE" "*", none⟩, true⟩]

/-- Forbidding every role forbids the one before it, and its other spelling comes too late. -/
theorem role_prohibitions_consolidate :
    roleChecker.Legal ∧
      let canonical := roleProhibitions.map (Claim.map roleChecker.spelling)
      (canonical.zipIdx.filter fun entry => roleChecker.Stays canonical entry).map Prod.fst =
        [⟨⟨.composite "role" "*", none⟩, true⟩] := by
  have kept : (roleChecker.consolidate roleProhibitions).claims =
      [⟨⟨.composite "role" "*", none⟩, true⟩] := by decide +kernel
  have meaning := Checker.consolidation_meaning roleChecker role_checker_legal roleProhibitions
  exact ⟨role_checker_legal, meaning.1.symm.trans kept⟩

end ClaimPolicy
