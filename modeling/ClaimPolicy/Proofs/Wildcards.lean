import ClaimPolicy.Proofs.ClaimSets
import ClaimPolicy.Proofs.Meaning

/-!
Wildcards that are held. A wildcard asks for anything, but it gives nothing: what meets a concrete
token is concrete itself, whether it does so directly or by includes, and spelling a token
canonically neither makes a wildcard nor removes one. So claims with a wildcard may be left out of
an authorization when only concrete permissions are required.
-/
namespace ClaimPolicy

namespace Token

theorem is_wildcard_iff (token : Token) :
    token.isWildcard = true ↔ Name.wildcard ∈ token.parts := by
  rw [isWildcard, List.contains_iff_mem]

theorem is_wildcard_of_equals (mode : CaseMode) {left right : Token}
    (same : equals mode left right = true) : left.isWildcard = right.isWildcard := by
  rw [Bool.eq_iff_iff, is_wildcard_iff, is_wildcard_iff]
  cases left <;> cases right <;>
    simp only [equals, Bool.and_eq_true, Bool.false_eq_true] at same
  · have agree := mode.same_name_wildcard same
    simpa [parts, eq_comm] using agree
  · have parents := mode.same_name_wildcard same.1
    have children := mode.same_name_wildcard same.2
    simpa [parts, eq_comm] using or_congr parents children

theorem concrete_of_meets (mode : CaseMode) {source target : Token}
    (met : meets mode source target = true) (concrete : target.isWildcard = false) :
    source.isWildcard = false := by
  rw [is_wildcard_of_equals mode (equals_of_meets mode met concrete), concrete]

end Token

namespace Model

variable {model : Model}

/-- Among the tokens that are found, the wildcards are those that find a composite. -/
theorem is_wildcard_of_found (indexed : model.Indexed) {token : Token} {id : Nat}
    {definition : Definition} (found : model.findId token .claim = some id)
    (here : model.get? id = some definition) :
    token.isWildcard = true ↔ definition.kind = .composite := by
  have concrete_of_strict : model.findId token .strict = some id →
      token.isWildcard = false ∧ definition.kind ≠ .composite := by
    intro strict
    obtain ⟨concrete, other, there, kind⟩ := find_strict_concrete indexed strict
    have same : other = definition := Option.some.inj (there.symm.trans here)
    exact ⟨concrete, same ▸ kind⟩
  constructor
  · intro wild
    cases token with
    | atom name =>
        rw [(concrete_of_strict found).1] at wild
        cases wild
    | composite parent child =>
        by_cases family : child = Name.wildcard
        · subst family
          obtain ⟨_, owner, there, kind, _⟩ := (find_wildcard_iff indexed _ _ _).mp found
          have same : owner = definition := Option.some.inj (there.symm.trans here)
          exact same ▸ kind
        · rw [(concrete_of_strict (find_claim_concrete family ▸ found)).1] at wild
          cases wild
  · intro composite
    rw [← Bool.not_eq_false]
    intro concrete
    exact (concrete_of_strict (find_strict_of_claim concrete found)).2 composite

theorem is_wildcard_canonical (indexed : model.Indexed) (token : Token) :
    (model.canonicalOrSelf token).isWildcard = token.isWildcard := by
  cases found : model.findId token .claim with
  | none => rw [canonical_or_self_of_none found]
  | some id =>
      obtain ⟨definition, here⟩ := find_id_found indexed found
      have own := find_own_token indexed here
      rw [canonical_or_self_of_find found here, Bool.eq_iff_iff,
        is_wildcard_of_found indexed own here, is_wildcard_of_found indexed found here]

/-- Includes start at concrete tokens only, so a wildcard leads nowhere. -/
theorem concrete_of_match (wellFormed : model.WellFormed) {source target : Token}
    (met : model.tokenMatch source target = true) (concrete : target.isWildcard = false) :
    source.isWildcard = false := by
  have indexed := wellFormed.toIndexed
  rw [← is_wildcard_canonical indexed] at concrete ⊢
  rcases (token_match_iff source target).mp met with direct | ⟨_, _, _, started, _⟩
  · exact Token.concrete_of_meets _ direct concrete
  · exact (find_strict_concrete indexed started).1

end Model

def Claim.hasWildcard {kind : Kind} (claim : Claim kind) : Bool :=
  (Claim.tokens claim).any Token.isWildcard

def Claims.concrete {kind : Kind} (claims : List (Claim kind)) : List (Claim kind) :=
  claims.filter fun claim => !Claim.hasWildcard claim

namespace Checker

variable {checker : Checker}

theorem concrete_of_match (legal : checker.Legal) {source target : Token}
    (met : tokenMatch checker.model source target = true) (concrete : target.isWildcard = false) :
    source.isWildcard = false := by
  cases known : checker.model with
  | none =>
      rw [known] at met
      exact Token.concrete_of_meets _ met concrete
  | some model =>
      rw [known] at met
      exact Model.concrete_of_match (legal model known).well_formed met concrete

theorem concrete_of_satisfies (legal : checker.Legal) {held wanted : Permission}
    (satisfied : checker.satisfies held wanted = true)
    (concrete : wanted.tokens.any Token.isWildcard = false) :
    held.tokens.any Token.isWildcard = false := by
  obtain ⟨heldToken, heldScope⟩ := held
  obtain ⟨wantedToken, wantedScope⟩ := wanted
  obtain ⟨met, scopes⟩ := (satisfies_iff _ _).mp satisfied
  simp only [Permission.tokens, List.any_cons, Bool.or_eq_false_iff] at concrete ⊢
  refine ⟨concrete_of_match legal met concrete.1, ?_⟩
  rcases scopes with ⟨rfl, _⟩ | ⟨one, other, rfl, rfl, scopesMet⟩
  · rfl
  · simp only [Option.toList_some, List.any_cons, List.any_nil, Bool.or_false] at concrete ⊢
    exact concrete_of_match legal scopesMet concrete.2

theorem holds_concrete (legal : checker.Legal) (authorization : Authorization) {wanted : Permission}
    (concrete : wanted.tokens.any Token.isWildcard = false) :
    checker.holds (Claims.concrete authorization) wanted = checker.holds authorization wanted := by
  rw [Bool.eq_iff_iff, holds_iff, holds_iff]
  constructor
  · intro holding
    obtain ⟨held, member, satisfied⟩ := holding
    exact ⟨held, (List.mem_filter.mp member).1, satisfied⟩
  · intro holding
    obtain ⟨held, member, satisfied⟩ := holding
    have plain : @Claim.hasWildcard .authorization held = false :=
      concrete_of_satisfies legal satisfied concrete
    refine ⟨held, List.mem_filter.mpr ⟨member, ?_⟩, satisfied⟩
    rw [plain]
    rfl

/-- A wildcard that is held gives no concrete permission: when no token or scope that is required
has a wildcard, leaving out the permissions that have one changes neither the verdict nor what it
reports. -/
theorem wildcards_give_nothing (checker : Checker) (legal : checker.Legal)
    (authorization : Authorization) (assertion : Assertion)
    (heldKnown : checker.Knows authorization) (requiredKnown : checker.Knows assertion)
    (concrete : ∀ required ∈ assertion, Claim.hasWildcard required = false) :
    ∃ verdict, checker.test (.parsed authorization) (.parsed assertion) = .ok verdict ∧
      checker.test (.parsed (Claims.concrete authorization)) (.parsed assertion) = .ok verdict := by
  have concreteKnown : checker.Knows (Claims.concrete authorization) :=
    fun claim member => heldKnown claim (List.mem_filter.mp member).1
  apply test_of_holds legal heldKnown concreteKnown requiredKnown
  intro required member
  exact (holds_concrete legal authorization (concrete required member)).symm

end Checker

def broadReader : Authorization := [
  ⟨.composite "R" "*", none⟩, ⟨.composite "r" "Reader", some (.atom "*")⟩,
  ⟨.composite "role" "viewer", none⟩]

def viewerAtRoot : Assertion := [
  ⟨⟨.composite "role" "Reader", none⟩, false⟩,
  ⟨⟨.composite "r" "viewer", some (.atom "ROOT")⟩, false⟩]

/-- Neither all roles nor a role in every scope gives the role in one scope. -/
theorem broad_reader_denied :
    roleChecker.Legal ∧ roleChecker.Knows broadReader ∧ roleChecker.Knows viewerAtRoot ∧
      (∀ required ∈ viewerAtRoot, Claim.hasWildcard required = false) ∧
        Claims.concrete broadReader = [⟨.composite "role" "viewer", none⟩] ∧
          roleChecker.test (.parsed broadReader) (.parsed viewerAtRoot) =
            .ok (.denied ⟨⟨.composite "role" "viewer", some (.atom "admin")⟩, false⟩) := by
  have heldKnown : roleChecker.Knows broadReader := by decide +kernel
  have requiredKnown : roleChecker.Knows viewerAtRoot := by decide +kernel
  have plain : ∀ required ∈ viewerAtRoot, Claim.hasWildcard required = false := by decide
  have left : Claims.concrete broadReader = [⟨.composite "role" "viewer", none⟩] := by decide
  obtain ⟨verdict, broad, concrete⟩ :=
    Checker.wildcards_give_nothing roleChecker role_checker_legal
    broadReader viewerAtRoot heldKnown requiredKnown plain
  rw [left, Checker.test_known (by decide +kernel) requiredKnown, Except.ok.injEq] at concrete
  have denied :
      verdict = .denied ⟨⟨.composite "role" "viewer", some (.atom "admin")⟩, false⟩ :=
    concrete.symm.trans (by decide +kernel)
  exact ⟨role_checker_legal, heldKnown, requiredKnown, plain, left, denied ▸ broad⟩

end ClaimPolicy
