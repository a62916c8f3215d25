import ClaimPolicy.Proofs.Acyclicity
import ClaimPolicy.Proofs.TokenOrder

/-!
What matching under a model means. A token meets another directly, or its definition leads by
includes to one that does; since includes never lead back, two tokens meet each other only when
their canonical forms are equal up to case.
-/
namespace ClaimPolicy

namespace Token

theorem name_meets_antisymm (mode : CaseMode) {left right : String}
    (front : nameMeets mode left right = true) (back : nameMeets mode right left = true) :
    mode.sameName left right = true := by
  rw [name_meets_iff] at front back
  rcases front with rightWild | same
  · rcases back with leftWild | same
    · rw [leftWild, rightWild]
      exact mode.same_name_refl _
    · exact mode.same_name_symm same
  · exact same

theorem meets_antisymm (mode : CaseMode) {left right : Token}
    (front : meets mode left right = true) (back : meets mode right left = true) :
    equals mode left right = true := by
  cases left <;> cases right <;>
    simp only [meets, equals, Bool.and_eq_true, Bool.false_eq_true] at front back ⊢
  · exact name_meets_antisymm mode front back
  · exact ⟨name_meets_antisymm mode front.1 back.1, name_meets_antisymm mode front.2 back.2⟩

end Token

namespace Model

variable {model : Model}

theorem Built.acyclic (built : model.Built) : model.Acyclic := by
  obtain ⟨schema, accepted⟩ := built
  obtain ⟨_, _, definitions, _, _, checked⟩ := (schema.build_eq_ok model).mp accepted
  exact (check_acyclic_eq_ok model).mp checked

theorem find_claim_of_strict {token : Token} {id : Nat}
    (found : model.findId token .strict = some id) : model.findId token .claim = some id := by
  cases token with
  | atom name => exact found
  | composite parent child =>
      by_cases wild : child = Name.wildcard
      · subst wild
        simp [findId] at found
      · have notWild : (child == Name.wildcard) = false := by simpa using wild
        simpa [findId, notWild] using found

/-- The definition from which the walk over includes starts is the one that the token resolves to,
unless that is a composite. -/
theorem find_strict_canonical_iff (indexed : model.Indexed) (token : Token) (id : Nat) :
    model.findId (model.canonicalOrSelf token) .strict = some id ↔
      ∃ definition, model.find token .claim = some definition ∧
        definition.kind ≠ .composite ∧ definition.id = id := by
  constructor
  · intro strict
    obtain ⟨_, definition, here, concrete⟩ := find_strict_concrete indexed strict
    have found := find_claim_of_strict strict
    rw [find_canonical_or_self indexed] at found
    exact ⟨definition, Option.bind_eq_some_iff.mpr ⟨id, found, here⟩, concrete,
      indexed.placed here⟩
  · intro resolved
    rcases resolved with ⟨definition, resolution, concrete, same⟩
    obtain ⟨place, found, here⟩ := Option.bind_eq_some_iff.mp resolution
    have placed : place = id := (indexed.placed here).symm.trans same
    subst placed
    rw [canonical_or_self_of_find found here]
    exact find_own_token_strict indexed here concrete

/-- A token meets another under a built model exactly when their canonical forms match directly, or
when it resolves to an atom or member from which a chain of includes leads to a definition whose
token matches the canonical form of the other directly. -/
theorem match_decides_inclusion (model : Model) (built : model.Built) (source target : Token) :
    model.tokenMatch source target = true ↔
      Token.meets model.case (model.canonicalOrSelf source)
        (model.canonicalOrSelf target) = true ∨
        ∃ start, model.find source .claim = some start ∧
          (start.kind = .atom ∨ start.kind = .member) ∧
            ∃ id reached, model.IncludesChain start.id id ∧ model.get? id = some reached ∧
              Token.meets model.case reached.token (model.canonicalOrSelf target) = true := by
  have concrete : ∀ kind : DefinitionKind,
      kind ≠ .composite ↔ kind = .atom ∨ kind = .member := by
    intro kind
    cases kind <;> decide
  rw [token_match_iff]
  simp only [find_strict_canonical_iff built.well_formed.toIndexed, concrete]
  grind

/-- The alias of an atom meets the alias of a member two includes away. -/
theorem root_meets_reader :
    roleModel.Built ∧ roleModel.tokenMatch (.atom "ROOT") (.composite "r" "Reader") = true := by
  have first : roleModel.Includes 0 2 := ⟨by decide, by decide⟩
  have second : roleModel.Includes 2 3 := ⟨by decide, by decide⟩
  apply And.intro role_model_built
  apply (match_decides_inclusion roleModel role_model_built _ _).mpr
  right
  refine ⟨⟨0, "admin", .atom "admin", .atom, ["root"], [2], [], none⟩, ?_, Or.inl rfl, 3, _,
    .cons first (.single second), rfl, ?_⟩
  · decide +kernel
  · decide +kernel

theorem token_match_antisymm (wellFormed : model.WellFormed) (acyclic : model.Acyclic)
    {left right : Token} (front : model.tokenMatch left right = true)
    (back : model.tokenMatch right left = true) :
    Token.equals model.case (model.canonicalOrSelf left) (model.canonicalOrSelf right) = true := by
  rw [token_match_iff] at front back
  rcases front with met | ⟨start, ending, definition, started, chain, found, met⟩
  · rcases back with returned | ⟨start, _, _, started, _⟩
    · exact Token.meets_antisymm _ met returned
    · have concrete := (find_strict_concrete wellFormed.toIndexed started).1
      exact Token.equals_of_meets _ met concrete
  · rcases back with returned | ⟨other, final, included, restarted, more, there, again⟩
    · have concrete := (find_strict_concrete wellFormed.toIndexed started).1
      exact Token.equals_symm _ (Token.equals_of_meets _ returned concrete)
    · -- Both tokens start a chain that ends at the other one, so the chains make a cycle.
      have firstEnd : ending = other := chain_end_start wellFormed chain found met restarted
      have secondEnd : final = start := chain_end_start wellFormed more there again started
      rw [firstEnd] at chain
      rw [secondEnd] at more
      exact absurd (chain_trans chain more) (acyclic start)

theorem token_match_of_equals {left right : Token}
    (same : Token.equals model.case (model.canonicalOrSelf left) (model.canonicalOrSelf right) =
      true) : model.tokenMatch left right = true :=
  (token_match_iff left right).mpr (Or.inl (Token.meets_of_equals _ same))

theorem own_tokens_equal (indexed : model.Indexed) {first second : Nat} {one other : Definition}
    (found : model.get? first = some one) (there : model.get? second = some other)
    (same : Token.equals model.case (model.canonicalOrSelf one.token)
      (model.canonicalOrSelf other.token) = true) : first = second := by
  have firstFound := find_own_token indexed found
  have secondFound := find_own_token indexed there
  have agree := find_congr same .claim
  rw [find_canonical_or_self indexed, find_canonical_or_self indexed, firstFound,
    secondFound] at agree
  exact Option.some.inj agree

/-- Under a built model two tokens match each other both ways exactly when their canonical forms are
equal up to the case mode. So no two definitions satisfy each other. -/
theorem match_both_ways_iff (model : Model) (built : model.Built) :
    (∀ left right,
      (model.tokenMatch left right = true ∧ model.tokenMatch right left = true) ↔
        Token.equals model.case (model.canonicalOrSelf left) (model.canonicalOrSelf right) =
          true) ∧
      ∀ first second one other, model.get? first = some one → model.get? second = some other →
        first ≠ second → ¬ (model.tokenMatch one.token other.token = true ∧
          model.tokenMatch other.token one.token = true) := by
  have wellFormed := built.well_formed
  constructor
  · intro left right
    constructor
    · intro both
      exact token_match_antisymm wellFormed built.acyclic both.1 both.2
    · intro same
      exact ⟨token_match_of_equals same, token_match_of_equals (Token.equals_symm _ same)⟩
  · intro first second one other found there apart both
    have same := token_match_antisymm wellFormed built.acyclic both.1 both.2
    exact apart (own_tokens_equal wellFormed.toIndexed found there same)

/-- Two spellings of one atom match each other, and a member that includes another does not. -/
theorem editor_and_viewer_one_way :
    roleModel.Built ∧
      (roleModel.tokenMatch (.atom "ROOT") (.atom "Admin") = true ∧
        roleModel.tokenMatch (.atom "Admin") (.atom "ROOT") = true) ∧
        ¬ (roleModel.tokenMatch (.composite "role" "editor")
              (.composite "role" "viewer") = true ∧
            roleModel.tokenMatch (.composite "role" "viewer")
              (.composite "role" "editor") = true) := by
  have law := match_both_ways_iff roleModel role_model_built
  refine ⟨role_model_built, (law.1 _ _).mpr ?_, law.2 2 3 _ _ rfl rfl ?_⟩
  · decide +kernel
  · decide

end Model

end ClaimPolicy
