import ClaimPolicy.Proofs.Construction
import ClaimPolicy.Proofs.Inclusion

/-!
Matching under a model, or without one, is a preorder on tokens. A token that another one includes
is concrete, and so is one from which an include starts; there direct matching is equality up to
case, which look-up does not see. So two matches compose, whichever of them follows includes.
-/
namespace ClaimPolicy

namespace Model

variable {model : Model}

theorem token_match_iff (source target : Token) :
    model.tokenMatch source target = true ↔
      Token.meets model.case (model.canonicalOrSelf source)
        (model.canonicalOrSelf target) = true ∨
        ∃ start id definition,
          model.findId (model.canonicalOrSelf source) .strict = some start ∧
            model.IncludesChain start id ∧ model.get? id = some definition ∧
              Token.meets model.case definition.token (model.canonicalOrSelf target) = true := by
  rw [tokenMatch, Bool.or_eq_true]
  cases found : model.findId (model.canonicalOrSelf source) .strict with
  | none => simp
  | some start =>
      simp only [includes_wanted_iff, Option.any_eq_true, Option.some.injEq]
      grind

theorem token_match_of_nothing_included {source target : Token}
    (nothing : ∀ start ∈ model.findId (model.canonicalOrSelf source) .strict,
      model.includesOf start = []) :
    model.tokenMatch source target =
      Token.meets model.case (model.canonicalOrSelf source) (model.canonicalOrSelf target) := by
  rw [Bool.eq_iff_iff, token_match_iff, or_iff_left_iff_imp]
  intro included
  obtain ⟨start, id, _, started, chain, _⟩ := included
  have alone : ∀ next, ¬ model.Includes start next := by
    intro next step
    rw [Includes, nothing start started] at step
    exact absurd step.1 List.not_mem_nil
  cases chain with
  | single step => exact absurd step (alone _)
  | cons step _ => exact absurd step (alone _)

theorem includes_concrete (wellFormed : model.WellFormed) {source target : Nat}
    (step : model.Includes source target) :
    ∃ definition, model.get? target = some definition ∧ definition.kind ≠ .composite := by
  have member := step.1
  rw [includesOf] at member
  split at member
  · next definition found => exact wellFormed.included found member
  · simp at member

theorem chain_end (wellFormed : model.WellFormed) {source target : Nat}
    (chain : model.IncludesChain source target) :
    ∃ definition, model.get? target = some definition ∧
      model.findId definition.token .strict = some target := by
  induction chain with
  | single step =>
      obtain ⟨definition, found, concrete⟩ := includes_concrete wellFormed step
      exact ⟨definition, found, find_own_token_strict wellFormed.toIndexed found concrete⟩
  | cons _ _ ih => exact ih

theorem find_strict_of_meets (indexed : model.Indexed) {source target : Token} {id : Nat}
    (met : Token.meets model.case source target = true)
    (found : model.findId target .strict = some id) :
    model.findId source .strict = some id := by
  have concrete := (find_strict_concrete indexed found).1
  rw [find_congr (Token.equals_of_meets model.case met concrete), found]

theorem chain_end_start (wellFormed : model.WellFormed) {start id next : Nat}
    {definition : Definition} {target : Token} (chain : model.IncludesChain start id)
    (found : model.get? id = some definition)
    (met : Token.meets model.case definition.token target = true)
    (restarted : model.findId target .strict = some next) : id = next := by
  obtain ⟨ending, endFound, own⟩ := chain_end wellFormed chain
  have sameEnd : ending = definition := Option.some.inj (endFound.symm.trans found)
  subst sameEnd
  have again := find_strict_of_meets wellFormed.toIndexed met restarted
  exact Option.some.inj (own.symm.trans again)

theorem token_match_refl (model : Model) (token : Token) : model.tokenMatch token token = true :=
  (token_match_iff token token).mpr (Or.inl (Token.meets_refl _ _))

theorem token_match_trans (wellFormed : model.WellFormed) {first second third : Token}
    (front : model.tokenMatch first second = true)
    (back : model.tokenMatch second third = true) : model.tokenMatch first third = true := by
  rw [token_match_iff] at front back ⊢
  rcases front with met | ⟨start, id, definition, started, chain, found, met⟩
  · rcases back with next | ⟨start, id, definition, started, chain, found, next⟩
    · exact Or.inl (Token.meets_trans _ met next)
    · have same := find_strict_of_meets wellFormed.toIndexed met started
      exact Or.inr ⟨start, id, definition, same, chain, found, next⟩
  · rcases back with next | ⟨middle, other, included, restarted, more, there, next⟩
    · exact Or.inr ⟨start, id, definition, started, chain, found, Token.meets_trans _ met next⟩
    · -- The second chain starts where the first one ends.
      have joined : id = middle := chain_end_start wellFormed chain found met restarted
      subst joined
      exact Or.inr ⟨start, other, included, started, chain_trans chain more, there, next⟩

theorem token_match_canonical (indexed : model.Indexed) (source target : Token) :
    model.tokenMatch (model.canonicalOrSelf source) target = model.tokenMatch source target ∧
      model.tokenMatch source (model.canonicalOrSelf target) = model.tokenMatch source target := by
  constructor <;> simp only [tokenMatch, canonical_or_self_idempotent indexed]

end Model

variable {model : Option Model}

theorem match_refl (model : Option Model) (token : Token) :
    tokenMatch model token token = true := by
  cases model with
  | none => exact Token.meets_refl _ token
  | some known => exact known.token_match_refl token

theorem match_trans (built : ∀ known ∈ model, known.Built) {first second third : Token}
    (front : tokenMatch model first second = true)
    (back : tokenMatch model second third = true) : tokenMatch model first third = true := by
  cases model with
  | none => exact Token.meets_trans _ front back
  | some known => exact Model.token_match_trans (built known rfl).well_formed front back

/-- Under any model that can be built, or none, every token meets itself, and what meets a token
meets all that this token meets: for declared and undeclared tokens, wildcards at any place. -/
theorem token_match_preorder (model : Option Model) (built : ∀ known ∈ model, known.Built) :
    (∀ token, tokenMatch model token token = true) ∧
      ∀ first second third, tokenMatch model first second = true →
        tokenMatch model second third = true → tokenMatch model first third = true :=
  ⟨match_refl model, fun _ _ _ front back => match_trans built front back⟩

/-- An alias meets a member that it includes, which meets the wildcard of its composite under an
alias and in capitals. -/
theorem root_meets_role_wildcard :
    roleModel.Built ∧
      tokenMatch (some roleModel) (.atom "ROOT") (.composite "role" "viewer") = true ∧
        tokenMatch (some roleModel) (.composite "role" "viewer") (.composite "R" "*") = true ∧
          tokenMatch (some roleModel) (.atom "ROOT") (.composite "R" "*") = true := by
  have built : ∀ known ∈ some roleModel, known.Built := by
    intro known same
    cases same
    exact role_model_built
  have edits : roleModel.Includes 0 2 := ⟨by decide, by decide⟩
  have reads : roleModel.Includes 2 3 := ⟨by decide, by decide⟩
  have front : roleModel.tokenMatch (.atom "ROOT") (.composite "role" "viewer") = true := by
    apply (Model.token_match_iff _ _).mpr
    refine Or.inr ⟨0, 3, _, ?_, .cons edits (.single reads), rfl, ?_⟩
    · decide +kernel
    · decide +kernel
  have back : roleModel.tokenMatch (.composite "role" "viewer") (.composite "R" "*") = true := by
    apply (Model.token_match_iff _ _).mpr
    left
    decide +kernel
  exact ⟨role_model_built, front, back, (token_match_preorder _ built).2 (.atom "ROOT")
    (.composite "role" "viewer") (.composite "R" "*") front back⟩

end ClaimPolicy
