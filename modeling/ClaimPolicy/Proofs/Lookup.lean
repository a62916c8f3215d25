import ClaimPolicy.Proofs.DirectMatch
import ClaimPolicy.Proofs.Representation

/-!
Looking tokens up in an indexed model. The look-up agrees with the declared names level by level, it
cannot tell apart tokens that are equal up to case, and it finds each definition again under its own
token. So a canonical token is its own canonical token.
-/
namespace ClaimPolicy.Model

variable {model : Model}

theorem lookup_root_iff (indexed : model.Indexed) (name : String) (kind : DefinitionKind)
    (id : Nat) : model.lookupRoot name kind = some id ↔
      ∃ definition, model.get? id = some definition ∧ definition.kind = kind ∧
        definition.AnswersTo model.case none name := by
  rw [lookupRoot, Option.filter_eq_some_iff, indexed.lookup_iff]
  constructor
  · intro listed
    rcases listed with ⟨⟨definition, found, answers⟩, kinds⟩
    rw [found] at kinds
    exact ⟨definition, found, by simpa using kinds, answers⟩
  · intro declared
    rcases declared with ⟨definition, found, kinds, answers⟩
    refine ⟨⟨definition, found, answers⟩, ?_⟩
    rw [found]
    simpa using kinds

theorem find_atom_iff (indexed : model.Indexed) (name : String) (mode : LookupMode) (id : Nat) :
    model.findId (.atom name) mode = some id ↔
      ∃ definition, model.get? id = some definition ∧ definition.kind = .atom ∧
        definition.AnswersTo model.case none name :=
  lookup_root_iff indexed name .atom id

theorem find_wildcard_iff (indexed : model.Indexed) (parent : String) (mode : LookupMode)
    (id : Nat) : model.findId (.composite parent Name.wildcard) mode = some id ↔
      mode = .claim ∧ ∃ owner, model.get? id = some owner ∧ owner.kind = .composite ∧
        owner.AnswersTo model.case none parent := by
  rw [← lookup_root_iff indexed]
  cases mode <;> simp [findId]

theorem find_member_iff (indexed : model.Indexed) (parent child : String) (mode : LookupMode)
    (concrete : child ≠ Name.wildcard) (id : Nat) :
    model.findId (.composite parent child) mode = some id ↔
      ∃ place owner, model.get? place = some owner ∧ owner.kind = .composite ∧
        owner.AnswersTo model.case none parent ∧
          ∃ definition, model.get? id = some definition ∧
            definition.AnswersTo model.case (some place) child := by
  have notWild : (child == Name.wildcard) = false := by simpa using concrete
  simp only [findId, notWild, Option.bind_eq_bind, Option.bind_eq_some_iff, Bool.false_eq_true,
    if_false, lookup_root_iff indexed, indexed.lookup_iff]
  grind

/-- A look-up reads the slots and the kinds at the places, and nothing else of a model. -/
theorem find_id_agrees {other : Model}
    (slots : ∀ level name, other.lookup level name = model.lookup level name)
    (kinds : ∀ id, (other.get? id).map Definition.kind = (model.get? id).map Definition.kind)
    (token : Token) (mode : LookupMode) : other.findId token mode = model.findId token mode := by
  have roots (name : String) (kind : DefinitionKind) :
      other.lookupRoot name kind = model.lookupRoot name kind := by
    have kindAt (id : Nat) : (other.get? id).any (fun definition => definition.kind == kind) =
        (model.get? id).any fun definition => definition.kind == kind := by
      have same := congrArg (Option.any (· == kind)) (kinds id)
      rwa [Option.any_map, Option.any_map] at same
    rw [lookupRoot, lookupRoot, slots]
    exact congrArg (fun wanted => Option.filter wanted _) (funext kindAt)
  cases token with
  | atom name => exact roots name .atom
  | composite parent child => simp only [findId, roots, slots]

theorem answers_own_name {definition : Definition} {level : Option Nat}
    (below : definition.parent = level) (mode : CaseMode) :
    definition.AnswersTo mode level definition.name :=
  ⟨below, definition.name, List.mem_cons_self, rfl⟩

theorem named_not_wildcard (indexed : model.Indexed) {id : Nat} {definition : Definition}
    (found : model.get? id = some definition) {key : String} (member : key ∈ definition.keys) :
    key ≠ Name.wildcard := by
  intro same
  subst same
  have refused := indexed.named found _ member
  simp [Name.declarationFault?] at refused

theorem own_name_not_wildcard (indexed : model.Indexed) {id : Nat} {definition : Definition}
    (found : model.get? id = some definition) : definition.name ≠ Name.wildcard :=
  named_not_wildcard indexed found List.mem_cons_self

theorem answered_not_wildcard (indexed : model.Indexed) {id : Nat} {definition : Definition}
    (found : model.get? id = some definition) {level : Option Nat} {name : String}
    (answers : definition.AnswersTo model.case level name) : name ≠ Name.wildcard := by
  intro same
  subst same
  obtain ⟨_, key, member, folded⟩ := answers
  have wild := (model.case.fold_eq_wildcard Name.wildcard).mpr rfl
  rw [wild, model.case.fold_eq_wildcard] at folded
  exact named_not_wildcard indexed found member folded

theorem spelled_below (indexed : model.Indexed) {id place : Nat} {member : Definition}
    (found : model.get? id = some member) (below : member.parent = some place) :
    member.kind = .member ∧ ∃ owner, model.get? place = some owner ∧
      owner.kind = .composite ∧ member.token = .composite owner.name member.name := by
  cases indexed.spelled found with
  | atom _ root => rw [root] at below; cases below
  | composite _ root => rw [root] at below; cases below
  | member kind other owner ownerFound ownerKind otherBelow spelling =>
      have same : other = place := Option.some.inj (otherBelow.symm.trans below)
      exact ⟨kind, owner, same ▸ ownerFound, ownerKind, spelling⟩

theorem find_own_token (indexed : model.Indexed) {id : Nat} {definition : Definition}
    (found : model.get? id = some definition) :
    model.findId definition.token .claim = some id := by
  cases indexed.spelled found with
  | atom kind root spelling =>
      rw [spelling, find_atom_iff indexed]
      exact ⟨definition, found, kind, answers_own_name root _⟩
  | composite kind root spelling =>
      rw [spelling, find_wildcard_iff indexed]
      exact ⟨rfl, definition, found, kind, answers_own_name root _⟩
  | member kind place owner ownerFound ownerKind below spelling =>
      have concrete := own_name_not_wildcard indexed found
      rw [spelling, find_member_iff indexed _ _ _ concrete]
      have ownerRoot : owner.parent = none := by
        cases indexed.spelled ownerFound with
        | atom _ root _ => exact root
        | composite _ root _ => exact root
        | member kind => rw [ownerKind] at kind; exact absurd kind (by decide)
      exact ⟨place, owner, ownerFound, ownerKind, answers_own_name ownerRoot _, definition,
        found, answers_own_name below _⟩

theorem find_strict_of_claim {token : Token} {id : Nat} (concrete : token.isWildcard = false)
    (found : model.findId token .claim = some id) : model.findId token .strict = some id := by
  cases token with
  | atom name => exact found
  | composite parent child =>
      have childConcrete := Token.concrete_parts concrete child (by simp [Token.parts])
      have notWild : (child == Name.wildcard) = false := by simpa using childConcrete
      simpa [findId, notWild] using found

theorem find_strict_concrete (indexed : model.Indexed) {token : Token} {id : Nat}
    (found : model.findId token .strict = some id) :
    token.isWildcard = false ∧
      ∃ definition, model.get? id = some definition ∧ definition.kind ≠ .composite := by
  cases token with
  | atom name =>
      obtain ⟨definition, here, kind, answers⟩ := (find_atom_iff indexed _ _ _).mp found
      have concrete := answered_not_wildcard indexed here answers
      refine ⟨by simpa [Token.isWildcard, Token.parts] using concrete.symm, definition,
        here, ?_⟩
      rw [kind]
      decide
  | composite parent child =>
      by_cases wild : child = Name.wildcard
      · subst wild
        exact absurd ((find_wildcard_iff indexed _ _ _).mp found).1 (by decide)
      · obtain ⟨place, owner, ownerFound, ownerKind, ownerAnswers, definition, here,
          answers⟩ :=
          (find_member_iff indexed _ _ _ wild _).mp found
        have parentConcrete := answered_not_wildcard indexed ownerFound ownerAnswers
        refine ⟨?_, definition, here, ?_⟩
        · simp [Token.isWildcard, Token.parts, Ne.symm parentConcrete, Ne.symm wild]
        · rw [(spelled_below indexed here answers.1).1]
          decide

theorem find_own_token_strict (indexed : model.Indexed) {id : Nat} {definition : Definition}
    (found : model.get? id = some definition) (concrete : definition.kind ≠ .composite) :
    model.findId definition.token .strict = some id := by
  apply find_strict_of_claim _ (find_own_token indexed found)
  have nameConcrete := own_name_not_wildcard indexed found
  cases indexed.spelled found with
  | atom _ _ spelling =>
      rw [spelling]
      simpa [Token.isWildcard, Token.parts] using nameConcrete.symm
  | composite kind => exact absurd kind concrete
  | member _ place owner ownerFound _ _ spelling =>
      have ownerConcrete := own_name_not_wildcard indexed ownerFound
      rw [spelling]
      simp [Token.isWildcard, Token.parts, Ne.symm ownerConcrete, Ne.symm nameConcrete]

theorem lookup_congr {left right : String} (same : model.case.sameName left right = true)
    (level : Option Nat) : model.lookup level left = model.lookup level right := by
  rw [CaseMode.same_name_iff] at same
  rw [lookup, lookup, same]

theorem find_congr {left right : Token} (same : Token.equals model.case left right = true)
    (mode : LookupMode) : model.findId left mode = model.findId right mode := by
  cases left <;> cases right <;>
    simp only [Token.equals, Bool.and_eq_true, Bool.false_eq_true] at same
  · rw [findId, findId, lookupRoot, lookupRoot, lookup_congr same]
  · next leftParent leftChild rightParent rightChild =>
      have wild : (leftChild == Name.wildcard) = (rightChild == Name.wildcard) := by
        have agree := model.case.same_name_wildcard same.2
        by_cases isWild : leftChild = Name.wildcard
        · simp [isWild, agree.mp isWild]
        · have other : rightChild ≠ Name.wildcard := fun h => isWild (agree.mpr h)
          simp [isWild, other]
      simp only [findId, lookupRoot, lookup_congr same.1, lookup_congr same.2, wild]

theorem canonical_eq_some_iff (token spelled : Token) :
    model.canonical token = some spelled ↔
      ∃ id definition, model.findId token .claim = some id ∧
        model.get? id = some definition ∧ definition.token = spelled := by
  simp only [canonical, find, Option.map_eq_some_iff, Option.bind_eq_some_iff]
  grind

theorem find_id_found (indexed : model.Indexed) {token : Token} {mode : LookupMode} {id : Nat}
    (found : model.findId token mode = some id) :
    ∃ definition, model.get? id = some definition := by
  cases mode with
  | strict =>
      obtain ⟨_, definition, here, _⟩ := find_strict_concrete indexed found
      exact ⟨definition, here⟩
  | claim =>
      cases token with
      | atom name =>
          obtain ⟨definition, here, _⟩ := (find_atom_iff indexed _ _ _).mp found
          exact ⟨definition, here⟩
      | composite parent child =>
          by_cases wild : child = Name.wildcard
          · subst wild
            obtain ⟨_, owner, here, _⟩ := (find_wildcard_iff indexed _ _ _).mp found
            exact ⟨owner, here⟩
          · obtain ⟨_, _, _, _, _, definition, here, _⟩ :=
              (find_member_iff indexed _ _ _ wild _).mp found
            exact ⟨definition, here⟩

theorem canonical_or_self_of_find {token : Token} {id : Nat} {definition : Definition}
    (found : model.findId token .claim = some id) (here : model.get? id = some definition) :
    model.canonicalOrSelf token = definition.token := by
  have spelled := (canonical_eq_some_iff token definition.token).mpr
    ⟨id, definition, found, here, rfl⟩
  rw [canonicalOrSelf, spelled, Option.getD_some]

theorem canonical_or_self_of_none {token : Token}
    (missing : model.findId token .claim = none) : model.canonicalOrSelf token = token := by
  simp [canonicalOrSelf, canonical, find, missing]

theorem find_canonical_or_self (indexed : model.Indexed) (token : Token) :
    model.findId (model.canonicalOrSelf token) .claim = model.findId token .claim := by
  cases found : model.findId token .claim with
  | none => rw [canonical_or_self_of_none found, found]
  | some id =>
      obtain ⟨definition, here⟩ := find_id_found indexed found
      rw [canonical_or_self_of_find found here, find_own_token indexed here]

theorem canonical_or_self_idempotent (indexed : model.Indexed) (token : Token) :
    model.canonicalOrSelf (model.canonicalOrSelf token) = model.canonicalOrSelf token := by
  have again := find_canonical_or_self indexed token
  cases found : model.findId token .claim with
  | none =>
      rw [canonical_or_self_of_none found, canonical_or_self_of_none found]
  | some id =>
      obtain ⟨definition, here⟩ := find_id_found indexed found
      rw [found] at again
      rw [canonical_or_self_of_find again here, canonical_or_self_of_find found here]

end ClaimPolicy.Model
