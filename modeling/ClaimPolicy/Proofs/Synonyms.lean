import ClaimPolicy.Proofs.ClaimSets

/-!
Tokens that mean the same. Under a model the parts of a token may be written by the declared name or
by any alias of one definition, and without regard to case when the model has none; such tokens find
the same definition and so have one canonical spelling. Validation goes through canonical spellings
only, so that claims written otherwise are reduced to the same collections and get the same verdict.
Without a model different spellings stay apart in the reduced collections, but they meet the same
tokens.
-/
namespace ClaimPolicy

instance (definition : Definition) (mode : CaseMode) (level : Option Nat) (name : String) :
    Decidable (definition.AnswersTo mode level name) :=
  inferInstanceAs (Decidable (_ ∧ _))

namespace Model

variable {model : Model}

/-- Two names mean the same at a level: they are equal up to the case mode, or one definition there
has both among its name and aliases, again up to the case mode. -/
def SameNameAt (model : Model) (level : Option Nat) (left right : String) : Prop :=
  model.case.sameName left right = true ∨
    ∃ id definition, model.get? id = some definition ∧
      definition.AnswersTo model.case level left ∧ definition.AnswersTo model.case level right

/-- Tokens that differ in how their parts are written. What a child means depends on the composite
that the parent names. -/
inductive Synonyms (model : Model) : Token → Token → Prop
  | atom {left right : String} (names : model.SameNameAt none left right) :
      Synonyms model (.atom left) (.atom right)
  | composite {place : Nat} {owner : Definition}
      {leftParent rightParent leftChild rightChild : String}
      (found : model.get? place = some owner)
      (answers : owner.AnswersTo model.case none leftParent)
      (parents : model.SameNameAt none leftParent rightParent)
      (children : model.SameNameAt (some place) leftChild rightChild) :
      Synonyms model (.composite leftParent leftChild) (.composite rightParent rightChild)

theorem SameNameAt.lookup (indexed : model.Indexed) {level : Option Nat} {left right : String}
    (names : model.SameNameAt level left right) :
    model.lookup level left = model.lookup level right := by
  rcases names with same | ⟨id, definition, found, leftAnswers, rightAnswers⟩
  · exact lookup_congr same level
  · rw [indexed.lookup_iff.mpr ⟨definition, found, leftAnswers⟩,
      indexed.lookup_iff.mpr ⟨definition, found, rightAnswers⟩]

theorem SameNameAt.wildcard (indexed : model.Indexed) {level : Option Nat} {left right : String}
    (names : model.SameNameAt level left right) :
    left = Name.wildcard ↔ right = Name.wildcard := by
  rcases names with same | ⟨id, definition, found, leftAnswers, rightAnswers⟩
  · exact model.case.same_name_wildcard same
  · exact iff_of_false (answered_not_wildcard indexed found leftAnswers)
      (answered_not_wildcard indexed found rightAnswers)

theorem Synonyms.find (indexed : model.Indexed) {left right : Token}
    (same : model.Synonyms left right) (mode : LookupMode) :
    model.findId left mode = model.findId right mode := by
  cases same with
  | atom names => rw [findId, findId, lookupRoot, lookupRoot, names.lookup indexed]
  | @composite place owner leftParent rightParent leftChild rightChild found answers parents
      children =>
      have left := indexed.lookup_iff.mpr ⟨owner, found, answers⟩
      have right := (parents.lookup indexed).symm.trans left
      have wild : (leftChild == Name.wildcard) = (rightChild == Name.wildcard) := by
        rw [Bool.eq_iff_iff, beq_iff_eq, beq_iff_eq]
        exact children.wildcard indexed
      simp only [findId, lookupRoot, left, right, wild, Option.filter_some]
      split
      · simp only [Option.bind_eq_bind, Option.bind_some, children.lookup indexed]
      · rfl

theorem Synonyms.spelling (indexed : model.Indexed) {left right : Token}
    (same : model.Synonyms left right) (known : model.knows left = true) :
    model.knows right = true ∧ model.canonicalOrSelf left = model.canonicalOrSelf right := by
  have alike := same.find indexed .claim
  rcases knows_cases known with ⟨id, found⟩ | rfl
  · obtain ⟨definition, here⟩ := find_id_found indexed found
    have again : model.findId right .claim = some id := alike.symm.trans found
    refine ⟨?_, ?_⟩
    · rw [knows, again]
      rfl
    · rw [canonical_or_self_of_find found here, canonical_or_self_of_find again here]
  · cases same with
    | atom names =>
        -- The wildcard is no definition's name, so that nothing else may stand for it.
        have wild := (names.wildcard indexed).mp rfl
        subst wild
        exact ⟨known, rfl⟩

end Model

theorem Permission.eq_of_tokens {left right : Permission} (same : left.tokens = right.tokens) :
    left = right := by
  obtain ⟨token, scope⟩ := left
  obtain ⟨other, place⟩ := right
  obtain ⟨tokens, scopes⟩ := List.cons.inj same
  have scopesSame : scope = place := by
    cases scope <;> cases place <;> simp_all
  rw [show token = other from tokens, scopesSame]

namespace Claim

variable {kind : Kind}

theorem eq_of_tokens {left right : Claim kind} (signs : negated left = negated right)
    (same : tokens left = tokens right) : left = right := by
  cases kind with
  | authorization => exact Permission.eq_of_tokens same
  | assertion =>
      have permissions : Requirement.permission left = Requirement.permission right :=
        Permission.eq_of_tokens same
      exact (Requirement.mk.injEq ..).mpr ⟨permissions, signs⟩
  | grants =>
      obtain ⟨subjects, rest⟩ := List.cons.inj same
      exact (Delegation.mk.injEq ..).mpr ⟨subjects, Permission.eq_of_tokens rest⟩

/-- Claims of one sign whose tokens are related one by one. -/
def Related (related : Token → Token → Prop) (left right : Claim kind) : Prop :=
  negated left = negated right ∧ List.Forall₂ related (tokens left) (tokens right)

end Claim

def Claims.Related {kind : Kind} (related : Token → Token → Prop)
    (left right : List (Claim kind)) : Prop :=
  List.Forall₂ (Claim.Related related) left right

theorem kept_by_related {Item Image : Type} {related : Item → Item → Prop}
    {good : Item → Prop} {spell : Item → Image}
    (each : ∀ one other, related one other → good one →
      good other ∧ spell one = spell other)
    {left right : List Item} (alike : List.Forall₂ related left right)
    (leftGood : ∀ one ∈ left, good one) :
    (∀ other ∈ right, good other) ∧ left.map spell = right.map spell := by
  induction alike with
  | nil => exact ⟨leftGood, rfl⟩
  | cons first _ ih =>
      obtain ⟨firstGood, restGood⟩ := List.forall_mem_cons.mp leftGood
      obtain ⟨otherGood, same⟩ := each _ _ first firstGood
      obtain ⟨othersGood, rest⟩ := ih restGood
      exact ⟨List.forall_mem_cons.mpr ⟨otherGood, othersGood⟩, by
        rw [List.map_cons, List.map_cons, same, rest]⟩

section Known

variable {model : Model} {kind : Kind}

theorem Claim.canonical_of_synonyms (indexed : model.Indexed) {left right : Claim kind}
    (alike : Claim.Related model.Synonyms left right)
    (known : ∀ token ∈ Claim.tokens left, model.knows token = true) :
    (∀ token ∈ Claim.tokens right, model.knows token = true) ∧
      Claim.map model.canonicalOrSelf left = Claim.map model.canonicalOrSelf right := by
  obtain ⟨rightKnown, spelled⟩ :=
    kept_by_related (fun _ _ same => Model.Synonyms.spelling indexed same) alike.2 known
  refine ⟨rightKnown, Claim.eq_of_tokens ?_ ?_⟩
  · rw [Claim.negated_map, Claim.negated_map, alike.1]
  · rw [Claim.tokens_map, Claim.tokens_map, spelled]

/-- Respelled claims stay known and are reduced to the same claims. -/
theorem Checker.consolidate_synonyms (indexed : model.Indexed) {left right : List (Claim kind)}
    (alike : Claims.Related model.Synonyms left right)
    (known : Checker.Knows ⟨some model⟩ left) :
    Checker.Knows ⟨some model⟩ right ∧
      (Checker.consolidate ⟨some model⟩ left).claims =
        (Checker.consolidate ⟨some model⟩ right).claims := by
  obtain ⟨rightKnown, spelled⟩ :=
    kept_by_related (fun _ _ same => Claim.canonical_of_synonyms indexed same) alike known
  refine ⟨rightKnown, ?_⟩
  have canonical : left.map (Checker.canonicalize ⟨some model⟩) =
      right.map (Checker.canonicalize ⟨some model⟩) := spelled
  simp only [Checker.consolidate, canonical]

end Known

def Token.SameFold (left right : Token) : Prop := Token.equals .insensitive left right = true

instance (left right : Token) : Decidable (Token.SameFold left right) :=
  inferInstanceAs (Decidable (_ = _))

theorem Token.same_folds_symm {left right : List Token}
    (alike : List.Forall₂ Token.SameFold left right) : List.Forall₂ Token.SameFold right left :=
  .flip (alike.imp fun _ _ same => Token.equals_symm .insensitive same)

namespace Checker

theorem none_legal : Legal ⟨none⟩ := by
  intro known same
  cases same

theorem satisfies_of_same_folds {held wanted : Permission}
    (alike : List.Forall₂ Token.SameFold held.tokens wanted.tokens) :
    Checker.satisfies ⟨none⟩ held wanted = true := by
  obtain ⟨token, scope⟩ := held
  obtain ⟨other, place⟩ := wanted
  obtain ⟨tokens, scopes⟩ := List.forall₂_cons.mp alike
  rw [satisfies_iff]
  refine ⟨Token.meets_of_equals _ tokens, ?_⟩
  cases scope <;> cases place <;> simp at scopes
  · exact Or.inl ⟨rfl, rfl⟩
  · exact Or.inr ⟨_, _, rfl, rfl, Token.meets_of_equals _ scopes⟩

theorem satisfied_in_other_case {held other wanted sought : Permission}
    (heldAlike : List.Forall₂ Token.SameFold held.tokens other.tokens)
    (wantedAlike : List.Forall₂ Token.SameFold wanted.tokens sought.tokens)
    (satisfied : Checker.satisfies ⟨none⟩ held wanted = true) :
    Checker.satisfies ⟨none⟩ other sought = true := by
  have front := satisfies_of_same_folds (Token.same_folds_symm heldAlike)
  have back := satisfies_of_same_folds wantedAlike
  exact satisfies_trans none_legal (satisfies_trans none_legal front satisfied) back

/-- Without a model the case of what is held and of what is wanted makes no difference. -/
theorem satisfies_same_folds {held other wanted sought : Permission}
    (heldAlike : List.Forall₂ Token.SameFold held.tokens other.tokens)
    (wantedAlike : List.Forall₂ Token.SameFold wanted.tokens sought.tokens) :
    Checker.satisfies ⟨none⟩ held wanted = Checker.satisfies ⟨none⟩ other sought := by
  rw [Bool.eq_iff_iff]
  exact ⟨satisfied_in_other_case heldAlike wantedAlike,
    satisfied_in_other_case (Token.same_folds_symm heldAlike) (Token.same_folds_symm wantedAlike)⟩

theorem holds_same_folds {left right : Authorization} {wanted sought : Permission}
    (alike : Claims.Related Token.SameFold left right)
    (wantedAlike : List.Forall₂ Token.SameFold wanted.tokens sought.tokens) :
    Checker.holds ⟨none⟩ left wanted = Checker.holds ⟨none⟩ right sought := by
  induction alike with
  | nil => rfl
  | @cons held other _ _ first _ ih =>
      have met :
          Checker.satisfies ⟨none⟩ held wanted = Checker.satisfies ⟨none⟩ other sought :=
        satisfies_same_folds first.2 wantedAlike
      exact congrArg₂ or met ih

theorem all_pass_same_folds {left right : Authorization} {assertion reworded : Assertion}
    (alike : Claims.Related Token.SameFold left right)
    (wantedAlike : Claims.Related Token.SameFold assertion reworded) :
    (assertion.all fun required => Checker.passes ⟨none⟩ left required) =
      reworded.all fun required => Checker.passes ⟨none⟩ right required := by
  induction wantedAlike with
  | nil => rfl
  | @cons required restated _ _ first _ ih =>
      obtain ⟨signs, tokens⟩ := first
      have holding := holds_same_folds alike tokens
      have passing :
          Checker.passes ⟨none⟩ left required = Checker.passes ⟨none⟩ right restated :=
        congrArg₂ bne holding signs
      rw [List.all_cons, List.all_cons, passing, ih]

/-- How names are spelled makes no difference. Under a model, claims whose parts are respelled by
the name or the aliases of the same definitions stay valid, are reduced to the same claims and get
the same verdict, down to what a denial reports. Without a model, names in another case get the same
answer. -/
theorem spelling_is_transparent :
    (∀ model : Model, model.Built →
      (∀ (kind : Kind) (claims respelled : List (Claim kind)),
        Checker.Knows ⟨some model⟩ claims → Claims.Related model.Synonyms claims respelled →
          ∃ reduced again, Checker.validate ⟨some model⟩ claims = .ok reduced ∧
            Checker.validate ⟨some model⟩ respelled = .ok again ∧
            again.claims = reduced.claims) ∧
      ∀ (authorization respelled : Authorization) (assertion reworded : Assertion),
        Checker.Knows ⟨some model⟩ authorization →
        Checker.Knows ⟨some model⟩ assertion →
          Claims.Related model.Synonyms authorization respelled →
            Claims.Related model.Synonyms assertion reworded →
              ∃ verdict,
                Checker.test ⟨some model⟩ (.parsed authorization) (.parsed assertion) =
                    .ok verdict ∧
                  Checker.test ⟨some model⟩ (.parsed respelled) (.parsed reworded) =
                    .ok verdict) ∧
    ∀ (authorization respelled : Authorization) (assertion reworded : Assertion),
      Claims.Related Token.SameFold authorization respelled →
        Claims.Related Token.SameFold assertion reworded →
          ∃ answer, Checker.can ⟨none⟩ (.parsed authorization) (.parsed assertion) =
            .ok answer ∧
            Checker.can ⟨none⟩ (.parsed respelled) (.parsed reworded) = .ok answer := by
  constructor
  · intro model built
    have indexed := built.well_formed.toIndexed
    constructor
    · intro kind claims respelled known alike
      obtain ⟨respelledKnown, same⟩ := consolidate_synonyms indexed alike known
      exact ⟨_, _, validate_known known, validate_known respelledKnown, same.symm⟩
    · intro authorization respelled assertion reworded held required heldAlike requiredAlike
      obtain ⟨respelledHeld, sameHeld⟩ := consolidate_synonyms indexed heldAlike held
      obtain ⟨respelledRequired, sameRequired⟩ :=
        consolidate_synonyms indexed requiredAlike required
      refine ⟨_, test_known held required, ?_⟩
      rw [test_known respelledHeld respelledRequired, sameHeld, sameRequired]
  · intro authorization respelled assertion reworded heldAlike requiredAlike
    have known : ∀ {kind : Kind} (claims : List (Claim kind)), Checker.Knows ⟨none⟩ claims :=
      fun _ _ _ _ _ => rfl
    refine ⟨_, can_known none_legal (known authorization) (known assertion), ?_⟩
    rw [can_known none_legal (known respelled) (known reworded),
      all_pass_same_folds heldAlike requiredAlike]

end Checker

def readerRespelled : Authorization := [
  ⟨.composite "ROLE" "viewer", none⟩, ⟨.composite "R" "*", none⟩]

def roleProhibitionsReworded : Assertion := [
  ⟨⟨.composite "role" "VIEWER", none⟩, true⟩, ⟨⟨.composite "R" "*", none⟩, true⟩,
  ⟨⟨.composite "r" "*", none⟩, true⟩]

/-- By alias, by declared name or in capitals, a prohibition of all roles is reported as one.
Without a model only the case is free. -/
theorem reader_denied_however_spelled :
    roleModel.Built ∧ roleChecker.Knows readerOnly ∧ roleChecker.Knows roleProhibitions ∧
      Claims.Related roleModel.Synonyms readerOnly readerRespelled ∧
      Claims.Related roleModel.Synonyms roleProhibitions roleProhibitionsReworded ∧
      roleChecker.test (.parsed readerRespelled) (.parsed roleProhibitionsReworded) =
        .ok (.denied ⟨⟨.composite "role" "*", none⟩, true⟩) ∧
      Checker.can ⟨none⟩ (.parsed [⟨.composite "ROLE" "Viewer", none⟩])
        (.parsed [⟨⟨.composite "role" "*", none⟩, false⟩]) = .ok true := by
  have owner : roleModel.get? 1 = some roleModel.definitions[1] := rfl
  have member : roleModel.get? 3 = some roleModel.definitions[3] := rfl
  have asRole : ∀ {name : String}, name ∈ ["r", "R", "role", "ROLE"] →
      roleModel.definitions[1].AnswersTo roleModel.case none name := by decide +kernel
  have asViewer : ∀ {name : String}, name ∈ ["Reader", "viewer", "VIEWER"] →
      roleModel.definitions[3].AnswersTo roleModel.case (some 1) name := by decide +kernel
  have respelled :
      ∀ {parent other child sibling : String}, parent ∈ ["r", "R", "role", "ROLE"] →
      other ∈ ["r", "R", "role", "ROLE"] → roleModel.SameNameAt (some 1) child sibling →
        roleModel.Synonyms (.composite parent child) (.composite other sibling) :=
    fun left right children => .composite owner (asRole left)
      (Or.inr ⟨1, _, owner, asRole left, asRole right⟩) children
  have viewers : ∀ {child sibling : String}, child ∈ ["Reader", "viewer", "VIEWER"] →
      sibling ∈ ["Reader", "viewer", "VIEWER"] → roleModel.SameNameAt (some 1) child sibling :=
    fun left right => Or.inr ⟨3, _, member, asViewer left, asViewer right⟩
  have heldAlike : Claims.Related roleModel.Synonyms readerOnly readerRespelled :=
    .cons
      ⟨rfl, .cons (respelled (by decide) (by decide) (viewers (by decide) (by decide))) .nil⟩
      (.cons ⟨rfl, .cons (respelled (by decide) (by decide) (Or.inl rfl)) .nil⟩ .nil)
  have requiredAlike :
      Claims.Related roleModel.Synonyms roleProhibitions roleProhibitionsReworded :=
    .cons
      ⟨rfl, .cons (respelled (by decide) (by decide) (viewers (by decide) (by decide))) .nil⟩
      (.cons ⟨rfl, .cons (respelled (by decide) (by decide) (Or.inl rfl)) .nil⟩
        (.cons ⟨rfl, .cons (respelled (by decide) (by decide) (Or.inl rfl)) .nil⟩ .nil))
  obtain ⟨underModel, without⟩ := Checker.spelling_is_transparent
  obtain ⟨verdict, tested, again⟩ := (underModel roleModel role_model_built).2 readerOnly
    readerRespelled roleProhibitions roleProhibitionsReworded reader_only_known
    role_prohibitions_known heldAlike requiredAlike
  have same : verdict = .denied ⟨⟨.composite "role" "*", none⟩, true⟩ :=
    Except.ok.inj (tested.symm.trans reader_only_denied)
  obtain ⟨answer, first, second⟩ := without [⟨.composite "role" "viewer", none⟩]
    [⟨.composite "ROLE" "Viewer", none⟩] [⟨⟨.composite "Role" "*", none⟩, false⟩]
    [⟨⟨.composite "role" "*", none⟩, false⟩]
    (.cons ⟨rfl, .cons (by decide) .nil⟩ .nil) (.cons ⟨rfl, .cons (by decide) .nil⟩ .nil)
  have allowed : answer = true := Except.ok.inj (first.symm.trans (by decide +kernel))
  exact ⟨role_model_built, reader_only_known, role_prohibitions_known, heldAlike, requiredAlike,
    same ▸ again, allowed ▸ second⟩

end ClaimPolicy
