import ClaimPolicy.Proofs.CanonicalMatch
import ClaimPolicy.Proofs.Enrichment
import ClaimPolicy.Proofs.Synonyms

/-!
Deciding with and without a model. Without one, tokens are compared as they are written. A model
reads the tokens that it knows in their canonical spelling, which keeps every direct match, and
follows includes on top of that; so what is granted without it is granted under it as long as
nothing is forbidden. Where nothing has an alias, a known token is spelled as it was declared, up to
case, and where nothing has an include there is nothing to follow. Then both decide alike.
-/
namespace ClaimPolicy

def TokenDeclaration.Plain (declared : TokenDeclaration) : Prop :=
  declared.aliases = [] ∧ declared.includes = []

def CompositeDeclaration.Plain (declared : CompositeDeclaration) : Prop :=
  declared.aliases = [] ∧ ∀ member ∈ declared.members, member.Plain

def Declaration.Plain : Declaration → Prop
  | .atom declared => declared.Plain
  | .composite declared => declared.Plain

instance (declared : TokenDeclaration) : Decidable declared.Plain :=
  inferInstanceAs (Decidable (_ ∧ _))

instance (declared : CompositeDeclaration) : Decidable declared.Plain :=
  inferInstanceAs (Decidable (_ ∧ ∀ _ ∈ _, _))

instance : (declared : Declaration) → Decidable declared.Plain
  | .atom declared => inferInstanceAs (Decidable declared.Plain)
  | .composite declared => inferInstanceAs (Decidable declared.Plain)

theorem CaseMode.lists_single (mode : CaseMode) {key name : String}
    (lists : mode.Lists [key] name) : mode.sameName name key = true := by
  obtain ⟨_, member, folded⟩ := lists
  cases List.mem_singleton.mp member
  exact (mode.same_name_iff _ _).mpr folded.symm

namespace Schema

variable {schema : Schema}

def Plain (schema : Schema) : Prop := ∀ declared ∈ schema.declarations, declared.Plain

instance (schema : Schema) : Decidable schema.Plain := inferInstanceAs (Decidable (∀ _ ∈ _, _))

/-- Nothing includes anything. -/
theorem Plain.no_includes (plain : schema.Plain) (source target : Token) :
    ¬ schema.Includes source target := by
  intro step
  obtain ⟨declared, declares, included, member, _⟩ := step
  have none : declared.includes = [] := by
    cases declares with
    | atom listed => exact (plain _ listed).2
    | member listed inside => exact ((plain _ listed).2 declared inside).2
  rw [none] at member
  cases member

/-- Without aliases a token is written as it is spelled, but for the case. -/
theorem Plain.equals_of_spells (plain : schema.Plain) {written target : Token}
    (spells : schema.Spells written target) : Token.equals schema.case written target = true := by
  have single {name key : String} {aliases : List String} (none : aliases = [])
      (lists : schema.case.Lists (key :: aliases) name) : schema.case.sameName name key = true :=
    schema.case.lists_single (none ▸ lists)
  cases spells with
  | concrete names =>
      cases names with
      | atom listed named => exact single (plain _ listed).1 named
      | member listed inside parentNamed childNamed =>
          have owner := plain _ listed
          exact (Token.equals_composite_iff _ _ _ _ _).mpr
            ⟨single owner.1 parentNamed, single (owner.2 _ inside).1 childNamed⟩
  | family listed named =>
      exact (Token.equals_composite_iff _ _ _ _ _).mpr
        ⟨single (plain _ listed).1 named, schema.case.same_name_refl _⟩

end Schema

namespace Model

variable {model : Model} {schema : Schema}

theorem canonical_or_self_of_spells (filled : model.FilledFrom schema) {written target : Token}
    (spells : schema.Spells written target) : model.canonicalOrSelf written = target := by
  rw [canonicalOrSelf, (filled.canonical_iff written target).mpr spells, Option.getD_some]

/-- A known token has a spelling, unless it is the wildcard. -/
theorem BuiltFrom.spells_known (built : model.BuiltFrom schema) {token : Token}
    (known : model.knows token = true) :
    schema.Spells token (model.canonicalOrSelf token) ∨ token = .atom Name.wildcard := by
  rcases (built.knows_iff token).mp known with ⟨target, spells⟩ | ⟨wild, _⟩
  · left
    rw [canonical_or_self_of_spells built.toFilledFrom spells]
    exact spells
  · exact Or.inr wild

theorem unknown_of_undeclared (indexed : model.Indexed) {parent child : String}
    (undeclared : model.find (.composite parent child) .claim = none) :
    ¬ model.knows (.composite parent child) = true := by
  intro known
  rcases (knows_iff_canonical indexed _).mp known with ⟨_, spelled⟩ | ⟨atom, _⟩
  · rw [canonical, undeclared] at spelled
    cases spelled
  · cases atom

/-- No direct match of known tokens is lost under their canonical spellings: of the two exceptions,
one needs an undeclared source and the other a target below the wildcard, which is unknown. -/
theorem canonical_meets (built : model.BuiltFrom schema) {source target : Token}
    (sourceKnown : model.knows source = true) (targetKnown : model.knows target = true)
    (met : Token.meets model.case source target = true) :
    Token.meets model.case (model.canonicalOrSelf source)
      (model.canonicalOrSelf target) = true := by
  refine meets_kept built.indexed met ?_ ?_
  · intro exception
    cases exception with
    | intro undeclared => exact unknown_of_undeclared built.indexed undeclared sourceKnown
  · intro exception
    cases exception with
    | intro =>
        have undeclared := undeclared_below_wildcard built.indexed
        exact unknown_of_undeclared built.indexed (undeclared _) targetKnown

theorem equals_canonical_of_plain (built : model.BuiltFrom schema) (plain : schema.Plain)
    {token : Token} (known : model.knows token = true) :
    Token.equals model.case token (model.canonicalOrSelf token) = true := by
  rcases built.spells_known known with spells | wild
  · rw [built.mode]
    exact plain.equals_of_spells spells
  · rw [wild, canonical_wildcard_atom built.indexed]
    exact Token.equals_refl _ _

theorem meets_of_token_match (built : model.BuiltFrom schema) (plain : schema.Plain)
    {source target : Token} (sourceKnown : model.knows source = true)
    (targetKnown : model.knows target = true) (matched : model.tokenMatch source target = true) :
    Token.meets model.case source target = true := by
  have front := Token.meets_of_equals _ (equals_canonical_of_plain built plain sourceKnown)
  have back := Token.meets_of_equals _
    (Token.equals_symm _ (equals_canonical_of_plain built plain targetKnown))
  rcases (built.match_iff source target).mp matched with met | ⟨start, reached, _, chain, _⟩
  · exact Token.meets_trans _ (Token.meets_trans _ front met) back
  · obtain ⟨_, step, _⟩ := Relation.TransGen.head'_iff.mp chain
    exact absurd step (plain.no_includes _ _)

end Model

namespace Checker

variable {model : Model} {schema : Schema} {authorization : Authorization} {wanted : Permission}

theorem none_knows {kind : Kind} (claims : List (Claim kind)) : Knows ⟨none⟩ claims :=
  fun _ _ _ _ => rfl

theorem holds_under_model (built : model.BuiltFrom schema) (folding : model.case = .insensitive)
    (known : Checker.Knows ⟨some model⟩ authorization)
    (wantedKnown : ∀ token ∈ wanted.tokens, model.knows token = true)
    (held : Checker.holds ⟨none⟩ authorization wanted = true) :
    Checker.holds ⟨some model⟩ authorization wanted = true := by
  refine holds_of_more ?_ held
  intro permission member source inside target asked met
  have matched : Token.meets model.case source target = true := by
    rw [folding]
    exact met
  have canonical := Model.canonical_meets built (known permission member source inside)
    (wantedKnown target asked) matched
  exact (Model.token_match_iff source target).mpr (Or.inl canonical)

theorem holds_of_plain (built : model.BuiltFrom schema) (plain : schema.Plain)
    (folding : model.case = .insensitive) (known : Checker.Knows ⟨some model⟩ authorization)
    (wantedKnown : ∀ token ∈ wanted.tokens, model.knows token = true)
    (held : Checker.holds ⟨some model⟩ authorization wanted = true) :
    Checker.holds ⟨none⟩ authorization wanted = true := by
  refine holds_of_more ?_ held
  intro permission member source inside target asked matched
  have met := Model.meets_of_token_match built plain (known permission member source inside)
    (wantedKnown target asked) matched
  rw [folding] at met
  exact met

/-- Under a model without regard to case, claims that it knows are granted when they are granted
without it, as long as nothing is forbidden. When the model has no aliases and no includes, the two
answers are the same, whatever the signs. -/
theorem unconstrained_agreement (schema : Schema) (model : Model)
    (accepted : schema.build = .ok model)
    (folding : model.case = .insensitive) (authorization : Authorization) (assertion : Assertion)
    (known : Checker.Knows ⟨some model⟩ authorization)
    (requiredKnown : Checker.Knows ⟨some model⟩ assertion) :
    (Claims.hasNegations assertion = false →
      Checker.can ⟨none⟩ (.parsed authorization) (.parsed assertion) = .ok true →
        Checker.can ⟨some model⟩ (.parsed authorization) (.parsed assertion) = .ok true) ∧
    (schema.Plain →
      ∃ answer, Checker.can ⟨none⟩ (.parsed authorization) (.parsed assertion) =
        .ok answer ∧
        Checker.can ⟨some model⟩ (.parsed authorization) (.parsed assertion) = .ok answer) := by
  have built := Schema.built_from accepted
  have legal : Checker.Legal ⟨some model⟩ := legal_of_built ⟨schema, accepted⟩
  constructor
  · intro positive granted
    rw [can_iff none_legal (none_knows _) (none_knows _)] at granted
    rw [can_iff legal known requiredKnown]
    intro required member
    have sign : Requirement.negated required = false :=
      Bool.eq_false_iff.mpr (List.any_eq_false.mp positive required member)
    have held := granted required member
    rw [passes, sign, Bool.bne_false] at held ⊢
    exact holds_under_model built folding known (requiredKnown required member) held
  · intro plain
    refine ⟨_, can_known none_legal (none_knows _) (none_knows _), ?_⟩
    rw [can_known legal known requiredKnown, Except.ok.injEq, Bool.eq_iff_iff, List.all_eq_true,
      List.all_eq_true]
    apply forall₂_congr
    intro required member
    have wantedKnown := requiredKnown required member
    have alike : Checker.holds ⟨some model⟩ authorization (Requirement.permission required) =
        Checker.holds ⟨none⟩ authorization (Requirement.permission required) := by
      rw [Bool.eq_iff_iff]
      exact ⟨holds_of_plain built plain folding known wantedKnown,
        holds_under_model built folding known wantedKnown⟩
    rw [passes, passes, alike]

end Checker

def officeSchema : Schema where
  declarations := [
    .atom ⟨"auditor", [], []⟩,
    .composite ⟨"office", [], [⟨"clerk", [], []⟩, ⟨"guest", [], []⟩]⟩]

def officeModel : Model where
  case := .insensitive
  definitions := #[
    ⟨0, "auditor", .atom "auditor", .atom, [], [], [], none⟩,
    ⟨1, "office", .composite "office" "*", .composite, [], [], [2, 3], none⟩,
    ⟨2, "clerk", .composite "office" "clerk", .member, [], [], [], some 1⟩,
    ⟨3, "guest", .composite "office" "guest", .member, [], [], [], some 1⟩]
  roots := [0, 1]
  index := [((none, "auditor"), 0), ((none, "office"), 1), ((some 1, "clerk"), 2),
    ((some 1, "guest"), 3)]

theorem office_schema_builds : officeSchema.build = .ok officeModel := by
  have acyclic : officeModel.checkAcyclic = .ok () :=
    Model.check_acyclic_of_depth ([0, 0, 0, 0].getD · 0) (by decide)
  exact Schema.build_of_layout (by decide) (by decide +kernel) (by decide +kernel)
    (by decide +kernel) (by decide +kernel) acyclic

def loudEditor : Authorization := [⟨.composite "ROLE" "EDITOR", none⟩]

def loudClerk : Authorization :=
  [⟨.composite "OFFICE" "Clerk", some (.composite "Office" "Guest")⟩]

/-- Some office for some guest, and no atom at all. -/
def guestsServed : Assertion := [
  ⟨⟨.composite "office" "*", some (.composite "office" "guest")⟩, false⟩,
  ⟨⟨.atom "*", none⟩, true⟩]

def guestsForbidden : Assertion := [
  ⟨⟨.composite "Office" "CLERK", some (.composite "office" "*")⟩, true⟩]

/-- An editor in capitals is an editor with or without the role model, and the office model, which
is plain, adds nothing to what the clerk has and has not: what is granted or denied with it is so
without it. -/
theorem loud_editor_and_clerk :
    roleSchema.build = .ok roleModel ∧ roleModel.case = .insensitive ∧
      Checker.can ⟨none⟩ (.parsed loudEditor) (.parsed Schema.editorRequired) = .ok true ∧
      Checker.can ⟨some roleModel⟩ (.parsed loudEditor) (.parsed Schema.editorRequired) =
        .ok true ∧
      officeSchema.build = .ok officeModel ∧ officeModel.case = .insensitive ∧
      officeSchema.Plain ∧
      Checker.can ⟨none⟩ (.parsed loudClerk) (.parsed guestsServed) = .ok true ∧
      Checker.can ⟨some officeModel⟩ (.parsed loudClerk) (.parsed guestsServed) = .ok true ∧
      Checker.can ⟨none⟩ (.parsed loudClerk) (.parsed guestsForbidden) = .ok false ∧
      Checker.can ⟨some officeModel⟩ (.parsed loudClerk) (.parsed guestsForbidden) =
        .ok false := by
  have edits :
      Checker.can ⟨none⟩ (.parsed loudEditor) (.parsed Schema.editorRequired) = .ok true := by
    rw [Checker.can_iff Checker.none_legal (Checker.none_knows _) (Checker.none_knows _)]
    decide +kernel
  have serves : Checker.can ⟨none⟩ (.parsed loudClerk) (.parsed guestsServed) = .ok true := by
    rw [Checker.can_iff Checker.none_legal (Checker.none_knows _) (Checker.none_knows _)]
    decide +kernel
  have denied :
      Checker.can ⟨none⟩ (.parsed loudClerk) (.parsed guestsForbidden) = .ok false := by
    rw [Checker.can_known Checker.none_legal (Checker.none_knows _) (Checker.none_knows _)]
    exact congrArg Except.ok (by decide +kernel)
  have plain : officeSchema.Plain := by decide
  obtain ⟨kept, _⟩ :=
    Checker.unconstrained_agreement roleSchema roleModel role_schema_builds rfl
    loudEditor Schema.editorRequired (by decide +kernel) (by decide +kernel)
  obtain ⟨_, alike⟩ :=
    Checker.unconstrained_agreement officeSchema officeModel office_schema_builds rfl
    loudClerk guestsServed (by decide +kernel) (by decide +kernel)
  obtain ⟨_, deniedAlike⟩ := Checker.unconstrained_agreement officeSchema officeModel
    office_schema_builds rfl loudClerk guestsForbidden (by decide +kernel) (by decide +kernel)
  obtain ⟨answer, without, under⟩ := alike plain
  have granted : answer = true := Except.ok.inj (without.symm.trans serves)
  obtain ⟨other, deniedWithout, deniedUnder⟩ := deniedAlike plain
  have refused : other = false := Except.ok.inj (deniedWithout.symm.trans denied)
  exact ⟨role_schema_builds, rfl, edits, kept (by decide) edits, office_schema_builds, rfl, plain,
    serves, granted ▸ under, denied, refused ▸ deniedUnder⟩

end ClaimPolicy
