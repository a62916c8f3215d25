import ClaimPolicy.Proofs.Lookup

/-!
What a schema says by itself: the names it declares at each level, the atoms and members it declares
with their full tokens, and which of them a written token names. The drafts of a schema lie in
blocks, one for each declaration, and through them a model filled in from the drafts says the same.
-/
namespace ClaimPolicy

def TokenDeclaration.keys (declared : TokenDeclaration) : List String :=
  declared.name :: declared.aliases

def CompositeDeclaration.keys (declared : CompositeDeclaration) : List String :=
  declared.name :: declared.aliases

def CompositeDeclaration.memberKeys (declared : CompositeDeclaration) : List String :=
  declared.members.flatMap TokenDeclaration.keys

def Declaration.rootKeys : Declaration → List String
  | .atom declared => declared.keys
  | .composite declared => declared.keys

def Declaration.memberKeys : Declaration → List String
  | .atom _ => []
  | .composite declared => declared.memberKeys

/-- Whether one of the declared names is the given one, up to the case mode. -/
def CaseMode.Lists (mode : CaseMode) (keys : List String) (name : String) : Prop :=
  ∃ key ∈ keys, mode.fold key = mode.fold name

namespace Schema

/-- The names and aliases declared at the root, each occurrence counted. -/
def rootKeys (schema : Schema) : List String :=
  schema.declarations.flatMap Declaration.rootKeys

def keys (schema : Schema) : List String :=
  schema.declarations.flatMap fun declared => declared.rootKeys ++ declared.memberKeys

/-- The declared atoms and members, each with its full token. -/
inductive Declares (schema : Schema) : Token → TokenDeclaration → Prop
  | atom {declared : TokenDeclaration} (listed : .atom declared ∈ schema.declarations) :
      Declares schema (.atom declared.name) declared
  | member {owner : CompositeDeclaration} {declared : TokenDeclaration}
      (listed : .composite owner ∈ schema.declarations) (inside : declared ∈ owner.members) :
      Declares schema (.composite owner.name declared.name) declared

/-- A token names an atom or member by names or aliases; the second token is the full one. -/
inductive Names (schema : Schema) : Token → Token → Prop
  | atom {declared : TokenDeclaration} {name : String}
      (listed : .atom declared ∈ schema.declarations)
      (named : schema.case.Lists declared.keys name) :
      Names schema (.atom name) (.atom declared.name)
  | member {owner : CompositeDeclaration} {declared : TokenDeclaration} {parent child : String}
      (listed : .composite owner ∈ schema.declarations) (inside : declared ∈ owner.members)
      (parentNamed : schema.case.Lists owner.keys parent)
      (childNamed : schema.case.Lists declared.keys child) :
      Names schema (.composite parent child) (.composite owner.name declared.name)

/-- A written include and the full token of the atom or member that it names. -/
def Resolves (schema : Schema) (included : String) (target : Token) : Prop :=
  ∃ written, Token.parse included = .ok written ∧ schema.Names written target

def Includes (schema : Schema) (source target : Token) : Prop :=
  ∃ declared, schema.Declares source declared ∧
    ∃ included ∈ declared.includes, schema.Resolves included target

end Schema

def CompositeDeclaration.draft (declared : CompositeDeclaration) (id : Nat) : Draft where
  id := id
  kind := .composite
  parent := none
  name := declared.name
  aliases := declared.aliases
  includes := []
  children := List.range' (id + 1) declared.members.length

theorem CompositeDeclaration.member_draft_among (id next : Nat) (name : String)
    {members : List TokenDeclaration} {declared : TokenDeclaration}
    (inside : declared ∈ members) :
    ∃ place, declared.draft .member (some (id, name)) place ∈
      memberDrafts id name next members := by
  induction members generalizing next with
  | nil => exact absurd inside List.not_mem_nil
  | cons member members ih =>
      rcases List.mem_cons.mp inside with rfl | later
      · exact ⟨next, List.mem_cons_self⟩
      · obtain ⟨place, among⟩ := ih (next + 1) later
        exact ⟨place, List.mem_cons_of_mem _ among⟩

namespace Schema

/-- The declaration that a draft comes from. A member lies beside the draft of its composite. -/
inductive Origin (schema : Schema) : Draft → Prop
  | atom {declared : TokenDeclaration} {id : Nat}
      (listed : .atom declared ∈ schema.declarations) :
      Origin schema (declared.draft .atom none id)
  | composite {declared : CompositeDeclaration} {id : Nat}
      (listed : .composite declared ∈ schema.declarations) : Origin schema (declared.draft id)
  | member {owner : CompositeDeclaration} {declared : TokenDeclaration} {id place : Nat}
      (listed : .composite owner ∈ schema.declarations) (inside : declared ∈ owner.members)
      (beside : owner.draft place ∈ schema.drafts) :
      Origin schema (declared.draft .member (some (place, owner.name)) id)

theorem lay_out_block_of_declaration (next : Nat) {declarations : List Declaration}
    {declared : Declaration} (listed : declared ∈ declarations) :
    ∃ place, declared.drafts place ⊆ layOut next declarations := by
  induction declarations generalizing next with
  | nil => exact absurd listed List.not_mem_nil
  | cons first rest ih =>
      rw [layOut]
      rcases List.mem_cons.mp listed with rfl | later
      · exact ⟨next, List.subset_append_left _ _⟩
      · obtain ⟨place, block⟩ := ih (next + first.size) later
        exact ⟨place, List.Subset.trans block (List.subset_append_right _ _)⟩

variable {schema : Schema}

theorem draft_origin {draft : Draft} (among : draft ∈ schema.drafts) : schema.Origin draft := by
  obtain ⟨declared, listed, place, inside, block⟩ := lay_out_block_of_draft among
  cases declared with
  | atom declared =>
      have same := List.mem_singleton.mp inside
      subst same
      exact .atom listed
  | composite owner =>
      have own : owner.draft place ∈ schema.drafts := block List.mem_cons_self
      rcases List.mem_cons.mp inside with rfl | later
      · exact .composite listed
      · obtain ⟨declared, member, id, rfl⟩ := CompositeDeclaration.member_drafts_origin later
        exact .member listed member own

theorem atom_draft_among {declared : TokenDeclaration}
    (listed : .atom declared ∈ schema.declarations) :
    ∃ id, declared.draft .atom none id ∈ schema.drafts := by
  obtain ⟨place, block⟩ := lay_out_block_of_declaration 0 listed
  exact ⟨place, block List.mem_cons_self⟩

theorem member_draft_among {owner : CompositeDeclaration} {declared : TokenDeclaration}
    (listed : .composite owner ∈ schema.declarations) (inside : declared ∈ owner.members) :
    ∃ place id, owner.draft place ∈ schema.drafts ∧
      declared.draft .member (some (place, owner.name)) id ∈ schema.drafts := by
  obtain ⟨place, block⟩ := lay_out_block_of_declaration 0 listed
  obtain ⟨id, among⟩ :=
    CompositeDeclaration.member_draft_among place (place + 1) owner.name inside
  exact ⟨place, id, block List.mem_cons_self, block (List.mem_cons_of_mem _ among)⟩

theorem declares_iff (token : Token) (declared : TokenDeclaration) :
    schema.Declares token declared ↔ ∃ draft ∈ schema.drafts, draft.kind ≠ .composite ∧
      draft.token = token ∧ ⟨draft.name, draft.aliases, draft.includes⟩ = declared := by
  constructor
  · intro declares
    cases declares with
    | atom listed =>
        obtain ⟨id, among⟩ := atom_draft_among listed
        exact ⟨_, among, nofun, rfl, rfl⟩
    | member listed inside =>
        obtain ⟨place, id, _, among⟩ := member_draft_among listed inside
        exact ⟨_, among, nofun, rfl, rfl⟩
  · intro drafted
    rcases drafted with ⟨draft, among, concrete, rfl, rfl⟩
    cases draft_origin among with
    | atom listed => exact .atom listed
    | composite listed => exact absurd rfl concrete
    | member listed inside _ => exact .member listed inside

end Schema

def Model.TokenAt (model : Model) (id : Nat) (token : Token) : Prop :=
  ∃ definition, model.get? id = some definition ∧ definition.token = token

/-- A model whose definitions are the drafts of a schema, each at its place with some includes. -/
structure Model.FilledFrom (model : Model) (schema : Schema) : Prop where
  mode : model.case = schema.case
  indexed : model.Indexed
  drafted : ∀ {id definition}, model.get? id = some definition →
    ∃ draft ∈ schema.drafts, draft.id = id ∧
      ∃ includes, definition = draft.definition includes
  defined : ∀ {draft}, draft ∈ schema.drafts →
    ∃ includes, model.get? draft.id = some (draft.definition includes)

theorem Draft.Registered.filled {schema : Schema} {definitions : List Definition}
    (registered : Draft.Registered schema.case schema.drafts)
    (filled : Draft.Filled schema.drafts definitions) :
    (Model.ofDefinitions schema.case definitions).FilledFrom schema where
  mode := rfl
  indexed := Model.indexed_of_filled registered filled
  drafted := by
    intro id definition found
    rw [Model.of_definitions_get] at found
    obtain ⟨draft, drafted, includes, same⟩ := forall₂_at filled found
    exact ⟨draft, List.mem_of_getElem? drafted, registered.placed drafted, includes, same⟩
  defined := by
    intro draft among
    obtain ⟨place, drafted⟩ := List.getElem?_of_mem among
    obtain ⟨_, found, includes, rfl⟩ := forall₂_at_left filled drafted
    rw [registered.placed drafted, Model.of_definitions_get]
    exact ⟨includes, found⟩

theorem Draft.answers_iff (mode : CaseMode) (draft : Draft) (includes : List Nat)
    (level : Option Nat) (name : String) :
    (draft.definition includes).AnswersTo mode level name ↔
      draft.level = level ∧ mode.Lists draft.keys name := by
  have keys : (draft.name :: Name.sorted draft.aliases).Perm draft.keys :=
    (Name.sorted_perm draft.aliases).cons draft.name
  have listed :
      (∃ key ∈ draft.name :: Name.sorted draft.aliases, mode.fold key = mode.fold name) ↔
        mode.Lists draft.keys name := by
    simp only [CaseMode.Lists, keys.mem_iff]
  exact and_congr Iff.rfl listed

namespace Model.FilledFrom

variable {model : Model} {schema : Schema}

theorem definition_eq (filled : model.FilledFrom schema) {draft : Draft} {definition : Definition}
    (among : draft ∈ schema.drafts) (found : model.get? draft.id = some definition) :
    ∃ includes, definition = draft.definition includes := by
  obtain ⟨includes, here⟩ := filled.defined among
  exact ⟨includes, Option.some.inj (found.symm.trans here)⟩

theorem find_of_names (filled : model.FilledFrom schema) {written target : Token}
    (names : schema.Names written target) :
    ∃ id, model.findId written .strict = some id ∧ model.TokenAt id target := by
  cases names with
  | @atom declared name listed named =>
      obtain ⟨id, among⟩ := Schema.atom_draft_among listed
      obtain ⟨includes, found⟩ := filled.defined among
      rw [← filled.mode] at named
      have answers : Definition.AnswersTo _ model.case none name :=
        (Draft.answers_iff model.case (declared.draft .atom none id) includes none name).mpr
          ⟨rfl, named⟩
      exact ⟨id, (find_atom_iff filled.indexed _ _ _).mpr ⟨_, found, rfl, answers⟩, _,
        found, rfl⟩
  | @member owner declared parent child listed inside parentNamed childNamed =>
      obtain ⟨place, id, ownerAmong, among⟩ := Schema.member_draft_among listed inside
      obtain ⟨ownerIncludes, ownerFound⟩ := filled.defined ownerAmong
      obtain ⟨includes, found⟩ := filled.defined among
      rw [← filled.mode] at parentNamed childNamed
      have ownerAnswers : Definition.AnswersTo _ model.case none parent :=
        (Draft.answers_iff model.case (owner.draft place) ownerIncludes none parent).mpr
          ⟨rfl, parentNamed⟩
      have answers : Definition.AnswersTo _ model.case (some place) child :=
        (Draft.answers_iff model.case (declared.draft .member (some (place, owner.name)) id)
          includes (some place) child).mpr ⟨rfl, childNamed⟩
      have concrete := answered_not_wildcard filled.indexed found answers
      exact ⟨id, (find_member_iff filled.indexed _ _ _ concrete _).mpr
        ⟨place, _, ownerFound, rfl, ownerAnswers, _, found, answers⟩, _, found, rfl⟩

theorem names_of_find (filled : model.FilledFrom schema) {written : Token} {id : Nat}
    (found : model.findId written .strict = some id) :
    ∃ definition, model.get? id = some definition ∧ schema.Names written definition.token := by
  cases written with
  | atom name =>
      obtain ⟨definition, here, kind, answers⟩ := (find_atom_iff filled.indexed _ _ _).mp found
      obtain ⟨draft, among, _, includes, rfl⟩ := filled.drafted here
      have named := ((Draft.answers_iff _ _ _ _ _).mp answers).2
      refine ⟨_, here, ?_⟩
      cases Schema.draft_origin among with
      | atom listed => exact .atom listed (filled.mode ▸ named)
      | composite => cases kind
      | member => cases kind
  | composite parent child =>
      by_cases wild : child = Name.wildcard
      · subst wild
        exact absurd ((find_wildcard_iff filled.indexed _ _ _).mp found).1 (by decide)
      · obtain ⟨place, owner, ownerFound, ownerKind, ownerAnswers, definition, here,
          answers⟩ :=
          (find_member_iff filled.indexed _ _ _ wild _).mp found
        obtain ⟨draft, among, _, includes, rfl⟩ := filled.drafted here
        obtain ⟨level, childNamed⟩ := (Draft.answers_iff _ _ _ _ _).mp answers
        refine ⟨_, here, ?_⟩
        cases Schema.draft_origin among with
        | atom => cases level
        | composite => cases level
        | member listed inside beside =>
            -- The composite at the member's level is the one that the member was declared in.
            cases level
            obtain ⟨ownerIncludes, rfl⟩ := filled.definition_eq beside ownerFound
            have parentNamed := ((Draft.answers_iff _ _ _ _ _).mp ownerAnswers).2
            exact .member listed inside (filled.mode ▸ parentNamed) (filled.mode ▸ childNamed)

theorem names_iff (filled : model.FilledFrom schema) (written target : Token) :
    schema.Names written target ↔
      ∃ id, model.findId written .strict = some id ∧ model.TokenAt id target := by
  constructor
  · exact filled.find_of_names
  · intro found
    rcases found with ⟨id, here, definition, there, rfl⟩
    obtain ⟨_, again, names⟩ := filled.names_of_find here
    exact Option.some.inj (there.symm.trans again) ▸ names

theorem token_at_iff (filled : model.FilledFrom schema) (id : Nat) (token : Token) :
    model.TokenAt id token ↔
      ∃ draft ∈ schema.drafts, draft.id = id ∧ draft.token = token := by
  constructor
  · intro stands
    rcases stands with ⟨definition, found, rfl⟩
    obtain ⟨draft, among, placed, _, rfl⟩ := filled.drafted found
    exact ⟨draft, among, placed, rfl⟩
  · intro drafted
    rcases drafted with ⟨draft, among, rfl, rfl⟩
    obtain ⟨_, found⟩ := filled.defined among
    exact ⟨_, found, rfl⟩

end Model.FilledFrom

end ClaimPolicy
