import ClaimPolicy.Proofs.Invariant
import ClaimPolicy.Proofs.Meaning

/-!
What a token denotes, found without the index. One goes through the definitions and compares the
parts of the token with their names and aliases, level by level. The index of a built model gives
the same definition, there is never a second one, and the full tokens that are found are those that
the declarations give.
-/
namespace ClaimPolicy

/-- What a written token means by the declarations alone. A claim may also mean all members of a
composite. -/
def Schema.Means (schema : Schema) (mode : LookupMode) (written target : Token) : Prop :=
  match mode with
  | .strict => schema.Names written target
  | .claim => schema.Spells written target

namespace Model

/-- Whether a definition is what a token denotes. An atom denotes an atom, and a composite a member
of the composite that its parent part denotes, or this composite itself when a claim has the
wildcard below it. -/
inductive Denotes (model : Model) (mode : LookupMode) : Token → Definition → Prop
  | atom {name : String} {definition : Definition} (defined : definition ∈ model.definitions)
      (kind : definition.kind = .atom) (named : model.case.Lists definition.keys name) :
      Denotes model mode (.atom name) definition
  | family {parent : String} {owner : Definition} (claimed : mode = .claim)
      (defined : owner ∈ model.definitions) (kind : owner.kind = .composite)
      (named : model.case.Lists owner.keys parent) :
      Denotes model mode (.composite parent Name.wildcard) owner
  | member {parent child : String} {owner definition : Definition}
      (concrete : child ≠ Name.wildcard) (ownerDefined : owner ∈ model.definitions)
      (ownerKind : owner.kind = .composite) (parentNamed : model.case.Lists owner.keys parent)
      (defined : definition ∈ model.definitions) (kind : definition.kind = .member)
      (below : definition.parent = some owner.id)
      (childNamed : model.case.Lists definition.keys child) :
      Denotes model mode (.composite parent child) definition

variable {model : Model}

theorem defined_iff (indexed : model.Indexed) (definition : Definition) :
    definition ∈ model.definitions ↔ model.get? definition.id = some definition := by
  rw [Array.mem_iff_getElem?]
  constructor
  · intro listed
    obtain ⟨place, found⟩ := listed
    have placed := indexed.placed found
    rw [placed]
    exact found
  · intro found
    exact ⟨definition.id, found⟩

theorem Denotes.defined {mode : LookupMode} {token : Token} {definition : Definition}
    (denotes : model.Denotes mode token definition) : definition ∈ model.definitions := by
  cases denotes with
  | atom defined => exact defined
  | family _ defined => exact defined
  | member _ _ _ _ defined => exact defined

theorem answers_at_root (indexed : model.Indexed) {id : Nat} {definition : Definition}
    (found : model.get? id = some definition)
    (kind : definition.kind = .atom ∨ definition.kind = .composite) (name : String) :
    definition.AnswersTo model.case none name ↔ model.case.Lists definition.keys name :=
  and_iff_right ((root_kinds_of_indexed indexed found).mpr kind)

theorem denotes_of_find (indexed : model.Indexed) {token : Token} {mode : LookupMode} {id : Nat}
    (found : model.findId token mode = some id) :
    ∃ definition, model.get? id = some definition ∧ model.Denotes mode token definition := by
  have defined {place : Nat} {other : Definition} (here : model.get? place = some other) :
      other ∈ model.definitions := Array.mem_iff_getElem?.mpr ⟨place, here⟩
  cases token with
  | atom name =>
      obtain ⟨definition, here, kind, answers⟩ := (find_atom_iff indexed _ _ _).mp found
      exact ⟨definition, here, .atom (defined here) kind answers.2⟩
  | composite parent child =>
      by_cases wild : child = Name.wildcard
      · subst wild
        obtain ⟨claimed, owner, here, kind, answers⟩ :=
          (find_wildcard_iff indexed _ _ _).mp found
        exact ⟨owner, here, .family claimed (defined here) kind answers.2⟩
      · obtain ⟨place, owner, ownerHere, ownerKind, ownerAnswers, definition, here, answers⟩ :=
          (find_member_iff indexed _ _ _ wild _).mp found
        have below : definition.parent = some owner.id := by
          rw [indexed.placed ownerHere]
          exact answers.1
        have kind := (family_kinds_of_indexed indexed ownerHere here answers.1).2
        exact ⟨definition, here, .member wild (defined ownerHere) ownerKind ownerAnswers.2
          (defined here) kind below answers.2⟩

theorem find_of_denotes (indexed : model.Indexed) {token : Token} {mode : LookupMode}
    {definition : Definition} (denotes : model.Denotes mode token definition) :
    model.findId token mode = some definition.id := by
  cases denotes with
  | atom defined kind named =>
      have found := (defined_iff indexed _).mp defined
      apply (find_atom_iff indexed _ _ _).mpr
      exact ⟨definition, found, kind,
        (answers_at_root indexed found (Or.inl kind) _).mpr named⟩
  | family claimed defined kind named =>
      have found := (defined_iff indexed _).mp defined
      apply (find_wildcard_iff indexed _ _ _).mpr
      exact ⟨claimed, definition, found, kind,
        (answers_at_root indexed found (Or.inr kind) _).mpr named⟩
  | member concrete ownerDefined ownerKind parentNamed defined _ below childNamed =>
      have ownerFound := (defined_iff indexed _).mp ownerDefined
      have found := (defined_iff indexed _).mp defined
      apply (find_member_iff indexed _ _ _ concrete _).mpr
      exact ⟨_, _, ownerFound, ownerKind,
        (answers_at_root indexed ownerFound (Or.inr ownerKind) _).mpr parentNamed,
        definition, found, below, childNamed⟩

/-- The index gives what a token denotes. -/
theorem find_iff_denotes (indexed : model.Indexed) (token : Token) (mode : LookupMode) (id : Nat) :
    model.findId token mode = some id ↔
      ∃ definition ∈ model.definitions, definition.id = id ∧
        model.Denotes mode token definition := by
  constructor
  · intro found
    obtain ⟨definition, here, denotes⟩ := denotes_of_find indexed found
    exact ⟨definition, denotes.defined, indexed.placed here, denotes⟩
  · intro denoted
    obtain ⟨definition, _, rfl, denotes⟩ := denoted
    exact find_of_denotes indexed denotes

theorem denotes_unique (indexed : model.Indexed) {token : Token} {mode : LookupMode}
    {one other : Definition} (first : model.Denotes mode token one)
    (second : model.Denotes mode token other) : one = other := by
  have places : one.id = other.id :=
    Option.some.inj ((find_of_denotes indexed first).symm.trans (find_of_denotes indexed second))
  have here := (defined_iff indexed one).mp first.defined
  have there := (defined_iff indexed other).mp second.defined
  rw [places] at here
  exact Option.some.inj (here.symm.trans there)

theorem canonical_own (indexed : model.Indexed) {definition : Definition}
    (defined : definition ∈ model.definitions) :
    model.canonical definition.token = some definition.token := by
  have here := (defined_iff indexed definition).mp defined
  exact (canonical_eq_some_iff _ _).mpr
    ⟨definition.id, definition, find_own_token indexed here, here, rfl⟩

/-- The full tokens of the definitions that a token denotes are those that the declarations give. -/
theorem FilledFrom.means_iff {schema : Schema} (filled : model.FilledFrom schema)
    (mode : LookupMode) (written target : Token) : schema.Means mode written target ↔
      ∃ definition, model.Denotes mode written definition ∧ definition.token = target := by
  have found : schema.Means mode written target ↔
      ∃ id definition, model.findId written mode = some id ∧ model.get? id = some definition ∧
        definition.token = target := by
    cases mode with
    | strict =>
        refine (filled.names_iff written target).trans ?_
        simp only [TokenAt, exists_and_left]
    | claim =>
        exact (filled.canonical_iff written target).symm.trans (canonical_eq_some_iff _ _)
  rw [found]
  constructor
  · intro indexed
    obtain ⟨id, definition, found, here, spelled⟩ := indexed
    obtain ⟨other, there, denotes⟩ := denotes_of_find filled.indexed found
    rw [Option.some.inj (here.symm.trans there)] at spelled
    exact ⟨other, denotes, spelled⟩
  · intro denoted
    obtain ⟨definition, denotes, spelled⟩ := denoted
    exact ⟨definition.id, definition, find_of_denotes filled.indexed denotes,
      (defined_iff filled.indexed definition).mp denotes.defined, spelled⟩

/-- Look-up in a built model agrees with a search through its definitions, in either mode: it finds
the one definition that the token denotes, and nothing when there is none. The definitions denoted
are the declared ones, and each is found again under its full token. -/
theorem lookup_by_declarations (schema : Schema) (model : Model)
    (accepted : schema.build = .ok model) :
    (∀ token mode id, model.findId token mode = some id ↔
      ∃ definition ∈ model.definitions, definition.id = id ∧
        model.Denotes mode token definition) ∧
    (∀ token mode one other, model.Denotes mode token one → model.Denotes mode token other →
      one = other) ∧
    (∀ mode written target, schema.Means mode written target ↔
      ∃ definition, model.Denotes mode written definition ∧ definition.token = target) ∧
    ∀ definition ∈ model.definitions,
      model.canonical definition.token = some definition.token := by
  have built := Schema.built_from accepted
  refine ⟨find_iff_denotes built.indexed, ?_, built.means_iff, ?_⟩
  · intro token mode one other first second
    exact denotes_unique built.indexed first second
  · intro definition defined
    exact canonical_own built.indexed defined

/-- Aliases of a composite and of its member, in capitals, find the member; all members of the
composite are found as a claim only, and there under the composite's own name. -/
theorem reader_denotes_viewer :
    roleSchema.build = .ok roleModel ∧
      roleModel.findId (.composite "R" "READER") .strict = some 3 ∧
      roleModel.findId (.composite "R" "*") .claim = some 1 ∧
      roleModel.findId (.composite "R" "*") .strict = none ∧
      roleModel.canonical (.composite "role" "*") = some (.composite "role" "*") := by
  obtain ⟨found, _, _, own⟩ := lookup_by_declarations roleSchema roleModel role_schema_builds
  have parent : CaseMode.insensitive.Lists ["role", "r"] "R" :=
    ⟨"r", by decide, by decide +kernel⟩
  have child : CaseMode.insensitive.Lists ["viewer", "reader"] "READER" :=
    ⟨"reader", by decide, by decide +kernel⟩
  have role :
      (⟨1, "role", .composite "role" "*", .composite, ["r"], [], [2, 3], none⟩ : Definition) ∈
        roleModel.definitions := Array.mem_iff_getElem?.mpr ⟨1, rfl⟩
  have viewer :
      (⟨3, "viewer", .composite "role" "viewer", .member, ["reader"], [], [], some 1⟩ :
      Definition) ∈ roleModel.definitions := Array.mem_iff_getElem?.mpr ⟨3, rfl⟩
  refine ⟨role_schema_builds, ?_, ?_, ?_, own _ role⟩
  · exact (found _ _ _).mpr
      ⟨_, viewer, rfl, .member (by decide) role rfl parent viewer rfl rfl child⟩
  · exact (found _ _ _).mpr ⟨_, role, rfl, .family rfl role rfl parent⟩
  · rw [Option.eq_none_iff_forall_ne_some]
    intro id strict
    obtain ⟨_, _, _, denotes⟩ := (found _ _ _).mp strict
    cases denotes with
    | family claimed => cases claimed
    | member concrete => exact concrete rfl

end Model

end ClaimPolicy
