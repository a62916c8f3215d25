import ClaimPolicy.Proofs.Meaning

/-!
Direct matches under a model. Both tokens are brought to their canonical spelling before they are
compared, so a match of the tokens as they are written could be lost. It is kept but for two uses of
aliases: an undeclared token below an alias of a composite, asked for by the composite's wildcard,
and a member under an alias, asked for by a child below the wildcard. The second is then met only by
what the member includes.
-/
namespace ClaimPolicy.Model

variable {model : Model}

/-- An undeclared token below a composite that is written with an alias, where all of the composite
is required. -/
inductive UndeclaredUnderAlias (model : Model) : Token → Token → Prop
  | intro {parent child written : String} {owner : Definition}
      (undeclared : model.find (.composite parent child) .claim = none)
      (family : model.find (.composite written Name.wildcard) .claim = some owner)
      (renamed : model.case.sameName parent owner.name = false) :
      UndeclaredUnderAlias model (.composite parent child) (.composite written Name.wildcard)

/-- A member that is written with an alias, where a child is required below any parent. The member's
own name is not that of the child. -/
inductive MemberUnderAlias (model : Model) : Token → Token → Prop
  | intro {source : Token} {definition : Definition} {child : String}
      (declared : model.find source .claim = some definition) (member : definition.kind = .member)
      (concrete : child ≠ Name.wildcard)
      (renamed : model.case.sameName definition.name child = false) :
      MemberUnderAlias model source (.composite Name.wildcard child)

theorem find_eq_some_iff (token : Token) (mode : LookupMode) (definition : Definition) :
    model.find token mode = some definition ↔
      ∃ id, model.findId token mode = some id ∧ model.get? id = some definition :=
  Option.bind_eq_some_iff

theorem canonical_or_self_of_declared {token : Token} {definition : Definition}
    (declared : model.find token .claim = some definition) :
    model.canonicalOrSelf token = definition.token := by
  rw [canonicalOrSelf, canonical, declared, Option.map_some, Option.getD_some]

theorem canonical_or_self_of_undeclared {token : Token}
    (undeclared : model.find token .claim = none) : model.canonicalOrSelf token = token := by
  rw [canonicalOrSelf, canonical, undeclared, Option.map_none, Option.getD_none]

theorem find_claim_congr {left right : Token} (same : Token.equals model.case left right = true) :
    model.find left .claim = model.find right .claim := by
  rw [find, find, find_congr same]

theorem canonical_equals {left right : Token} (same : Token.equals model.case left right = true) :
    Token.equals model.case (model.canonicalOrSelf left) (model.canonicalOrSelf right) = true := by
  have agree := find_claim_congr same
  cases declared : model.find right .claim with
  | none =>
      rw [canonical_or_self_of_undeclared declared,
        canonical_or_self_of_undeclared (agree.trans declared)]
      exact same
  | some definition =>
      rw [canonical_or_self_of_declared declared,
        canonical_or_self_of_declared (agree.trans declared)]
      exact Token.equals_refl _ _

/-! How a definition is spelled that a token of each shape finds. -/

theorem atom_spelled (indexed : model.Indexed) {name : String} {definition : Definition}
    (declared : model.find (.atom name) .claim = some definition) :
    definition.token = .atom definition.name := by
  obtain ⟨_, found, here⟩ := (find_eq_some_iff _ _ _).mp declared
  obtain ⟨other, there, kind, _⟩ := (find_atom_iff indexed _ _ _).mp found
  have same : other = definition := Option.some.inj (there.symm.trans here)
  subst same
  cases indexed.spelled here with
  | atom _ _ spelling => exact spelling
  | composite found => rw [kind] at found; cases found
  | member found => rw [kind] at found; cases found

theorem family_spelled (indexed : model.Indexed) {written : String} {owner : Definition}
    (family : model.find (.composite written Name.wildcard) .claim = some owner) :
    owner.token = .composite owner.name Name.wildcard := by
  obtain ⟨_, found, here⟩ := (find_eq_some_iff _ _ _).mp family
  obtain ⟨_, other, there, kind, _⟩ := (find_wildcard_iff indexed _ _ _).mp found
  have same : other = owner := Option.some.inj (there.symm.trans here)
  subst same
  cases indexed.spelled here with
  | atom found => rw [kind] at found; cases found
  | composite _ _ spelling => exact spelling
  | member found => rw [kind] at found; cases found

theorem member_spelled (indexed : model.Indexed) {token : Token} {definition : Definition}
    (declared : model.find token .claim = some definition) (member : definition.kind = .member) :
    ∃ owner, definition.token = .composite owner definition.name := by
  obtain ⟨_, _, here⟩ := (find_eq_some_iff _ _ _).mp declared
  cases indexed.spelled here with
  | atom kind => rw [member] at kind; cases kind
  | composite kind => rw [member] at kind; cases kind
  | member _ _ _ _ _ _ spelling => exact ⟨_, spelling⟩

theorem find_below (indexed : model.Indexed) {parent child : String} {definition : Definition}
    (declared : model.find (.composite parent child) .claim = some definition) :
    ∃ owner, model.find (.composite parent Name.wildcard) .claim = some owner ∧
      (child = Name.wildcard ∧ definition = owner ∨
        definition.kind = .member ∧
        definition.token = .composite owner.name definition.name) := by
  by_cases wild : child = Name.wildcard
  · subst wild
    exact ⟨definition, declared, Or.inl ⟨rfl, rfl⟩⟩
  · obtain ⟨id, found, here⟩ := (find_eq_some_iff _ _ _).mp declared
    obtain ⟨place, owner, ownerHere, ownerKind, ownerAnswers, other, there, answers⟩ :=
      (find_member_iff indexed _ _ _ wild _).mp found
    have same : other = definition := Option.some.inj (there.symm.trans here)
    subst same
    have family : model.findId (.composite parent Name.wildcard) .claim = some place :=
      (find_wildcard_iff indexed _ _ _).mpr ⟨rfl, owner, ownerHere, ownerKind, ownerAnswers⟩
    obtain ⟨kind, above, aboveHere, _, spelling⟩ := spelled_below indexed here answers.1
    have level : above = owner := Option.some.inj (aboveHere.symm.trans ownerHere)
    subst level
    refine ⟨above, (find_eq_some_iff _ _ _).mpr ⟨place, family, ownerHere⟩, Or.inr ?_⟩
    exact ⟨kind, spelling⟩

/-- The wildcard names no composite. -/
theorem undeclared_below_wildcard (indexed : model.Indexed) (child : String) :
    model.find (.composite Name.wildcard child) .claim = none := by
  have missing : model.lookupRoot Name.wildcard .composite = none := by
    cases placed : model.lookupRoot Name.wildcard .composite with
    | none => rfl
    | some place =>
        obtain ⟨_, here, _, answers⟩ := (lookup_root_iff indexed _ _ _).mp placed
        exact absurd rfl (answered_not_wildcard indexed here answers)
  rw [find, findId, missing]
  rfl

/-- The wildcard asks for any atom, and an atom is spelled as an atom. -/
theorem meets_wildcard_kept (indexed : model.Indexed) (name : String) :
    Token.meets model.case (model.canonicalOrSelf (.atom name))
      (model.canonicalOrSelf (.atom Name.wildcard)) = true := by
  have any (other : String) :
      Token.meets model.case (.atom other) (.atom Name.wildcard) = true :=
    (Token.name_meets_iff _ _ _).mpr (Or.inl rfl)
  rw [canonical_wildcard_atom indexed]
  cases declared : model.find (.atom name) .claim with
  | none =>
      rw [canonical_or_self_of_undeclared declared]
      exact any name
  | some definition =>
      rw [canonical_or_self_of_declared declared, atom_spelled indexed declared]
      exact any definition.name

/-- A family asks for anything below its composite. Declared tokens below it are spelled with its
own name; undeclared ones stay as they are, and so does the family if it is undeclared. -/
theorem meets_family_kept (indexed : model.Indexed) {parent child written : String}
    (same : model.case.sameName parent written = true)
    (ordinary : ¬ model.UndeclaredUnderAlias (.composite parent child)
      (.composite written Name.wildcard)) :
    Token.meets model.case (model.canonicalOrSelf (.composite parent child))
      (model.canonicalOrSelf (.composite written Name.wildcard)) = true := by
  have below {owner : String} (parents : model.case.sameName parent owner = true) :
      Token.meets model.case (.composite parent child) (.composite owner Name.wildcard) = true := by
    rw [Token.meets, Bool.and_eq_true, Token.name_meets_iff, Token.name_meets_iff]
    exact ⟨Or.inr parents, Or.inl rfl⟩
  have families : model.find (.composite written Name.wildcard) .claim =
      model.find (.composite parent Name.wildcard) .claim :=
    (find_claim_congr ((Token.equals_composite_iff _ _ _ _ _).mpr
      ⟨same, model.case.same_name_refl _⟩)).symm
  have spelled {owner : Definition}
      (family : model.find (.composite written Name.wildcard) .claim = some owner) :
      model.canonicalOrSelf (.composite written Name.wildcard) =
        .composite owner.name Name.wildcard := by
    rw [canonical_or_self_of_declared family, family_spelled indexed family]
  cases declared : model.find (.composite parent child) .claim with
  | some definition =>
      obtain ⟨owner, family, spelling⟩ := find_below indexed declared
      rw [canonical_or_self_of_declared declared, spelled (families.trans family)]
      rcases spelling with ⟨_, whole⟩ | ⟨_, own⟩
      · rw [whole, family_spelled indexed family]
        exact Token.meets_refl _ _
      · rw [own]
        exact Token.meets_family _ owner.name definition.name
  | none =>
      rw [canonical_or_self_of_undeclared declared]
      cases family : model.find (.composite written Name.wildcard) .claim with
      | none =>
          rw [canonical_or_self_of_undeclared family]
          exact below same
      | some owner =>
          -- The parent of an undeclared token is not respelled, so it has to be the owner's own
          -- name.
          rw [spelled family]
          apply below
          rw [← Bool.not_eq_false]
          intro renamed
          exact ordinary (.intro declared family renamed)

/-- A child below any parent is asked for by name, which is undeclared and so left as it is. It is
met by what has that name, declared or not. -/
theorem meets_child_kept (indexed : model.Indexed) {parent child wanted : String}
    (met : Token.nameMeets model.case child wanted = true)
    (ordinary : ¬ model.MemberUnderAlias (.composite parent child)
      (.composite Name.wildcard wanted)) :
    Token.meets model.case (model.canonicalOrSelf (.composite parent child))
      (model.canonicalOrSelf (.composite Name.wildcard wanted)) = true := by
  have below {owner name : String} (named : Token.nameMeets model.case name wanted = true) :
      Token.meets model.case (.composite owner name) (.composite Name.wildcard wanted) = true := by
    rw [Token.meets, Bool.and_eq_true, Token.name_meets_iff]
    exact ⟨Or.inl rfl, named⟩
  rw [canonical_or_self_of_undeclared (undeclared_below_wildcard indexed wanted)]
  cases declared : model.find (.composite parent child) .claim with
  | none =>
      rw [canonical_or_self_of_undeclared declared]
      exact below met
  | some definition =>
      obtain ⟨owner, family, spelling⟩ := find_below indexed declared
      rw [canonical_or_self_of_declared declared]
      rcases spelling with ⟨wild, whole⟩ | ⟨member, own⟩
      · rw [whole, family_spelled indexed family]
        exact below (wild ▸ met)
      · rw [own]
        apply below
        rw [Token.name_meets_iff]
        by_cases wild : wanted = Name.wildcard
        · exact Or.inl wild
        · right
          rw [← Bool.not_eq_false]
          intro renamed
          exact ordinary (.intro declared member wild renamed)

/-- The two exceptions apart, a direct match is one of the canonical forms. -/
theorem meets_kept (indexed : model.Indexed) {source target : Token}
    (met : Token.meets model.case source target = true)
    (declared : ¬ model.UndeclaredUnderAlias source target)
    (named : ¬ model.MemberUnderAlias source target) :
    Token.meets model.case (model.canonicalOrSelf source)
      (model.canonicalOrSelf target) = true := by
  have of_equals (same : Token.equals model.case source target = true) :
      Token.meets model.case (model.canonicalOrSelf source) (model.canonicalOrSelf target) = true :=
    Token.meets_of_equals _ (canonical_equals same)
  cases source <;> cases target <;>
    simp only [Token.meets, Bool.and_eq_true, Bool.false_eq_true, Token.name_meets_iff] at met
  case atom.atom name wanted =>
    rcases met with wild | same
    · subst wild
      exact meets_wildcard_kept indexed name
    · exact of_equals same
  case composite.composite parent child written wanted =>
    obtain ⟨wild | parents, children⟩ := met
    · subst wild
      exact meets_child_kept indexed ((Token.name_meets_iff _ _ _).mpr children) named
    · rcases children with wild | same
      · subst wild
        exact meets_family_kept indexed parents declared
      · exact of_equals ((Token.equals_composite_iff _ _ _ _ _).mpr ⟨parents, same⟩)

/-- A member under an alias is spelled with its own name, which is not the one that is asked for. So
only what it includes can meet the other. -/
theorem member_under_alias_match_iff (indexed : model.Indexed) {source target : Token}
    (exception : model.MemberUnderAlias source target) :
    model.tokenMatch source target = true ↔
      ∃ start id reached, model.find source .claim = some start ∧
        model.IncludesChain start.id id ∧ model.get? id = some reached ∧
          Token.meets model.case reached.token target = true := by
  cases exception with
  | @intro definition wanted declared member concrete renamed =>
      have unmet : ¬ Token.meets model.case definition.token
          (.composite Name.wildcard wanted) = true := by
        obtain ⟨owner, own⟩ := member_spelled indexed declared member
        rw [own, Token.meets, Bool.and_eq_true, Token.name_meets_iff, Token.name_meets_iff, renamed]
        simp [concrete]
      -- A walk starts from an atom or a member, never from a composite.
      have walks : definition.kind ≠ .composite := by
        rw [member]
        decide
      rw [token_match_iff,
        canonical_or_self_of_undeclared (undeclared_below_wildcard indexed wanted),
        canonical_or_self_of_declared declared]
      constructor
      · intro matched
        rcases matched with met | ⟨_, id, reached, found, chain, there, met⟩
        · exact absurd met unmet
        · rw [← canonical_or_self_of_declared declared] at found
          obtain ⟨start, resolved, _, rfl⟩ := (find_strict_canonical_iff indexed _ _).mp found
          exact ⟨start, id, reached, resolved, chain, there, met⟩
      · intro walked
        obtain ⟨start, id, reached, resolved, chain, there, met⟩ := walked
        have same : start = definition := Option.some.inj (resolved.symm.trans declared)
        subst same
        have found := (find_strict_canonical_iff indexed source start.id).mpr
          ⟨start, resolved, walks, rfl⟩
        rw [canonical_or_self_of_declared declared] at found
        exact Or.inr ⟨start.id, id, reached, found, chain, there, met⟩

theorem role_viewer_ends (id : Nat) : ¬ roleModel.IncludesChain 3 id := by
  have none : roleModel.includesOf 3 = [] := by decide
  have leads (target : Nat) : ¬ roleModel.Includes 3 target := by
    intro step
    rw [Includes, none] at step
    exact List.not_mem_nil step.1
  intro chain
  cases chain with
  | single step => exact leads _ step
  | cons step => exact leads _ step

/-- Under a built model every direct match of two tokens is kept, but for the two exceptions. A
member under an alias meets the child that is asked for exactly when it includes what does. -/
theorem direct_match_kept (model : Model) (built : model.Built) (source target : Token)
    (met : Token.meets model.case source target = true) :
    (¬ model.UndeclaredUnderAlias source target → ¬ model.MemberUnderAlias source target →
      model.tokenMatch source target = true) ∧
    (model.MemberUnderAlias source target →
      (model.tokenMatch source target = true ↔
        ∃ start id reached, model.find source .claim = some start ∧
          model.IncludesChain start.id id ∧ model.get? id = some reached ∧
            Token.meets model.case reached.token target = true)) := by
  have indexed := built.well_formed.toIndexed
  constructor
  · intro declared named
    exact (token_match_iff source target).mpr (Or.inl (meets_kept indexed met declared named))
  · intro exception
    exact member_under_alias_match_iff indexed exception

/-- A reader in capitals is among all of the role, whatever the role is called. No reader is among
those below any parent: the member is a viewer. -/
theorem reader_kept_in_family :
    roleModel.Built ∧
      (Token.meets roleModel.case (.composite "R" "READER") (.composite "r" "*") = true ∧
        roleModel.tokenMatch (.composite "R" "READER") (.composite "r" "*") = true) ∧
      (Token.meets roleModel.case (.composite "R" "Reader") (.composite "*" "READER") = true ∧
        roleModel.MemberUnderAlias (.composite "R" "Reader") (.composite "*" "READER") ∧
        ¬ roleModel.tokenMatch (.composite "R" "Reader") (.composite "*" "READER") = true) := by
  have family :
      Token.meets roleModel.case (.composite "R" "READER") (.composite "r" "*") = true := by
    decide +kernel
  have anywhere : Token.meets roleModel.case (.composite "R" "Reader") (.composite "*" "READER") =
      true := by
    decide +kernel
  have viewer : roleModel.find (.composite "R" "Reader") .claim =
      some ⟨3, "viewer", .composite "role" "viewer", .member, ["reader"], [], [], some 1⟩ := by
    decide +kernel
  have renamed : roleModel.MemberUnderAlias (.composite "R" "Reader") (.composite "*" "READER") :=
    .intro viewer rfl (by decide) (by decide +kernel)
  obtain ⟨kept, _⟩ := direct_match_kept roleModel role_model_built _ _ family
  obtain ⟨_, walked⟩ := direct_match_kept roleModel role_model_built _ _ anywhere
  refine ⟨role_model_built, ⟨family, kept ?_ ?_⟩, anywhere, renamed, ?_⟩
  · intro exception
    have known : (roleModel.find (.composite "R" "READER") .claim).isSome = true := by
      decide +kernel
    cases exception with
    | intro undeclared =>
        rw [undeclared] at known
        cases known
  · generalize below : Token.composite "r" "*" = target
    intro exception
    cases exception with
    | intro =>
        obtain ⟨parents, _⟩ := Token.composite.inj below
        exact absurd parents (by decide)
  · rw [walked renamed]
    intro chained
    obtain ⟨start, id, _, found, chain, _⟩ := chained
    cases Option.some.inj (viewer.symm.trans found)
    exact role_viewer_ends id chain

/-- An undeclared token below the alias of a composite is not among all of the composite, and a
member under an alias is not met by that alias below any parent. -/
theorem direct_matches_lost :
    roleModel.Built ∧
      (Token.meets roleModel.case (.composite "r" "ghost") (.composite "r" "*") = true ∧
        roleModel.tokenMatch (.composite "r" "ghost") (.composite "r" "*") = false) ∧
      (Token.meets roleModel.case (.composite "role" "reader") (.composite "*" "reader") = true ∧
        roleModel.tokenMatch (.composite "role" "reader") (.composite "*" "reader") = false) := by
  have viewer : roleModel.find (.composite "role" "reader") .claim =
      some ⟨3, "viewer", .composite "role" "viewer", .member, ["reader"], [], [], some 1⟩ := by
    decide +kernel
  have renamed :
      roleModel.MemberUnderAlias (.composite "role" "reader") (.composite "*" "reader") :=
    .intro viewer rfl (by decide) (by decide +kernel)
  have indexed := role_model_built.well_formed.toIndexed
  refine ⟨role_model_built, ⟨by decide +kernel, by decide +kernel⟩, by decide +kernel, ?_⟩
  rw [Bool.eq_false_iff, Ne, member_under_alias_match_iff indexed renamed]
  intro chained
  obtain ⟨start, id, _, found, chain, _⟩ := chained
  cases Option.some.inj (viewer.symm.trans found)
  exact role_viewer_ends id chain

end ClaimPolicy.Model
