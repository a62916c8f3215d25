import ClaimPolicy.Proofs.Families
import ClaimPolicy.Proofs.Matching
import ClaimPolicy.Proofs.NormalForm

/-!
The meaning of tokens, read off the schema. Which tokens a built model knows, how it spells them and
which of them meet which depend on what is declared and not on the places where the definitions
stand. A legal schema gives each written token at most one meaning, and declares each full token at
most once.
-/
namespace ClaimPolicy

namespace Schema

/-- What a token means as a claim, and how it is spelled: an atom or member, or all members of a
composite. -/
inductive Spells (schema : Schema) : Token → Token → Prop
  | concrete {written target : Token} (names : schema.Names written target) :
      Spells schema written target
  | family {owner : CompositeDeclaration} {parent : String}
      (listed : .composite owner ∈ schema.declarations)
      (named : schema.case.Lists owner.keys parent) :
      Spells schema (.composite parent Name.wildcard) (.composite owner.name Name.wildcard)

theorem composite_draft_among {schema : Schema} {declared : CompositeDeclaration}
    (listed : .composite declared ∈ schema.declarations) :
    ∃ place, declared.draft place ∈ schema.drafts := by
  obtain ⟨place, block⟩ := lay_out_block_of_declaration 0 listed
  exact ⟨place, block List.mem_cons_self⟩

theorem build_of_legal {schema : Schema} (legal : schema.Legal) :
    ∃ model, schema.build = .ok model := by
  cases outcome : schema.build with
  | ok model => exact ⟨model, rfl⟩
  | error fault => exact absurd legal (not_legal_of_refused (refused_of_build outcome))

theorem Names.declared {schema : Schema} {written target : Token}
    (names : schema.Names written target) : ∃ declared, schema.Declares target declared := by
  cases names with
  | atom listed => exact ⟨_, .atom listed⟩
  | member listed inside => exact ⟨_, .member listed inside⟩

theorem Includes.declared {schema : Schema} {source target : Token}
    (step : schema.Includes source target) : ∃ declared, schema.Declares target declared := by
  obtain ⟨_, _, _, _, _, _, names⟩ := step
  exact names.declared

end Schema

namespace Model

variable {model : Model} {schema : Schema}

theorem find_claim_concrete {parent child : String} (concrete : child ≠ Name.wildcard) :
    model.findId (.composite parent child) .claim =
      model.findId (.composite parent child) .strict := by
  have notWild : (child == Name.wildcard) = false := by simpa using concrete
  simp [findId, notWild]

theorem FilledFrom.spells_of_find (filled : model.FilledFrom schema) {written : Token} {id : Nat}
    {definition : Definition} (found : model.findId written .claim = some id)
    (here : model.get? id = some definition) : schema.Spells written definition.token := by
  have strictly :
      model.findId written .strict = some id → schema.Spells written definition.token := by
    intro strict
    obtain ⟨_, there, names⟩ := filled.names_of_find strict
    exact .concrete (Option.some.inj (here.symm.trans there) ▸ names)
  cases written with
  | atom name => exact strictly found
  | composite parent child =>
      by_cases wild : child = Name.wildcard
      · subst wild
        obtain ⟨_, owner, there, kind, answers⟩ :=
          (find_wildcard_iff filled.indexed _ _ _).mp found
        have same : owner = definition := Option.some.inj (there.symm.trans here)
        subst same
        obtain ⟨draft, among, _, includes, rfl⟩ := filled.drafted here
        have named := ((Draft.answers_iff _ _ _ _ _).mp answers).2
        cases Schema.draft_origin among with
        | atom => cases kind
        | composite listed => exact .family listed (filled.mode ▸ named)
        | member => cases kind
      · exact strictly (find_claim_concrete wild ▸ found)

/-- The canonical spelling of a token is read off the schema. -/
theorem FilledFrom.canonical_iff (filled : model.FilledFrom schema) (written target : Token) :
    model.canonical written = some target ↔ schema.Spells written target := by
  rw [canonical_eq_some_iff]
  constructor
  · intro spelled
    obtain ⟨id, definition, found, here, rfl⟩ := spelled
    exact filled.spells_of_find found here
  · intro spelled
    cases spelled with
    | concrete names =>
        obtain ⟨id, strict, definition, here, same⟩ := filled.find_of_names names
        exact ⟨id, definition, find_claim_of_strict strict, here, same⟩
    | @family owner parent listed named =>
        obtain ⟨place, among⟩ := Schema.composite_draft_among listed
        obtain ⟨includes, here⟩ := filled.defined among
        rw [← filled.mode] at named
        have answers := (Draft.answers_iff model.case (owner.draft place) includes none parent).mpr
          ⟨rfl, named⟩
        exact ⟨place, _, (find_wildcard_iff filled.indexed _ _ _).mpr
          ⟨rfl, _, here, rfl, answers⟩, here, rfl⟩

/-- So is matching: directly, or through includes between full tokens. -/
theorem ResolvedFrom.match_iff (resolved : model.ResolvedFrom schema) (source target : Token) :
    model.tokenMatch source target = true ↔
      Token.meets model.case (model.canonicalOrSelf source)
        (model.canonicalOrSelf target) = true ∨
        ∃ start reached, schema.Names (model.canonicalOrSelf source) start ∧
          Relation.TransGen schema.Includes start reached ∧
            Token.meets model.case reached (model.canonicalOrSelf target) = true := by
  rw [token_match_iff]
  refine or_congr_right ⟨?_, ?_⟩
  · intro walked
    obtain ⟨start, id, definition, found, chain, there, met⟩ := walked
    obtain ⟨origin, here, names⟩ := resolved.names_of_find found
    exact ⟨origin.token, definition.token, names,
      resolved.trans_gen_of_chain chain ⟨origin, here, rfl⟩ ⟨definition, there, rfl⟩, met⟩
  · intro named
    obtain ⟨start, reached, names, chain, met⟩ := named
    obtain ⟨first, last, starts, ends, walked⟩ := resolved.chain_of_trans_gen chain
    obtain ⟨id, found, stands⟩ := resolved.find_of_names names
    have same : id = first := token_at_unique resolved.indexed stands starts
    subst same
    obtain ⟨definition, there, rfl⟩ := ends
    exact ⟨id, last, definition, found, walked, there, met⟩

namespace FilledFrom

theorem names_unique (filled : model.FilledFrom schema) {written left right : Token}
    (first : schema.Names written left) (second : schema.Names written right) : left = right := by
  obtain ⟨id, found, definition, here, rfl⟩ := filled.find_of_names first
  obtain ⟨other, again, opposite, there, rfl⟩ := filled.find_of_names second
  have place : id = other := Option.some.inj (found.symm.trans again)
  subst place
  have same : definition = opposite := Option.some.inj (here.symm.trans there)
  rw [same]

theorem resolves_unique (filled : model.FilledFrom schema) {included : String} {left right : Token}
    (first : schema.Resolves included left) (second : schema.Resolves included right) :
    left = right := by
  obtain ⟨written, read, names⟩ := first
  obtain ⟨other, again, named⟩ := second
  have same : written = other := Except.ok.inj (read.symm.trans again)
  subst same
  exact filled.names_unique names named

theorem names_concrete (filled : model.FilledFrom schema) {written target : Token}
    (names : schema.Names written target) : written.isWildcard = false := by
  obtain ⟨_, found, _⟩ := filled.find_of_names names
  exact (find_strict_concrete filled.indexed found).1

theorem declares_unique (filled : model.FilledFrom schema) {token : Token}
    {one other : TokenDeclaration} (first : schema.Declares token one)
    (second : schema.Declares token other) : one = other := by
  obtain ⟨draft, among, _, here, rfl⟩ := (Schema.declares_iff _ _).mp first
  obtain ⟨opposite, beside, _, there, rfl⟩ := (Schema.declares_iff _ _).mp second
  have left := (filled.token_at_iff draft.id token).mpr ⟨draft, among, rfl, here⟩
  have right := (filled.token_at_iff opposite.id token).mpr ⟨opposite, beside, rfl, there⟩
  have same := Schema.draft_at_unique among beside (token_at_unique filled.indexed left right)
  rw [same]

end FilledFrom

theorem knows_iff_canonical (indexed : model.Indexed) (token : Token) :
    model.knows token = true ↔
      (∃ target, model.canonical token = some target) ∨
        token = .atom Name.wildcard ∧ model.hasAtoms = true := by
  have found : (model.findId token .claim).isSome = true ↔
      ∃ target, model.canonical token = some target := by
    simp only [canonical_eq_some_iff, Option.isSome_iff_exists]
    constructor
    · intro found
      obtain ⟨id, found⟩ := found
      obtain ⟨definition, here⟩ := find_id_found indexed found
      exact ⟨_, id, definition, found, here, rfl⟩
    · intro spelled
      obtain ⟨_, id, _, found, _⟩ := spelled
      exact ⟨id, found⟩
  have wild : (token.isAtom && token.isWildcard) = true ↔ token = .atom Name.wildcard := by
    cases token with
    | atom name => simp [Token.isAtom, Token.isWildcard, Token.parts, eq_comm]
    | composite parent child => simp [Token.isAtom]
  rw [knows, Bool.or_eq_true, Bool.and_eq_true, found, wild]

theorem BuiltFrom.has_atoms_iff (built : model.BuiltFrom schema) :
    model.hasAtoms = true ↔ ∃ declared, .atom declared ∈ schema.declarations := by
  have kinds : (model.roots.filterMap model.get?).map Definition.kind =
      schema.declarations.map Declaration.kind :=
    built.roots_map _ _ fun declared _ _ _ => by cases declared <;> rfl
  have listed : model.hasAtoms = true ↔ .atom ∈ schema.declarations.map Declaration.kind := by
    rw [← kinds, hasAtoms, atoms, rootsOf]
    simp only [Bool.not_eq_true', List.isEmpty_eq_false_iff_exists_mem, List.mem_filter,
      List.mem_map, beq_iff_eq]
  rw [listed, List.mem_map]
  constructor
  · intro atom
    obtain ⟨declared, member, kind⟩ := atom
    cases declared with
    | atom declared => exact ⟨declared, member⟩
    | composite => cases kind
  · intro atom
    obtain ⟨declared, member⟩ := atom
    exact ⟨_, member, rfl⟩

/-- The known tokens are those that have a meaning, and the wildcard if there is an atom. -/
theorem BuiltFrom.knows_iff (built : model.BuiltFrom schema) (token : Token) :
    model.knows token = true ↔ (∃ target, schema.Spells token target) ∨
      token = .atom Name.wildcard ∧ ∃ declared, .atom declared ∈ schema.declarations := by
  simp only [knows_iff_canonical built.indexed, built.canonical_iff, built.has_atoms_iff]

theorem knows_canonical_or_self (indexed : model.Indexed) (token : Token) :
    model.knows (model.canonicalOrSelf token) = model.knows token := by
  cases found : model.findId token .claim with
  | none => rw [canonical_or_self_of_none found]
  | some id =>
      have again := find_canonical_or_self indexed token
      rw [knows, knows, again, found]
      rfl

end Model

end ClaimPolicy
