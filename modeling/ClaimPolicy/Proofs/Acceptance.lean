import ClaimPolicy.Proofs.NameLevels
import ClaimPolicy.Proofs.Resolution

/-!
Which schemas are accepted. A schema is legal when it is not too large, its names may be declared
and are not repeated, its includes name what is declared, and no chain of includes leads back to its
start. The legal schemas are exactly those that become models, and any other schema is refused for
the first of these conditions that fails.
-/
namespace ClaimPolicy

theorem Name.declaration_fault_eq_none_iff (name : String) :
    declarationFault? name = none ↔ Legal name ∧ name ≠ wildcard := by
  by_cases wild : name = wildcard <;> simp [declarationFault?, Legal, wild]

namespace Schema

def Fits (schema : Schema) : Prop :=
  schema.size ≤ maxModelTokens

def NamesLegal (schema : Schema) : Prop :=
  ∀ key ∈ schema.keys, Name.Legal key ∧ key ≠ Name.wildcard

def IncludesResolve (schema : Schema) : Prop :=
  ∀ token declared, schema.Declares token declared →
    ∀ included ∈ declared.includes, ∃ target, schema.Resolves included target

def IncludesAcyclic (schema : Schema) : Prop :=
  ∀ token, ¬ Relation.TransGen schema.Includes token token

structure Legal (schema : Schema) : Prop where
  fits : schema.Fits
  named : schema.NamesLegal
  distinct : schema.NamesDistinct
  resolved : schema.IncludesResolve
  acyclic : schema.IncludesAcyclic

/-- The errors that a schema may be refused with. Size comes first, then the names, then what the
includes name, then cycles; each error says where its condition fails. -/
inductive RefusedFor (schema : Schema) : Error → Prop
  | tooManyTokens (large : ¬ schema.Fits) : RefusedFor schema (.tooManyTokens schema.size)
  | invalidName {key : String} {reason : NameFault} (fits : schema.Fits)
      (declared : key ∈ schema.keys) (broken : Name.declarationFault? key = some reason) :
      RefusedFor schema (.invalidName key reason)
  | duplicateName {text : String} (fits : schema.Fits) (repeated : schema.Repeats text) :
      RefusedFor schema (.duplicateName text)
  | unknownInclude {token : Token} {declared : TokenDeclaration} {included : String}
      (fits : schema.Fits) (named : schema.NamesLegal) (distinct : schema.NamesDistinct)
      (declares : schema.Declares token declared) (written : included ∈ declared.includes)
      (unknown : ¬ ∃ target, schema.Resolves included target) :
      RefusedFor schema (.unknownInclude token.text included)
  | includeCycle {token : Token} (fits : schema.Fits) (named : schema.NamesLegal)
      (distinct : schema.NamesDistinct) (resolved : schema.IncludesResolve)
      (cycle : Relation.TransGen schema.Includes token token) :
      RefusedFor schema (.includeCycle token.text)

variable {schema : Schema}

theorem not_legal_of_refused {fault : Error} (refused : schema.RefusedFor fault) :
    ¬ schema.Legal := by
  intro legal
  cases refused with
  | tooManyTokens large => exact large legal.fits
  | invalidName _ declared broken =>
      rw [(Name.declaration_fault_eq_none_iff _).mpr (legal.named _ declared)] at broken
      cases broken
  | duplicateName _ repeated => exact not_distinct_of_repeats repeated legal.distinct
  | unknownInclude _ _ _ declares written unknown =>
      exact unknown (legal.resolved _ _ declares _ written)
  | includeCycle _ _ _ _ cycle => exact legal.acyclic _ cycle

theorem register_accepts_iff (schema : Schema) :
    (∃ taken, Model.register schema.case [] schema.drafts = .ok taken) ↔
      schema.NamesLegal ∧ schema.NamesDistinct := by
  have named : (∀ draft ∈ schema.drafts, ∀ key ∈ draft.keys,
      Name.declarationFault? key = none) ↔ schema.NamesLegal := by
    simp only [NamesLegal, ← drafts_keys, List.mem_flatMap,
      ← Name.declaration_fault_eq_none_iff]
    grind
  rw [Model.register_eq_ok, named, slots_nodup_iff]
  simp

theorem includes_resolve_of_resolved (registered : Draft.Registered schema.case schema.drafts)
    {definitions : List Definition}
    (resolved : schema.unresolved.resolveDrafts schema.drafts = .ok definitions) :
    schema.IncludesResolve := by
  intro token declared declares included written
  obtain ⟨draft, among, _, rfl, rfl⟩ := (declares_iff _ _).mp declares
  obtain ⟨place, drafted⟩ := List.getElem?_of_mem among
  obtain ⟨_, _, _, here, _⟩ := forall₂_at_left (Model.resolve_drafts_pairs resolved) drafted
  exact ((unresolved_filled registered).resolvable_iff included).mpr
    (Model.resolve_includes_each here included written)

theorem legal_of_build {model : Model} (accepted : schema.build = .ok model) : schema.Legal := by
  obtain ⟨fits, ⟨taken, registration⟩, definitions, resolution, rfl, checked⟩ :=
    (schema.build_eq_ok model).mp accepted
  have registered := registered_of_register registration
  obtain ⟨named, distinct⟩ := schema.register_accepts_iff.mp ⟨taken, registration⟩
  have acyclic := (Model.check_acyclic_eq_ok _).mp checked
  exact ⟨fits, named, distinct, includes_resolve_of_resolved registered resolution,
    (resolved_from registered resolution).acyclic_iff.mp acyclic⟩

theorem refused_of_build {fault : Error} (refused : schema.build = .error fault) :
    schema.RefusedFor fault := by
  rcases (schema.build_eq_error fault).mp refused with ⟨large, rfl⟩ | ⟨fits, cause⟩
  · exact .tooManyTokens (Nat.not_le_of_lt large)
  rcases cause with unregistered | ⟨taken, registration, cause⟩
  · obtain ⟨draft, among, key, member, cause⟩ := Model.register_fault unregistered
    rcases cause with ⟨reason, broken, rfl⟩ | ⟨rfl, twice⟩
    · have declared : key ∈ schema.keys :=
        drafts_keys schema ▸ List.mem_flatMap.mpr ⟨draft, among, member⟩
      exact .invalidName fits declared broken
    · rw [List.append_nil] at twice
      exact .duplicateName fits (repeats_of_slot among member twice)
  have registered := registered_of_register registration
  obtain ⟨named, distinct⟩ := schema.register_accepts_iff.mp ⟨taken, registration⟩
  rcases cause with unresolvable | ⟨definitions, resolution, cyclic⟩
  · obtain ⟨draft, among, included, written, unknown, rfl⟩ :=
      Model.resolve_drafts_fault unresolvable
    rw [← (unresolved_filled registered).resolvable_iff] at unknown
    exact .unknownInclude fits named distinct (draft_declares among written) written unknown
  · obtain ⟨id, definition, found, chain, rfl⟩ := Model.check_acyclic_eq_error cyclic
    have cycle := (resolved_from registered resolution).trans_gen_of_chain chain
      ⟨definition, found, rfl⟩ ⟨definition, found, rfl⟩
    exact .includeCycle fits named distinct (includes_resolve_of_resolved registered resolution)
      cycle

/-- The legal schemas are those that can be built, and a schema that cannot be built is refused for
the first condition of legality that it fails. -/
theorem build_accepts_legal (schema : Schema) :
    ((∃ model, schema.build = .ok model) ↔ schema.Legal) ∧
      ∀ fault, schema.build = .error fault → schema.RefusedFor fault := by
  refine ⟨⟨fun accepted => legal_of_build accepted.choose_spec, ?_⟩,
    fun _ => refused_of_build⟩
  intro legal
  cases outcome : schema.build with
  | ok model => exact ⟨model, rfl⟩
  | error fault => exact absurd legal (not_legal_of_refused (refused_of_build outcome))

def loopSchema : Schema where
  declarations := [
    .atom ⟨"admin", ["root"], ["role:editor"]⟩,
    .composite ⟨"role", [], [⟨"editor", [], ["ROOT"]⟩]⟩]

def loopDefinitions : List Definition := [
  ⟨0, "admin", .atom "admin", .atom, ["root"], [2], [], none⟩,
  ⟨1, "role", .composite "role" "*", .composite, [], [], [2], none⟩,
  ⟨2, "editor", .composite "role" "editor", .member, [], [0], [], some 1⟩]

theorem loop_refused : loopSchema.build = .error (.includeCycle "admin") ∧
    loopSchema.RefusedFor (.includeCycle "admin") := by
  have registration : Model.register loopSchema.case [] loopSchema.drafts =
      .ok [(some 1, "editor"), (none, "role"), (none, "root"), (none, "admin")] := by
    decide +kernel
  have resolution : loopSchema.unresolved.resolveDrafts loopSchema.drafts =
      .ok loopDefinitions := by
    decide +kernel
  have cyclic : (Model.ofDefinitions loopSchema.case loopDefinitions).checkAcyclic =
      .error (.includeCycle "admin") := by
    have ids : List.range (Model.ofDefinitions loopSchema.case loopDefinitions).size =
        [0, 1, 2] := by
      decide
    rw [Model.checkAcyclic, Model.cycle?, ids]
    simp [Model.searchFrom, Model.searchCycle, Model.onPath, Model.includesOf, Model.size,
      Model.ofDefinitions, Model.get?, loopDefinitions, Token.text]
  have refused : loopSchema.build = .error (.includeCycle "admin") := by
    apply (build_eq_error _ _).mpr
    exact Or.inr ⟨by decide, Or.inr ⟨_, registration, Or.inr ⟨_, resolution, cyclic⟩⟩⟩
  exact ⟨refused, (build_accepts_legal loopSchema).2 _ refused⟩

end Schema

end ClaimPolicy
