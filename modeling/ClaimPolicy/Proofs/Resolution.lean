import Mathlib.Logic.Relation
import ClaimPolicy.Proofs.Acyclicity
import ClaimPolicy.Proofs.Construction
import ClaimPolicy.Proofs.Declared

/-!
The resolution of includes. It goes through exactly when every written include names a declared atom
or member, and fails on one that does not. Then the includes of the model, from place to place, are
those of the schema, from full token to full token, and the model has a cycle exactly when the
schema has one.
-/
namespace ClaimPolicy

namespace Model

variable {model : Model}

theorem resolve_includes_each {owner : String} {written : List String} {targets : List Nat}
    (resolved : model.resolveIncludes owner written = .ok targets) :
    ∀ included ∈ written, ∃ target, model.Resolves included target := by
  induction written generalizing targets with
  | nil => exact fun _ member => absurd member List.not_mem_nil
  | cons included rest ih =>
      rw [resolveIncludes] at resolved
      split at resolved
      · cases resolved
      · next found here =>
          obtain ⟨_, restResolved, _⟩ := (bind_eq_ok _ _ _).mp resolved
          exact List.forall_mem_cons.mpr
            ⟨⟨found, (resolves_iff _ _ _).mp here⟩, ih restResolved⟩

theorem resolve_includes_fault {owner : String} {written : List String} {fault : Error}
    (refused : model.resolveIncludes owner written = .error fault) :
    ∃ included ∈ written, (¬ ∃ target, model.Resolves included target) ∧
      fault = .unknownInclude owner included := by
  induction written with
  | nil => cases refused
  | cons included rest ih =>
      rw [resolveIncludes] at refused
      split at refused
      · next nothing =>
          cases refused
          refine ⟨included, List.mem_cons_self, ?_, rfl⟩
          intro resolvable
          obtain ⟨target, resolves⟩ := resolvable
          rw [← resolves_iff, nothing] at resolves
          cases resolves
      · rcases (bind_eq_error _ _ _).mp refused with here | ⟨_, _, impossible⟩
        · obtain ⟨other, member, unresolvable, same⟩ := ih here
          exact ⟨other, List.mem_cons_of_mem _ member, unresolvable, same⟩
        · cases impossible

theorem resolve_drafts_fault {drafts : List Draft} {fault : Error}
    (refused : model.resolveDrafts drafts = .error fault) :
    ∃ draft ∈ drafts, ∃ included ∈ draft.includes,
      (¬ ∃ target, model.Resolves included target) ∧
      fault = .unknownInclude draft.token.text included := by
  induction drafts with
  | nil => cases refused
  | cons draft drafts ih =>
      rw [resolveDrafts] at refused
      rcases (bind_eq_error _ _ _).mp refused with here | ⟨_, _, rest⟩
      · exact ⟨draft, List.mem_cons_self, resolve_includes_fault here⟩
      · rcases (bind_eq_error _ _ _).mp rest with later | ⟨_, _, impossible⟩
        · obtain ⟨other, member, unresolvable⟩ := ih later
          exact ⟨other, List.mem_cons_of_mem _ member, unresolvable⟩
        · cases impossible

theorem token_at_unique (indexed : model.Indexed) {first second : Nat} {token : Token}
    (left : model.TokenAt first token) (right : model.TokenAt second token) : first = second := by
  obtain ⟨definition, found, rfl⟩ := left
  obtain ⟨other, there, same⟩ := right
  have again := find_own_token indexed there
  rw [same, find_own_token indexed found] at again
  exact Option.some.inj again

theorem token_at_of_lt {id : Nat} (inside : id < model.size) : ∃ token, model.TokenAt id token :=
  ⟨_, model.definitions[id], Array.getElem?_eq_getElem inside, rfl⟩

theorem lt_of_token_at {id : Nat} {token : Token} (stands : model.TokenAt id token) :
    id < model.size := by
  obtain ⟨_, found, _⟩ := stands
  exact (Array.getElem?_eq_some_iff.mp found).1

theorem FilledFrom.resolves_iff {schema : Schema} (filled : model.FilledFrom schema)
    (included : String) (target : Token) : schema.Resolves included target ↔
      ∃ id, model.Resolves included id ∧ model.TokenAt id target := by
  unfold Schema.Resolves Model.Resolves
  simp only [filled.names_iff]
  grind

theorem FilledFrom.resolvable_iff {schema : Schema} (filled : model.FilledFrom schema)
    (included : String) :
    (∃ target, schema.Resolves included target) ↔ ∃ id, model.Resolves included id := by
  simp only [filled.resolves_iff]
  constructor
  · intro named
    obtain ⟨_, id, resolves, _⟩ := named
    exact ⟨id, resolves⟩
  · intro found
    obtain ⟨id, written, parsed, here⟩ := found
    obtain ⟨definition, there⟩ := find_id_found filled.indexed here
    exact ⟨definition.token, id, ⟨written, parsed, here⟩, definition, there, rfl⟩

/-- A model filled in from a schema whose includes are those that the schema writes. -/
structure ResolvedFrom (model : Model) (schema : Schema) : Prop
    extends model.FilledFrom schema where
  includes_iff : ∀ {source target}, schema.Includes source target ↔
    ∃ first last, model.TokenAt first source ∧ model.TokenAt last target ∧
      model.Includes first last

namespace ResolvedFrom

variable {schema : Schema}

theorem chain_of_trans_gen (resolved : model.ResolvedFrom schema) {source target : Token}
    (chain : Relation.TransGen schema.Includes source target) : ∃ first last,
      model.TokenAt first source ∧ model.TokenAt last target ∧
      model.IncludesChain first last := by
  induction chain with
  | single step =>
      obtain ⟨first, last, starts, ends, step⟩ := resolved.includes_iff.mp step
      exact ⟨first, last, starts, ends, .single step⟩
  | tail _ step ih =>
      obtain ⟨first, middle, starts, between, chain⟩ := ih
      obtain ⟨same, last, again, ends, step⟩ := resolved.includes_iff.mp step
      have joined : same = middle := token_at_unique resolved.indexed again between
      subst joined
      exact ⟨first, last, starts, ends, chain_trans chain (.single step)⟩

theorem trans_gen_of_chain (resolved : model.ResolvedFrom schema) {first last : Nat}
    (chain : model.IncludesChain first last) {source target : Token}
    (starts : model.TokenAt first source) (ends : model.TokenAt last target) :
    Relation.TransGen schema.Includes source target := by
  induction chain generalizing source with
  | single step => exact .single (resolved.includes_iff.mpr ⟨_, _, starts, ends, step⟩)
  | cons step _ ih =>
      obtain ⟨between, stands⟩ := token_at_of_lt step.2
      exact .head (resolved.includes_iff.mpr ⟨_, _, starts, stands, step⟩) (ih stands ends)

theorem acyclic_iff (resolved : model.ResolvedFrom schema) :
    model.Acyclic ↔ ∀ token, ¬ Relation.TransGen schema.Includes token token := by
  constructor
  · intro acyclic token cycle
    obtain ⟨first, last, starts, ends, chain⟩ := resolved.chain_of_trans_gen cycle
    have closed : first = last := token_at_unique resolved.indexed starts ends
    subst closed
    exact acyclic first chain
  · intro acyclic id chain
    obtain ⟨token, stands⟩ := token_at_of_lt (chain_source_lt chain)
    exact acyclic token (resolved.trans_gen_of_chain chain stands stands)

end ResolvedFrom

end Model

namespace Schema

variable {schema : Schema}

theorem unresolved_filled (registered : Draft.Registered schema.case schema.drafts) :
    schema.unresolved.FilledFrom schema :=
  registered.filled (filled_by (fun _ => []) schema.drafts)

theorem draft_declares {draft : Draft} (among : draft ∈ schema.drafts) {included : String}
    (member : included ∈ draft.includes) :
    schema.Declares draft.token ⟨draft.name, draft.aliases, draft.includes⟩ := by
  apply (declares_iff _ _).mpr
  refine ⟨draft, among, ?_, rfl, rfl⟩
  -- Only atoms and members carry includes.
  cases draft_origin among with
  | atom => exact nofun
  | composite => exact absurd member List.not_mem_nil
  | member => exact nofun

/-- What the resolution gives, read off the schema: the includes that a draft gets are looked up in
a model with the same tokens at the same places. -/
theorem resolved_from (registered : Draft.Registered schema.case schema.drafts)
    {definitions : List Definition}
    (resolved : schema.unresolved.resolveDrafts schema.drafts = .ok definitions) :
    (Model.ofDefinitions schema.case definitions).ResolvedFrom schema := by
  have pairs := Model.resolve_drafts_pairs resolved
  have looked := unresolved_filled registered
  have filled : (Model.ofDefinitions schema.case definitions).FilledFrom schema :=
    registered.filled (Model.resolve_drafts_filled resolved)
  have resolution : ∀ {place : Nat} {draft : Draft}, schema.drafts[place]? = some draft →
      ∀ target, target ∈ (Model.ofDefinitions schema.case definitions).includesOf place ↔
        ∃ included ∈ draft.includes, schema.unresolved.Resolves included target := by
    intro place draft drafted target
    obtain ⟨_, found, includes, here, rfl⟩ := forall₂_at_left pairs drafted
    rw [← Model.mem_resolve_includes here, Model.includesOf, Model.of_definitions_get, found]
    rfl
  refine { filled with includes_iff := ?_ }
  intro source target
  constructor
  · intro step
    obtain ⟨declared, declares, included, member, resolves⟩ := step
    obtain ⟨draft, among, _, rfl, rfl⟩ := (declares_iff _ _).mp declares
    obtain ⟨last, found, stands⟩ := (looked.resolves_iff _ _).mp resolves
    have ends := (filled.token_at_iff _ _).mpr ((looked.token_at_iff _ _).mp stands)
    obtain ⟨place, drafted⟩ := List.getElem?_of_mem among
    have starts := (filled.token_at_iff _ _).mpr ⟨draft, among, registered.placed drafted, rfl⟩
    exact ⟨place, last, starts, ends, (resolution drafted last).mpr ⟨included, member, found⟩,
      Model.lt_of_token_at ends⟩
  · intro step
    obtain ⟨first, last, starts, ends, listed, _⟩ := step
    obtain ⟨draft, among, rfl, rfl⟩ := (filled.token_at_iff _ _).mp starts
    obtain ⟨place, drafted⟩ := List.getElem?_of_mem among
    rw [registered.placed drafted] at listed
    obtain ⟨included, member, found⟩ := (resolution drafted last).mp listed
    have stands := (looked.token_at_iff _ _).mpr ((filled.token_at_iff _ _).mp ends)
    exact ⟨_, draft_declares among member, included, member,
      (looked.resolves_iff _ _).mpr ⟨last, found, stands⟩⟩

end Schema

end ClaimPolicy
