import ClaimPolicy.Proofs.Acyclicity
import ClaimPolicy.Proofs.Lookup

/-!
Building a model from a schema. The build goes through exactly when each of its checks does, and
then the model is the one of the drafts with their resolved includes. Every built model is well
formed.
-/
namespace ClaimPolicy

namespace Model

def Resolves (model : Model) (included : String) (target : Nat) : Prop :=
  ∃ written, Token.parse included = .ok written ∧ model.findId written .strict = some target

theorem resolves_iff (model : Model) (included : String) (target : Nat) :
    (Token.parse included).toOption.bind (model.findId · .strict) = some target ↔
      model.Resolves included target := by
  unfold Resolves
  cases Token.parse included with
  | error fault => simp [Except.toOption]
  | ok written => simp [Except.toOption]

theorem mem_resolve_includes {model : Model} {owner : String} {written : List String}
    {targets : List Nat} (resolved : model.resolveIncludes owner written = .ok targets)
    (target : Nat) : target ∈ targets ↔
      ∃ included ∈ written, model.Resolves included target := by
  induction written generalizing targets with
  | nil =>
      cases resolved
      simp
  | cons included rest ih =>
      rw [resolveIncludes] at resolved
      split at resolved
      · cases resolved
      · next found here =>
          obtain ⟨others, restResolved, same⟩ := (bind_eq_ok _ _ _).mp resolved
          cases same
          have first : model.Resolves included target ↔ target = found := by
            rw [← resolves_iff, here, Option.some.injEq, eq_comm]
          simp only [List.mem_cons, List.mem_filter, ih restResolved, exists_eq_or_imp, first]
          by_cases again : target = found <;> simp [again]

theorem resolve_includes_nodup {model : Model} {owner : String} {written : List String}
    {targets : List Nat} (resolved : model.resolveIncludes owner written = .ok targets) :
    targets.Nodup := by
  induction written generalizing targets with
  | nil =>
      cases resolved
      exact List.nodup_nil
  | cons included rest ih =>
      rw [resolveIncludes] at resolved
      split at resolved
      · cases resolved
      · obtain ⟨others, restResolved, same⟩ := (bind_eq_ok _ _ _).mp resolved
        cases same
        refine List.nodup_cons.mpr ⟨?_, (ih restResolved).filter _⟩
        simp

theorem resolve_includes_congr {first second : Model}
    (same : ∀ token, first.findId token .strict = second.findId token .strict) (owner : String)
    (written : List String) :
    first.resolveIncludes owner written = second.resolveIncludes owner written := by
  induction written with
  | nil => rfl
  | cons included rest ih => simp only [resolveIncludes, same, ih]

theorem resolve_drafts_pairs {model : Model} {drafts : List Draft}
    {definitions : List Definition} (resolved : model.resolveDrafts drafts = .ok definitions) :
    List.Forall₂ (fun draft definition => ∃ includes,
      model.resolveIncludes draft.token.text draft.includes = .ok includes ∧
        definition = draft.definition includes) drafts definitions := by
  induction drafts generalizing definitions with
  | nil =>
      cases resolved
      exact .nil
  | cons draft drafts ih =>
      rw [resolveDrafts] at resolved
      obtain ⟨includes, here, rest⟩ := (bind_eq_ok _ _ _).mp resolved
      obtain ⟨others, later, same⟩ := (bind_eq_ok _ _ _).mp rest
      cases same
      exact .cons ⟨includes, here, rfl⟩ (ih later)

theorem resolve_drafts_filled {model : Model} {drafts : List Draft} {definitions : List Definition}
    (resolved : model.resolveDrafts drafts = .ok definitions) : Draft.Filled drafts definitions :=
  (resolve_drafts_pairs resolved).imp fun _ _ ⟨includes, _, same⟩ => ⟨includes, same⟩

theorem resolve_drafts_of_pairs {model : Model} {drafts : List Draft}
    {definitions : List Definition}
    (pairs : List.Forall₂ (fun draft definition =>
      model.resolveIncludes draft.token.text draft.includes = .ok definition.includes ∧
        definition = draft.definition definition.includes) drafts definitions) :
    model.resolveDrafts drafts = .ok definitions := by
  induction pairs with
  | nil => rfl
  | cons head _ ih =>
      obtain ⟨resolved, same⟩ := head
      rw [resolveDrafts, resolved, ih, same]
      rfl

theorem find_id_before_includes {mode : CaseMode} {drafts : List Draft}
    {definitions : List Definition} (filled : Draft.Filled drafts definitions) (token : Token)
    (lookup : LookupMode) :
    (ofDefinitions mode (drafts.map fun draft => draft.definition [])).findId token lookup =
      (ofDefinitions mode definitions).findId token lookup := by
  have index := filled.map_eq (slotsOf mode) fun _ _ => rfl
  have kinds := filled.map_eq Definition.kind fun _ _ => rfl
  apply find_id_agrees
  · intro level name
    change ((drafts.map fun draft => draft.definition []).flatMap (slotsOf mode)).lookup
        (level, mode.fold name) =
          (definitions.flatMap (slotsOf mode)).lookup (level, mode.fold name)
    rw [List.flatMap_def, List.flatMap_def, index]
  · intro id
    rw [of_definitions_get, of_definitions_get, ← List.getElem?_map, ← List.getElem?_map, kinds]

end Model

/-- A definition has what its draft says, and the aliases in order. -/
def Draft.Becomes (draft : Draft) (definition : Definition) : Prop :=
  definition = { draft.definition definition.includes with aliases := definition.aliases } ∧
    draft.aliases.Perm definition.aliases ∧ definition.aliases.Pairwise (· ≤ ·)

instance (draft : Draft) (definition : Definition) : Decidable (draft.Becomes definition) :=
  inferInstanceAs (Decidable (_ ∧ _ ∧ _))

theorem Draft.Becomes.eq {draft : Draft} {definition : Definition}
    (becomes : draft.Becomes definition) :
    definition = draft.definition definition.includes := by
  obtain ⟨same, permuted, increasing⟩ := becomes
  rw [same]
  simp only [Draft.definition, Name.sorted_eq permuted increasing]

namespace Schema

def unresolved (schema : Schema) : Model :=
  Model.ofDefinitions schema.case (schema.drafts.map fun draft => draft.definition [])

theorem build_eq_ok (schema : Schema) (model : Model) :
    schema.build = .ok model ↔ schema.size ≤ maxModelTokens ∧
      (∃ taken, Model.register schema.case [] schema.drafts = .ok taken) ∧
        ∃ definitions, schema.unresolved.resolveDrafts schema.drafts = .ok definitions ∧
          model = Model.ofDefinitions schema.case definitions ∧ model.checkAcyclic = .ok () := by
  unfold build
  by_cases tooMany : maxModelTokens < schema.size
  · have fits : ¬ schema.size ≤ maxModelTokens := by omega
    simp [tooMany, fits, bind, Except.bind, throw, throwThe, MonadExceptOf.throw]
  · have fits : schema.size ≤ maxModelTokens := by omega
    rw [if_neg tooMany]
    simp only [bind_eq_ok, pure, Except.pure, Except.ok.injEq, fits, true_and, unresolved]
    grind

theorem build_eq_error (schema : Schema) (fault : Error) :
    schema.build = .error fault ↔
      maxModelTokens < schema.size ∧ fault = .tooManyTokens schema.size ∨
        schema.size ≤ maxModelTokens ∧
          (Model.register schema.case [] schema.drafts = .error fault ∨
            ∃ taken, Model.register schema.case [] schema.drafts = .ok taken ∧
              (schema.unresolved.resolveDrafts schema.drafts = .error fault ∨
                ∃ definitions, schema.unresolved.resolveDrafts schema.drafts = .ok definitions ∧
                  (Model.ofDefinitions schema.case definitions).checkAcyclic = .error fault)) := by
  unfold build
  by_cases tooMany : maxModelTokens < schema.size
  · have large : ¬ schema.size ≤ maxModelTokens := by omega
    simp [tooMany, large, bind, Except.bind, throw, throwThe, MonadExceptOf.throw, eq_comm]
  · have fits : schema.size ≤ maxModelTokens := by omega
    rw [if_neg tooMany]
    simp only [bind_eq_error, pure, Except.pure, reduceCtorEq, and_false, exists_false, or_false,
      tooMany, false_and, false_or, fits, true_and, unresolved]

/-- A schema builds a model when no stage stops: every name is legal and free, the includes resolve,
and they make no cycle. -/
theorem build_of_stages {schema : Schema} {model : Model} {definitions : List Definition}
    (fits : schema.size ≤ maxModelTokens)
    (named : ∀ draft ∈ schema.drafts, ∀ key ∈ draft.keys, Name.declarationFault? key = none)
    (distinct : (schema.drafts.flatMap (Draft.slots schema.case)).Nodup)
    (resolved : schema.unresolved.resolveDrafts schema.drafts = .ok definitions)
    (filled : model = Model.ofDefinitions schema.case definitions)
    (acyclic : model.checkAcyclic = .ok ()) : schema.build = .ok model := by
  have registration : ∃ taken, Model.register schema.case [] schema.drafts = .ok taken :=
    (Model.register_eq_ok _ _ _).mpr ⟨named, distinct, fun _ _ => List.not_mem_nil⟩
  exact (schema.build_eq_ok model).mpr
    ⟨fits, registration, definitions, resolved, filled, acyclic⟩

/-- The same when each definition is given beside its draft: places, tokens and includes are
compared, and nothing is sorted. -/
theorem build_of_layout {schema : Schema} {model : Model}
    (fits : schema.size ≤ maxModelTokens)
    (named : ∀ draft ∈ schema.drafts, ∀ key ∈ draft.keys, Name.declarationFault? key = none)
    (distinct : (schema.drafts.flatMap (Draft.slots schema.case)).Nodup)
    (laidOut : List.Forall₂ (fun draft definition => draft.Becomes definition ∧
      model.resolveIncludes draft.token.text draft.includes = .ok definition.includes)
        schema.drafts model.definitions.toList)
    (filled : model = Model.ofDefinitions schema.case model.definitions.toList)
    (acyclic : model.checkAcyclic = .ok ()) : schema.build = .ok model := by
  have whole : Draft.Filled schema.drafts model.definitions.toList :=
    laidOut.imp fun _ definition each => ⟨definition.includes, each.1.eq⟩
  have found (token : Token) :
      schema.unresolved.findId token .strict = model.findId token .strict := by
    rw [filled]
    exact Model.find_id_before_includes whole token .strict
  have resolved := Model.resolve_drafts_of_pairs (laidOut.imp fun draft definition each =>
    ⟨(Model.resolve_includes_congr found draft.token.text draft.includes).trans each.2,
     each.1.eq⟩)
  exact build_of_stages fits named distinct resolved filled acyclic

theorem registered_of_register {schema : Schema} {taken : List Slot}
    (accepted : Model.register schema.case [] schema.drafts = .ok taken) :
    Draft.Registered schema.case schema.drafts := by
  obtain ⟨named, distinct, _⟩ := (Model.register_eq_ok _ _ _).mp ⟨taken, accepted⟩
  exact ⟨schema.drafts_placed, schema.drafts_stand, named, distinct⟩

theorem filled_by (includes : Draft → List Nat) (drafts : List Draft) :
    Draft.Filled drafts (drafts.map fun draft => draft.definition (includes draft)) :=
  List.forall₂_map_right_iff.mpr
    (List.forall₂_same.mpr fun draft _ => ⟨includes draft, rfl⟩)

theorem unresolved_indexed {schema : Schema}
    (registered : Draft.Registered schema.case schema.drafts) : schema.unresolved.Indexed :=
  Model.indexed_of_filled registered (filled_by (fun _ => []) schema.drafts)

end Schema

theorem Model.Built.well_formed {model : Model} (built : model.Built) : model.WellFormed := by
  obtain ⟨schema, accepted⟩ := built
  obtain ⟨_, ⟨taken, registration⟩, definitions, resolved, rfl, _⟩ :=
    (schema.build_eq_ok model).mp accepted
  have registered := Schema.registered_of_register registration
  have pairs := Model.resolve_drafts_pairs resolved
  have filled := Model.resolve_drafts_filled resolved
  refine { Model.indexed_of_filled registered filled with
    included := ?_, includes_distinct := ?_, composites_include_nothing := ?_ }
  · intro id definition target found member
    rw [Model.of_definitions_get] at found
    obtain ⟨draft, _, includes, resolution, rfl⟩ := forall₂_at pairs found
    obtain ⟨_, _, token, _, strict⟩ := (Model.mem_resolve_includes resolution target).mp member
    obtain ⟨_, other, there, kind⟩ :=
      Model.find_strict_concrete (Schema.unresolved_indexed registered) strict
    -- The definition found while includes were being resolved keeps its place and its kind.
    rw [Schema.unresolved, Model.of_definitions_get, List.getElem?_map,
      Option.map_eq_some_iff] at there
    obtain ⟨otherDraft, drafted, rfl⟩ := there
    obtain ⟨final, finalFound, finalIncludes, rfl⟩ := forall₂_at_left filled drafted
    refine ⟨otherDraft.definition finalIncludes, ?_, kind⟩
    rw [Model.of_definitions_get]
    exact finalFound
  · intro id definition found
    rw [Model.of_definitions_get] at found
    obtain ⟨draft, _, includes, resolution, rfl⟩ := forall₂_at pairs found
    exact Model.resolve_includes_nodup resolution
  · intro id definition found composite
    rw [Model.of_definitions_get] at found
    obtain ⟨draft, drafted, includes, resolution, rfl⟩ := forall₂_at pairs found
    cases schema.drafts_stand (List.mem_of_getElem? drafted) with
    | atom kind => exact absurd (kind.symm.trans composite) (by decide)
    | composite _ _ nothing =>
        rw [nothing] at resolution
        exact (Except.ok.inj resolution).symm
    | member kind => exact absurd (kind.symm.trans composite) (by decide)

/-- An alias at each level and a chain of two includes that crosses levels. -/
def roleSchema : Schema where
  declarations := [
    .atom ⟨"admin", ["root"], ["role:editor"]⟩,
    .composite ⟨"role", ["r"],
      [⟨"editor", [], ["R:Reader"]⟩, ⟨"viewer", ["reader"], []⟩]⟩]

def roleModel : Model where
  case := .insensitive
  definitions := #[
    ⟨0, "admin", .atom "admin", .atom, ["root"], [2], [], none⟩,
    ⟨1, "role", .composite "role" "*", .composite, ["r"], [], [2, 3], none⟩,
    ⟨2, "editor", .composite "role" "editor", .member, [], [3], [], some 1⟩,
    ⟨3, "viewer", .composite "role" "viewer", .member, ["reader"], [], [], some 1⟩]
  roots := [0, 1]
  index := [((none, "admin"), 0), ((none, "root"), 0), ((none, "role"), 1), ((none, "r"), 1),
    ((some 1, "editor"), 2), ((some 1, "viewer"), 3), ((some 1, "reader"), 3)]

theorem role_schema_builds : roleSchema.build = .ok roleModel := by
  have acyclic : roleModel.checkAcyclic = .ok () :=
    Model.check_acyclic_of_depth ([2, 0, 1, 0].getD · 0) (by decide)
  exact Schema.build_of_layout (by decide) (by decide +kernel) (by decide +kernel)
    (by decide +kernel) (by decide +kernel) acyclic

theorem role_model_built : roleModel.Built := ⟨roleSchema, role_schema_builds⟩

end ClaimPolicy
