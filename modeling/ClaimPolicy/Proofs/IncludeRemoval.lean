import ClaimPolicy.Proofs.Families
import ClaimPolicy.Proofs.Matching

/-!
Models with some includes left out. Leaving includes out of a model keeps names, tokens and look-up,
and leaves fewer steps to chains of includes. The same may be done to the declarations: of the
written includes those are dropped that name what is left out, in whatever spelling. So a model that
can be built can still be built without any of its includes, and it matches tokens as before if the
chains stay.
-/
namespace ClaimPolicy

def Definition.keeping (keep : Nat → Nat → Bool) (definition : Definition) : Definition :=
  { definition with includes := definition.includes.filter (keep definition.id) }

namespace Model

/-- The model with only those includes that are to be kept, told by the two places. -/
def keeping (model : Model) (keep : Nat → Nat → Bool) : Model :=
  { model with definitions := model.definitions.map (Definition.keeping keep) }

variable {model : Model} {keep : Nat → Nat → Bool}

@[simp] theorem keeping_case (model : Model) (keep : Nat → Nat → Bool) :
    (model.keeping keep).case = model.case := rfl

@[simp] theorem keeping_get (model : Model) (keep : Nat → Nat → Bool) (id : Nat) :
    (model.keeping keep).get? id = (model.get? id).map (Definition.keeping keep) :=
  Array.getElem?_map

@[simp] theorem keeping_size (model : Model) (keep : Nat → Nat → Bool) :
    (model.keeping keep).size = model.size :=
  Array.size_map

theorem of_definitions_keeping (mode : CaseMode) (definitions : List Definition)
    (keep : Nat → Nat → Bool) :
    ofDefinitions mode (definitions.map (Definition.keeping keep)) =
      (ofDefinitions mode definitions).keeping keep := by
  simp only [ofDefinitions, keeping, List.map_toArray, List.filter_map, List.map_map,
    List.flatMap_map]
  rfl

theorem keeping_find (model : Model) (keep : Nat → Nat → Bool) (token : Token)
    (mode : LookupMode) :
    (model.keeping keep).findId token mode = model.findId token mode := by
  apply find_id_agrees
  · intro level name
    rfl
  · intro id
    rw [keeping_get, Option.map_map]
    rfl

theorem keeping_canonical_or_self (model : Model) (keep : Nat → Nat → Bool) (token : Token) :
    (model.keeping keep).canonicalOrSelf token = model.canonicalOrSelf token := by
  have tokens : Definition.token ∘ Definition.keeping keep = Definition.token := rfl
  have found : (model.keeping keep).find token .claim =
      (model.find token .claim).map (Definition.keeping keep) := by
    rw [find, find, keeping_find, Option.map_bind]
    exact congrArg _ (funext (keeping_get model keep))
  rw [canonicalOrSelf, canonicalOrSelf, canonical, canonical, found, Option.map_map, tokens]

theorem keeping_includes_iff (indexed : model.Indexed) (source target : Nat) :
    (model.keeping keep).Includes source target ↔
      model.Includes source target ∧ keep source target = true := by
  have listed : (model.keeping keep).includesOf source =
      (model.includesOf source).filter (keep source) := by
    rw [includesOf, includesOf, keeping_get]
    cases found : model.get? source with
    | none => rfl
    | some definition =>
        have placed := indexed.placed found
        subst placed
        rfl
  rw [Includes, Includes, listed, keeping_size, List.mem_filter]
  grind

theorem chain_of_keeping (indexed : model.Indexed) {source target : Nat}
    (chain : (model.keeping keep).IncludesChain source target) :
    model.IncludesChain source target := by
  induction chain with
  | single step => exact .single ((keeping_includes_iff indexed _ _).mp step).1
  | cons step _ ih => exact .cons ((keeping_includes_iff indexed _ _).mp step).1 ih

theorem token_match_keeping (indexed : model.Indexed)
    (kept : ∀ source target, model.IncludesChain source target →
      (model.keeping keep).IncludesChain source target) (source target : Token) :
    (model.keeping keep).tokenMatch source target = model.tokenMatch source target := by
  have chains (first last : Nat) :
      (model.keeping keep).IncludesChain first last ↔ model.IncludesChain first last :=
    ⟨chain_of_keeping indexed, kept first last⟩
  rw [Bool.eq_iff_iff, token_match_iff, token_match_iff]
  simp only [keeping_canonical_or_self, keeping_find, keeping_case, keeping_get, chains,
    Option.map_eq_some_iff]
  grind [Definition.keeping]

theorem resolve_includes_filter {owner : String} {written : List String} {targets : List Nat}
    {kept : String → Bool} {keep : Nat → Bool}
    (agree : ∀ included target, model.Resolves included target → kept included = keep target)
    (resolved : model.resolveIncludes owner written = .ok targets) :
    model.resolveIncludes owner (written.filter kept) = .ok (targets.filter keep) := by
  induction written generalizing targets with
  | nil =>
      cases resolved
      rfl
  | cons included rest ih =>
      rw [resolveIncludes] at resolved
      split at resolved
      · cases resolved
      · next found here =>
          obtain ⟨others, restResolved, same⟩ := (bind_eq_ok _ _ _).mp resolved
          cases same
          have later := ih restResolved
          have sign := agree included found ((resolves_iff _ _ _).mp here)
          cases holds : keep found with
          | true =>
              rw [List.filter_cons_of_pos (sign.trans holds), List.filter_cons_of_pos holds,
                resolveIncludes, here]
              change model.resolveIncludes owner (rest.filter kept) >>= _ = _
              rw [later, List.filter_comm]
              rfl
          | false =>
              -- What is left out here is left out of the rest as well.
              have apart : ∀ target ∈ others.filter keep, (target != found) = true := by
                intro target member
                rw [bne_iff_ne]
                rintro rfl
                rw [(List.mem_filter.mp member).2] at holds
                cases holds
              rw [List.filter_cons_of_neg (by rw [sign, holds]; decide),
                List.filter_cons_of_neg (by rw [holds]; decide), later, List.filter_comm,
                List.filter_eq_self.mpr apart]

end Model

def TokenDeclaration.keeping (kept : String → Bool) (declared : TokenDeclaration) :
    TokenDeclaration :=
  { declared with includes := declared.includes.filter kept }

/-- The declaration with only those written includes that are to be kept, told by the full token of
the atom or member that they are written at. -/
def Declaration.keeping (kept : Token → String → Bool) : Declaration → Declaration
  | .atom declared => .atom (declared.keeping (kept (.atom declared.name)))
  | .composite declared => .composite
      { declared with
        members := declared.members.map fun member =>
          member.keeping (kept (.composite declared.name member.name)) }

def Draft.keeping (kept : Token → String → Bool) (draft : Draft) : Draft :=
  { draft with includes := draft.includes.filter (kept draft.token) }

theorem CompositeDeclaration.member_drafts_keeping (kept : Token → String → Bool) (id : Nat)
    (name : String) (next : Nat) (members : List TokenDeclaration) :
    memberDrafts id name next (members.map fun member =>
        member.keeping (kept (.composite name member.name))) =
      (memberDrafts id name next members).map (Draft.keeping kept) := by
  induction members generalizing next with
  | nil => rfl
  | cons member members ih =>
      rw [List.map_cons, memberDrafts, ih]
      rfl

theorem Declaration.drafts_keeping (kept : Token → String → Bool) (place : Nat)
    (declared : Declaration) :
    (declared.keeping kept).drafts place = (declared.drafts place).map (Draft.keeping kept) := by
  cases declared with
  | atom declared => rfl
  | composite declared =>
      simp only [keeping, drafts, List.length_map, CompositeDeclaration.member_drafts_keeping]
      rfl

namespace Schema

def keeping (schema : Schema) (kept : Token → String → Bool) : Schema :=
  { schema with declarations := schema.declarations.map (Declaration.keeping kept) }

theorem drafts_keeping (schema : Schema) (kept : Token → String → Bool) :
    (schema.keeping kept).drafts = schema.drafts.map (Draft.keeping kept) :=
  lay_out_map (Declaration.drafts_keeping kept) 0 schema.declarations

theorem unresolved_keeping (schema : Schema) (kept : Token → String → Bool) :
    (schema.keeping kept).unresolved = schema.unresolved := by
  rw [unresolved, unresolved, drafts_keeping, List.map_map]
  rfl

def keeps (schema : Schema) (keep : Nat → Nat → Bool) (owner : Token) (included : String) :
    Bool :=
  (schema.unresolved.findId owner .claim).any fun source =>
    ((Token.parse included).toOption.bind (schema.unresolved.findId · .strict)).any (keep source)

end Schema

namespace Model

variable {model : Model} {schema : Schema}

namespace BuiltFrom

theorem keeps_iff (built : model.BuiltFrom schema) (keep : Nat → Nat → Bool) {draft : Draft}
    (among : draft ∈ schema.drafts) {included : String} {target : Nat}
    (resolves : schema.unresolved.Resolves included target) :
    schema.keeps keep draft.token included = keep draft.id target := by
  have looked := Schema.unresolved_filled built.registered
  obtain ⟨includes, here⟩ := looked.defined among
  have own := find_own_token looked.indexed here
  rw [Draft.definition_token] at own
  rw [Schema.keeps, own, Option.any_some, (resolves_iff _ _ _).mpr resolves, Option.any_some]

theorem resolve_drafts_keeping (built : model.BuiltFrom schema) (keep : Nat → Nat → Bool)
    {drafts : List Draft} (inside : drafts ⊆ schema.drafts) :
    schema.unresolved.resolveDrafts (drafts.map (Draft.keeping (schema.keeps keep))) =
      .ok ((drafts.map model.definitionOf).map (Definition.keeping keep)) := by
  induction drafts with
  | nil => rfl
  | cons draft drafts ih =>
      obtain ⟨here, later⟩ := List.cons_subset.mp inside
      have resolved : schema.unresolved.resolveIncludes
          (draft.keeping (schema.keeps keep)).token.text
          (draft.keeping (schema.keeps keep)).includes =
            .ok ((model.includesOf draft.id).filter (keep draft.id)) :=
        resolve_includes_filter (fun _ _ => built.keeps_iff keep here)
          (built.resolution draft here)
      rw [List.map_cons, resolveDrafts, resolved, ih later]
      rfl

end BuiltFrom

end Model

/-- Without some of the written includes, a schema builds its model without these includes. -/
theorem Schema.keeping_builds {schema : Schema} {model : Model}
    (accepted : schema.build = .ok model) (keep : Nat → Nat → Bool) :
    (schema.keeping (schema.keeps keep)).build = .ok (model.keeping keep) := by
  have built := built_from accepted
  have drafts := schema.drafts_keeping (schema.keeps keep)
  have resolved : (schema.keeping (schema.keeps keep)).unresolved.resolveDrafts
      (schema.keeping (schema.keeps keep)).drafts =
        .ok ((schema.drafts.map model.definitionOf).map (Definition.keeping keep)) := by
    rw [unresolved_keeping, drafts]
    exact built.resolve_drafts_keeping keep (List.Subset.refl _)
  refine build_of_stages ?_ ?_ ?_ resolved ?_ ?_
  · have fits := ((schema.build_eq_ok model).mp accepted).1
    rw [← drafts_length, drafts, List.length_map, drafts_length]
    exact fits
  · rw [drafts]
    exact List.forall_mem_map.mpr built.registered.named
  · rw [drafts, List.flatMap_map]
    exact built.registered.distinct
  · rw [Model.of_definitions_keeping]
    exact congrArg (fun whole => Model.keeping whole keep) built.eq_of_drafts
  · apply (Model.check_acyclic_eq_ok _).mpr
    intro id cycle
    exact built.acyclic id (Model.chain_of_keeping built.indexed cycle)

end ClaimPolicy
