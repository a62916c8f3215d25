import ClaimPolicy.Model.Build

/-!
How the drafts of a schema are laid out. A draft is known by its place, and its kind says where it
stands: atoms and composites at the root, a member below the composite that was declared just
before. The drafts of one declaration stay together, so what holds within each such block holds of
all drafts.
-/
namespace ClaimPolicy

/-- Where a draft of each kind stands among the drafts, and what it may include. -/
inductive Draft.Stands (drafts : List Draft) (draft : Draft) : Prop
  | atom (kind : draft.kind = .atom) (root : draft.parent = none)
  | composite (kind : draft.kind = .composite) (root : draft.parent = none)
      (nothing : draft.includes = [])
  | member (kind : draft.kind = .member) (owner : Draft) (among : owner ∈ drafts)
      (ownerKind : owner.kind = .composite) (below : draft.parent = some (owner.id, owner.name))

theorem Draft.Stands.mono {drafts others : List Draft} {draft : Draft}
    (stands : draft.Stands drafts) (inside : drafts ⊆ others) : draft.Stands others := by
  cases stands with
  | atom kind root => exact .atom kind root
  | composite kind root nothing => exact .composite kind root nothing
  | member kind owner among ownerKind below =>
      exact .member kind owner (inside among) ownerKind below

theorem CompositeDeclaration.member_drafts_ids (id : Nat) (name : String) (next : Nat)
    (members : List TokenDeclaration) :
    (memberDrafts id name next members).map Draft.id = List.range' next members.length := by
  induction members generalizing next with
  | nil => rfl
  | cons member members ih =>
      rw [memberDrafts, List.map_cons, ih, List.length_cons, List.range'_succ]
      rfl

theorem CompositeDeclaration.member_drafts_origin {id next : Nat} {name : String}
    {members : List TokenDeclaration} {draft : Draft}
    (among : draft ∈ memberDrafts id name next members) :
    ∃ declared ∈ members, ∃ place,
      draft = declared.draft .member (some (id, name)) place := by
  induction members generalizing next with
  | nil => exact absurd among List.not_mem_nil
  | cons member members ih =>
      rcases List.mem_cons.mp among with rfl | later
      · exact ⟨member, List.mem_cons_self, next, rfl⟩
      · obtain ⟨declared, inside, place, same⟩ := ih later
        exact ⟨declared, List.mem_cons_of_mem _ inside, place, same⟩

theorem Declaration.drafts_ids (next : Nat) (declared : Declaration) :
    (declared.drafts next).map Draft.id = List.range' next declared.size := by
  cases declared with
  | atom declared => rfl
  | composite declared =>
      rw [drafts, List.map_cons, CompositeDeclaration.member_drafts_ids, size, List.range'_succ]

theorem Declaration.drafts_length (next : Nat) (declared : Declaration) :
    (declared.drafts next).length = declared.size := by
  rw [← List.length_map, declared.drafts_ids, List.length_range']

theorem Declaration.drafts_stand {next : Nat} {declared : Declaration} {draft : Draft}
    (among : draft ∈ declared.drafts next) : draft.Stands (declared.drafts next) := by
  cases declared with
  | atom declared =>
      have same := List.mem_singleton.mp among
      subst same
      exact .atom rfl rfl
  | composite declared =>
      rcases List.mem_cons.mp among with rfl | later
      · exact .composite rfl rfl rfl
      · obtain ⟨_, _, _, rfl⟩ := CompositeDeclaration.member_drafts_origin later
        exact .member rfl _ List.mem_cons_self rfl rfl

namespace Schema

theorem lay_out_ids (next : Nat) (declarations : List Declaration) :
    (layOut next declarations).map Draft.id =
      List.range' next (declarations.foldr (fun declared total => declared.size + total) 0) := by
  induction declarations generalizing next with
  | nil => rfl
  | cons declared rest ih =>
      rw [layOut, List.map_append, ih, declared.drafts_ids, List.foldr_cons, List.range'_append_1]

theorem lay_out_block_of_draft {next : Nat} {declarations : List Declaration} {draft : Draft}
    (among : draft ∈ layOut next declarations) :
    ∃ declared ∈ declarations, ∃ place, draft ∈ declared.drafts place ∧
      declared.drafts place ⊆ layOut next declarations := by
  induction declarations generalizing next with
  | nil => exact absurd among List.not_mem_nil
  | cons declared rest ih =>
      rw [layOut] at among ⊢
      rcases List.mem_append.mp among with here | later
      · exact ⟨declared, List.mem_cons_self, next, here, List.subset_append_left _ _⟩
      · obtain ⟨other, listed, place, inside, block⟩ := ih later
        exact ⟨other, List.mem_cons_of_mem _ listed, place, inside,
          List.Subset.trans block (List.subset_append_right _ _)⟩

/-- An edit of single declarations that keeps the places is an edit of single drafts. -/
theorem lay_out_map {edit : Declaration → Declaration} {redraft : Draft → Draft}
    (each : ∀ place declared, (edit declared).drafts place = (declared.drafts place).map redraft)
    (next : Nat) (declarations : List Declaration) :
    layOut next (declarations.map edit) = (layOut next declarations).map redraft := by
  have size (declared : Declaration) : (edit declared).size = declared.size := by
    rw [← Declaration.drafts_length 0, each, List.length_map, Declaration.drafts_length]
  induction declarations generalizing next with
  | nil => rfl
  | cons declared rest ih =>
      rw [List.map_cons, layOut, layOut, size, ih, each, List.map_append]

theorem drafts_length (schema : Schema) : schema.drafts.length = schema.size := by
  have lengths := congrArg List.length (lay_out_ids 0 schema.declarations)
  rw [List.length_map, List.length_range'] at lengths
  exact lengths

theorem drafts_placed (schema : Schema) {place : Nat} {draft : Draft}
    (found : schema.drafts[place]? = some draft) : draft.id = place := by
  have ids := congrArg (fun ids => ids[place]?) (lay_out_ids 0 schema.declarations)
  have bound : place < schema.size := by
    rw [← drafts_length]
    exact (List.getElem?_eq_some_iff.mp found).1
  have inRange :
      place < schema.declarations.foldr (fun declared total => declared.size + total) 0 :=
    bound
  change ((schema.drafts).map Draft.id)[place]? = _ at ids
  rw [List.getElem?_map, found, Option.map_some, List.getElem?_range' inRange] at ids
  have same := Option.some.inj ids
  omega

theorem drafts_stand (schema : Schema) {draft : Draft} (among : draft ∈ schema.drafts) :
    draft.Stands schema.drafts := by
  obtain ⟨_, _, _, inside, block⟩ := lay_out_block_of_draft among
  exact (Declaration.drafts_stand inside).mono block

end Schema

end ClaimPolicy
