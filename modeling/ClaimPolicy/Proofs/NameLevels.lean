import Mathlib.Data.List.Count
import Mathlib.Data.List.Nodup
import ClaimPolicy.Proofs.Declared

/-!
The declared names, level by level. A slot is needed as often as its level takes its name, and the
levels are the root and the composites that are declared. So no slot is needed twice exactly when no
name is repeated at the root or within one composite, whatever names two composites share.
-/
namespace ClaimPolicy

namespace Draft

def keysAt (drafts : List Draft) (level : Option Nat) : List String :=
  (drafts.filter fun draft => draft.level = level).flatMap Draft.keys

theorem keys_at_append (left right : List Draft) (level : Option Nat) :
    keysAt (left ++ right) level = keysAt left level ++ keysAt right level := by
  simp [keysAt]

theorem keys_at_cons (draft : Draft) (drafts : List Draft) (level : Option Nat) :
    keysAt (draft :: drafts) level =
      (if draft.level = level then draft.keys else []) ++ keysAt drafts level := by
  by_cases here : draft.level = level <;> simp [keysAt, here]

theorem mem_keys_at {drafts : List Draft} {draft : Draft} (among : draft ∈ drafts) {key : String}
    (member : key ∈ draft.keys) : key ∈ keysAt drafts draft.level :=
  List.mem_flatMap.mpr ⟨draft, List.mem_filter.mpr ⟨among, by simp⟩, member⟩

theorem count_slots (mode : CaseMode) (drafts : List Draft) (level : Option Nat) (folded : String) :
    (drafts.flatMap (slots mode)).count (level, folded) =
      ((keysAt drafts level).map mode.fold).count folded := by
  induction drafts with
  | nil => rfl
  | cons draft drafts ih =>
      rw [List.flatMap_cons, List.count_append, ih, keys_at_cons, List.map_append,
        List.count_append]
      congr 1
      by_cases here : draft.level = level
      · subst here
        have paired : draft.slots mode = (draft.keys.map mode.fold).map (Prod.mk draft.level) := by
          simp [slots]
        rw [if_pos rfl, paired]
        exact List.count_map_of_injective _ _ (fun _ _ same => congrArg Prod.snd same) folded
      · rw [if_neg here, List.map_nil, List.count_nil, List.count_eq_zero]
        intro member
        obtain ⟨_, _, same⟩ := List.mem_map.mp member
        exact here (congrArg Prod.fst same)

end Draft

theorem CompositeDeclaration.member_drafts_keys_at (id : Nat) (name : String) (next : Nat)
    (members : List TokenDeclaration) (level : Option Nat) :
    Draft.keysAt (memberDrafts id name next members) level =
      if level = some id then members.flatMap TokenDeclaration.keys else [] := by
  induction members generalizing next with
  | nil => simp [memberDrafts, Draft.keysAt]
  | cons member members ih =>
      have below : (member.draft .member (some (id, name)) next).level = some id := rfl
      rw [memberDrafts, Draft.keys_at_cons, ih, below]
      by_cases here : level = some id
      · subst here
        simp only [if_true]
        rfl
      · simp [here, Ne.symm here]

theorem CompositeDeclaration.member_drafts_keys (id : Nat) (name : String) (next : Nat)
    (members : List TokenDeclaration) :
    (memberDrafts id name next members).flatMap Draft.keys =
      members.flatMap TokenDeclaration.keys := by
  induction members generalizing next with
  | nil => rfl
  | cons member members ih =>
      rw [memberDrafts, List.flatMap_cons, ih]
      rfl

namespace Declaration

theorem size_pos (declared : Declaration) : 0 < declared.size := by
  cases declared <;> simp [size]

theorem drafts_keys (next : Nat) (declared : Declaration) :
    (declared.drafts next).flatMap Draft.keys = declared.rootKeys ++ declared.memberKeys := by
  cases declared with
  | atom declared => rfl
  | composite declared =>
      rw [drafts, List.flatMap_cons, CompositeDeclaration.member_drafts_keys]
      rfl

theorem keys_at_root (next : Nat) (declared : Declaration) :
    Draft.keysAt (declared.drafts next) none = declared.rootKeys := by
  cases declared with
  | atom declared => exact List.append_nil _
  | composite declared =>
      rw [drafts, Draft.keys_at_cons, CompositeDeclaration.member_drafts_keys_at]
      exact List.append_nil _

theorem keys_at_place (next place : Nat) (declared : Declaration) :
    Draft.keysAt (declared.drafts next) (some place) =
      if place = next then declared.memberKeys else [] := by
  cases declared with
  | atom declared => simp [drafts, memberKeys, TokenDeclaration.draft, Draft.keysAt, Draft.level]
  | composite declared =>
      rw [drafts, Draft.keys_at_cons, CompositeDeclaration.member_drafts_keys_at]
      simp [Draft.level, memberKeys, CompositeDeclaration.memberKeys]

end Declaration

namespace Schema

theorem lay_out_keys (next : Nat) (declarations : List Declaration) :
    (layOut next declarations).flatMap Draft.keys =
      declarations.flatMap fun declared => declared.rootKeys ++ declared.memberKeys := by
  induction declarations generalizing next with
  | nil => rfl
  | cons declared rest ih =>
      rw [layOut, List.flatMap_append, List.flatMap_cons, ih, declared.drafts_keys]

theorem lay_out_keys_at_root (next : Nat) (declarations : List Declaration) :
    Draft.keysAt (layOut next declarations) none = declarations.flatMap Declaration.rootKeys := by
  induction declarations generalizing next with
  | nil => rfl
  | cons declared rest ih =>
      rw [layOut, Draft.keys_at_append, List.flatMap_cons, ih, declared.keys_at_root]

theorem lay_out_keys_before {next place : Nat} (before : place < next)
    (declarations : List Declaration) :
    Draft.keysAt (layOut next declarations) (some place) = [] := by
  induction declarations generalizing next with
  | nil => rfl
  | cons declared rest ih =>
      rw [layOut, Draft.keys_at_append, declared.keys_at_place, if_neg (by omega),
        ih (by omega), List.append_nil]

/-- The names at a level below the root are the member names of one composite, which stands
there. -/
theorem lay_out_owner_of_key {next place : Nat} {declarations : List Declaration} {key : String}
    (taken : key ∈ Draft.keysAt (layOut next declarations) (some place)) :
    ∃ owner, .composite owner ∈ declarations ∧
      owner.draft place ∈ layOut next declarations ∧
      Draft.keysAt (layOut next declarations) (some place) = owner.memberKeys := by
  induction declarations generalizing next with
  | nil => exact absurd taken List.not_mem_nil
  | cons declared rest ih =>
      rw [layOut, Draft.keys_at_append, declared.keys_at_place] at taken ⊢
      by_cases here : place = next
      · subst here
        have later :=
          lay_out_keys_before (Nat.lt_add_of_pos_right (n := place) declared.size_pos) rest
        rw [if_pos rfl, later, List.append_nil] at taken ⊢
        cases declared with
        | atom => exact absurd taken List.not_mem_nil
        | composite owner =>
            exact ⟨owner, List.mem_cons_self, List.mem_append_left _ List.mem_cons_self, rfl⟩
      · rw [if_neg here, List.nil_append] at taken ⊢
        obtain ⟨owner, listed, among, same⟩ := ih taken
        exact ⟨owner, List.mem_cons_of_mem _ listed, List.mem_append_right _ among, same⟩

theorem lay_out_level_of_owner (next : Nat) {declarations : List Declaration}
    {owner : CompositeDeclaration} (listed : .composite owner ∈ declarations) :
    ∃ place, next ≤ place ∧
      Draft.keysAt (layOut next declarations) (some place) = owner.memberKeys := by
  induction declarations generalizing next with
  | nil => exact absurd listed List.not_mem_nil
  | cons declared rest ih =>
      have positive := declared.size_pos
      rcases List.mem_cons.mp listed with rfl | later
      · refine ⟨next, Nat.le_refl next, ?_⟩
        rw [layOut, Draft.keys_at_append, Declaration.keys_at_place, if_pos rfl,
          lay_out_keys_before (Nat.lt_add_of_pos_right positive), List.append_nil]
        rfl
      · obtain ⟨place, after, same⟩ := ih (next + declared.size) later
        refine ⟨place, by omega, ?_⟩
        rw [layOut, Draft.keys_at_append, Declaration.keys_at_place, if_neg (by omega), same,
          List.nil_append]

/-- No two names are equal up to the case mode at the root, nor within one composite. -/
def NamesDistinct (schema : Schema) : Prop :=
  (schema.rootKeys.map schema.case.fold).Nodup ∧
    ∀ owner, .composite owner ∈ schema.declarations →
      (owner.memberKeys.map schema.case.fold).Nodup

/-- A name that stands twice at one level up to the case mode, as an error spells it. -/
inductive Repeats (schema : Schema) : String → Prop
  | root {key : String} (declared : key ∈ schema.rootKeys)
      (twice : 1 < (schema.rootKeys.map schema.case.fold).count (schema.case.fold key)) :
      Repeats schema key
  | member {owner : CompositeDeclaration} {key : String}
      (listed : .composite owner ∈ schema.declarations) (declared : key ∈ owner.memberKeys)
      (twice : 1 < (owner.memberKeys.map schema.case.fold).count (schema.case.fold key)) :
      Repeats schema (owner.name ++ ":" ++ key)

variable {schema : Schema}

theorem drafts_keys (schema : Schema) : schema.drafts.flatMap Draft.keys = schema.keys :=
  lay_out_keys 0 schema.declarations

theorem keys_at_root (schema : Schema) : Draft.keysAt schema.drafts none = schema.rootKeys :=
  lay_out_keys_at_root 0 schema.declarations

theorem not_distinct_of_repeats {text : String} (repeated : schema.Repeats text) :
    ¬ schema.NamesDistinct := by
  intro distinct
  cases repeated with
  | root _ twice =>
      have once := List.nodup_iff_count_le_one.mp distinct.1 (schema.case.fold text)
      omega
  | @member owner key listed _ twice =>
      have once := List.nodup_iff_count_le_one.mp (distinct.2 owner listed) (schema.case.fold key)
      omega

theorem slots_nodup_iff (schema : Schema) :
    (schema.drafts.flatMap (Draft.slots schema.case)).Nodup ↔ schema.NamesDistinct := by
  have byLevel : (schema.drafts.flatMap (Draft.slots schema.case)).Nodup ↔
      ∀ level, ((Draft.keysAt schema.drafts level).map schema.case.fold).Nodup := by
    simp only [List.nodup_iff_count_le_one, Prod.forall, Draft.count_slots]
  rw [byLevel]
  constructor
  · intro distinct
    refine ⟨schema.keys_at_root ▸ distinct none, ?_⟩
    intro owner listed
    obtain ⟨place, _, same⟩ := lay_out_level_of_owner 0 listed
    exact same ▸ distinct (some place)
  · intro distinct level
    cases level with
    | none => exact schema.keys_at_root.symm ▸ distinct.1
    | some place =>
        cases keys : Draft.keysAt schema.drafts (some place) with
        | nil => exact List.nodup_nil
        | cons key rest =>
            have taken : key ∈ Draft.keysAt (layOut 0 schema.declarations) (some place) :=
              keys ▸ List.mem_cons_self
            obtain ⟨owner, listed, _, same⟩ := lay_out_owner_of_key taken
            rw [← keys]
            exact same.symm ▸ distinct.2 owner listed

theorem draft_at_unique {first second : Draft} (left : first ∈ schema.drafts)
    (right : second ∈ schema.drafts) (same : first.id = second.id) : first = second := by
  obtain ⟨place, found⟩ := List.getElem?_of_mem left
  obtain ⟨other, there⟩ := List.getElem?_of_mem right
  rw [schema.drafts_placed found, schema.drafts_placed there] at same
  subst same
  exact Option.some.inj (found.symm.trans there)

theorem repeats_of_slot {draft : Draft} (among : draft ∈ schema.drafts) {key : String}
    (member : key ∈ draft.keys)
    (twice : 1 < (schema.drafts.flatMap (Draft.slots schema.case)).count
      (draft.level, schema.case.fold key)) : schema.Repeats (draft.keyText key) := by
  have taken := Draft.mem_keys_at among member
  rw [Draft.count_slots] at twice
  have root := schema.keys_at_root
  cases draft_origin among with
  | atom => exact .root (root ▸ taken) (root ▸ twice)
  | composite => exact .root (root ▸ taken) (root ▸ twice)
  | @member owner declared id place _ _ beside =>
      -- The level determines the composite up to its members, so the error has the right name.
      obtain ⟨other, listed, standing, same⟩ := lay_out_owner_of_key taken
      have name : other.name = owner.name :=
        congrArg Draft.name (draft_at_unique standing beside rfl)
      have here : Draft.keysAt schema.drafts (some place) = other.memberKeys := same
      exact name ▸ Repeats.member listed (here ▸ taken) (here ▸ twice)

end Schema

end ClaimPolicy
