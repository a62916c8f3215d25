import ClaimPolicy.Model.Build

/-!
What the registration of names accepts. It goes through exactly when every name and alias may be
declared and no two of them, over all drafts, take the same slot. The slots that are taken at the
end are those of the drafts, so the check of each key against the slots before it is a check of all
pairs. When it fails, it is over a name that may not be declared, or over a slot that is needed
twice.
-/
namespace ClaimPolicy

namespace Draft

def slots (mode : CaseMode) (draft : Draft) : List Slot :=
  draft.keys.map fun key => (draft.level, mode.fold key)

theorem check_names_eq_ok (keys : List String) :
    checkNames keys = .ok () ↔ ∀ key ∈ keys, Name.declarationFault? key = none := by
  induction keys with
  | nil => simp [checkNames]
  | cons key keys ih =>
      rw [checkNames, List.forall_mem_cons]
      cases fault : Name.declarationFault? key with
      | none => simpa using ih
      | some found => simp

theorem take_slots_eq_ok (mode : CaseMode) (draft : Draft) (taken : List Slot)
    (keys : List String) (after : List Slot) :
    draft.takeSlots mode taken keys = .ok after ↔
      (keys.map fun key => (draft.level, mode.fold key)).Nodup ∧
        (∀ key ∈ keys, (draft.level, mode.fold key) ∉ taken) ∧
          after = (keys.map fun key => (draft.level, mode.fold key)).reverse ++ taken := by
  induction keys generalizing taken with
  | nil => simp [takeSlots, eq_comm]
  | cons key keys ih =>
      rw [takeSlots]
      by_cases clash : (draft.level, mode.fold key) ∈ taken
      · simp [clash]
      · simp only [List.contains_eq_mem, clash, decide_false, Bool.false_eq_true, if_false]
        rw [ih, List.map_cons, List.nodup_cons, List.forall_mem_cons, List.reverse_cons,
          List.append_assoc, List.singleton_append]
        constructor
        · intro accepted
          rcases accepted with ⟨distinct, free, same⟩
          have fresh : (draft.level, mode.fold key) ∉
              keys.map fun key => (draft.level, mode.fold key) := by
            intro repeated
            obtain ⟨other, member, equal⟩ := List.mem_map.mp repeated
            exact free other member (by rw [equal]; exact List.mem_cons_self)
          exact ⟨⟨fresh, distinct⟩, ⟨clash, fun other member before =>
            free other member (List.mem_cons_of_mem _ before)⟩, same⟩
        · intro accepted
          rcases accepted with ⟨⟨fresh, distinct⟩, ⟨_, free⟩, same⟩
          refine ⟨distinct, ?_, same⟩
          intro other member before
          rcases List.mem_cons.mp before with equal | earlier
          · exact fresh (equal ▸ List.mem_map_of_mem member)
          · exact free other member earlier

theorem check_names_fault {keys : List String} {fault : Error}
    (refused : checkNames keys = .error fault) :
    ∃ key ∈ keys, ∃ reason, Name.declarationFault? key = some reason ∧
      fault = .invalidName key reason := by
  induction keys with
  | nil => cases refused
  | cons key keys ih =>
      rw [checkNames] at refused
      split at refused
      · next reason broken =>
          cases refused
          exact ⟨key, List.mem_cons_self, reason, broken, rfl⟩
      · obtain ⟨other, member, rest⟩ := ih refused
        exact ⟨other, List.mem_cons_of_mem _ member, rest⟩

theorem take_slots_fault {mode : CaseMode} {draft : Draft} {taken : List Slot}
    {keys : List String} {fault : Error}
    (refused : draft.takeSlots mode taken keys = .error fault) :
    ∃ key ∈ keys, fault = .duplicateName (draft.keyText key) ∧
      1 < ((keys.map fun key => (draft.level, mode.fold key)) ++ taken).count
        (draft.level, mode.fold key) := by
  induction keys generalizing taken with
  | nil => cases refused
  | cons key keys ih =>
      rw [takeSlots] at refused
      by_cases clash : (draft.level, mode.fold key) ∈ taken
      · simp only [List.contains_eq_mem, clash, decide_true, if_true] at refused
        cases refused
        have once : 0 < taken.count (draft.level, mode.fold key) := List.count_pos_iff.mpr clash
        refine ⟨key, List.mem_cons_self, rfl, ?_⟩
        rw [List.map_cons, List.cons_append, List.count_cons_self, List.count_append]
        omega
      · simp only [List.contains_eq_mem, clash, decide_false, Bool.false_eq_true,
          if_false] at refused
        obtain ⟨other, member, same, twice⟩ := ih refused
        refine ⟨other, List.mem_cons_of_mem _ member, same, ?_⟩
        rwa [List.map_cons, List.cons_append, ← List.perm_middle.count_eq]

end Draft

namespace Model

theorem register_eq_ok (mode : CaseMode) (taken : List Slot) (drafts : List Draft) :
    (∃ after, register mode taken drafts = .ok after) ↔
      (∀ draft ∈ drafts, ∀ key ∈ draft.keys, Name.declarationFault? key = none) ∧
        (drafts.flatMap (Draft.slots mode)).Nodup ∧
          ∀ slot ∈ drafts.flatMap (Draft.slots mode), slot ∉ taken := by
  induction drafts generalizing taken with
  | nil => simp [register]
  | cons draft drafts ih =>
      have unfolded : (∃ after, register mode taken (draft :: drafts) = .ok after) ↔
          Draft.checkNames draft.keys = .ok () ∧ ∃ middle,
            draft.takeSlots mode taken draft.keys = .ok middle ∧
              ∃ after, register mode middle drafts = .ok after := by
        simp only [register, bind_eq_ok]
        grind
      rw [unfolded, Draft.check_names_eq_ok, List.forall_mem_cons, List.flatMap_cons,
        List.nodup_append, List.forall_mem_append]
      constructor
      · intro registered
        rcases registered with ⟨legal, middle, took, rest⟩
        obtain ⟨distinct, free, rfl⟩ := (Draft.take_slots_eq_ok _ _ _ _ _).mp took
        obtain ⟨restLegal, restDistinct, restFree⟩ := (ih _).mp rest
        refine ⟨⟨legal, restLegal⟩, ⟨distinct, restDistinct, ?_⟩, ?_, ?_⟩
        · intro slot here other later same
          subst same
          exact restFree slot later
            (List.mem_append_left _ (List.mem_reverse.mpr here))
        · intro slot here before
          obtain ⟨key, member, rfl⟩ := List.mem_map.mp here
          exact free key member before
        · intro slot later before
          exact restFree slot later (List.mem_append_right _ before)
      · intro accepted
        rcases accepted with
          ⟨⟨legal, restLegal⟩, ⟨distinct, restDistinct, apart⟩, free, restFree⟩
        refine ⟨legal, _, (Draft.take_slots_eq_ok _ _ _ _ _).mpr ⟨distinct, ?_, rfl⟩,
          (ih _).mpr ⟨restLegal, restDistinct, ?_⟩⟩
        · intro key member
          exact free _ (List.mem_map_of_mem member)
        · intro slot later before
          rcases List.mem_append.mp before with here | earlier
          · exact apart slot (List.mem_reverse.mp here) slot later rfl
          · exact restFree slot later earlier

theorem register_fault {mode : CaseMode} {taken : List Slot} {drafts : List Draft} {fault : Error}
    (refused : register mode taken drafts = .error fault) :
    ∃ draft ∈ drafts, ∃ key ∈ draft.keys,
      (∃ reason, Name.declarationFault? key = some reason ∧ fault = .invalidName key reason) ∨
        fault = .duplicateName (draft.keyText key) ∧
          1 < (drafts.flatMap (Draft.slots mode) ++ taken).count (draft.level, mode.fold key) := by
  induction drafts generalizing taken with
  | nil => cases refused
  | cons draft drafts ih =>
      rw [register] at refused
      rcases (bind_eq_error _ _ _).mp refused with misnamed | ⟨_, _, further⟩
      · obtain ⟨key, member, broken⟩ := Draft.check_names_fault misnamed
        exact ⟨draft, List.mem_cons_self, key, member, Or.inl broken⟩
      · rcases (bind_eq_error _ _ _).mp further with clash | ⟨middle, took, later⟩
        · obtain ⟨key, member, same, twice⟩ := Draft.take_slots_fault clash
          refine ⟨draft, List.mem_cons_self, key, member, Or.inr ⟨same, ?_⟩⟩
          rw [List.count_append] at twice
          rw [List.flatMap_cons, List.count_append, List.count_append]
          change 1 < (draft.slots mode).count _ + _ at twice
          omega
        · obtain ⟨_, _, rfl⟩ := (Draft.take_slots_eq_ok _ _ _ _ _).mp took
          obtain ⟨other, among, key, member, cause⟩ := ih later
          refine ⟨other, List.mem_cons_of_mem _ among, key, member, cause.imp_right ?_⟩
          intro repeated
          refine ⟨repeated.1, ?_⟩
          have twice := repeated.2
          rw [List.count_append, List.count_append, List.count_reverse] at twice
          rw [List.flatMap_cons, List.count_append, List.count_append]
          change 1 < _ + ((draft.slots mode).count _ + _) at twice
          omega

theorem slots_of_definition_perm (mode : CaseMode) (draft : Draft) (includes : List Nat) :
    ((slotsOf mode (draft.definition includes)).map Prod.fst).Perm (draft.slots mode) := by
  have keys : (draft.name :: Name.sorted draft.aliases).Perm draft.keys :=
    (Name.sorted_perm draft.aliases).cons draft.name
  have slots := keys.map fun key => (draft.level, mode.fold key)
  simpa [slotsOf, Draft.slots, Draft.definition, Function.comp_def] using slots

end Model

end ClaimPolicy
