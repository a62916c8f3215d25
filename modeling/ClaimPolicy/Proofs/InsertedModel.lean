import ClaimPolicy.Proofs.Insertion

/-!
The model that insertions give is the one that is built from the finished definitions. When all
drafts of a schema are inserted, each composite has its members; then the includes that were kept
aside are filled in, draft by draft. Only the entries of the index stand in another order, which no
look-up can tell.
-/
namespace ClaimPolicy

namespace Schema

variable {schema : Schema}

theorem children_range {draft : Draft} (among : draft ∈ schema.drafts) :
    ∃ count, draft.children = List.range' (draft.id + 1) count := by
  cases draft_origin among with
  | atom => exact ⟨0, rfl⟩
  | composite => exact ⟨_, rfl⟩
  | member => exact ⟨0, rfl⟩

theorem drafts_ordered (schema : Schema) : Draft.Ordered schema.drafts where
  placed := schema.drafts_placed
  below := by
    intro draft among parent below
    obtain ⟨_, _, _, inside, block⟩ := lay_out_block_of_draft among
    obtain ⟨owner, beside, rfl, child⟩ := Declaration.owner_in_block inside below
    obtain ⟨count, range⟩ := children_range (block beside)
    rw [range] at child
    exact (List.mem_range'_1.mp child).1

/-- When all drafts are inserted, the members of a composite are those that were declared. -/
theorem children_of_drafts {owner : Draft} (among : owner ∈ schema.drafts) :
    Draft.childrenIn schema.drafts owner.id = owner.children := by
  obtain ⟨count, range⟩ := children_range among
  have ids : (schema.drafts.map Draft.id).Pairwise (· < ·) := by
    rw [show schema.drafts.map Draft.id = _ from lay_out_ids 0 schema.declarations]
    exact List.pairwise_lt_range'
  have increasing : (Draft.childrenIn schema.drafts owner.id).Pairwise (· < ·) :=
    ids.sublist (List.filter_sublist.map Draft.id)
  have declared : owner.children.Pairwise (· < ·) := range ▸ List.pairwise_lt_range'
  have members (id : Nat) : id ∈ Draft.childrenIn schema.drafts owner.id ↔
      id ∈ owner.children := by
    simp only [Draft.childrenIn, List.mem_map, List.mem_filter, beq_iff_eq]
    constructor
    · intro listed
      obtain ⟨draft, ⟨inside, below⟩, rfl⟩ := listed
      exact (child_iff among inside).mpr below
    · intro child
      obtain ⟨draft, inside, same, below⟩ := child_draft among child
      exact ⟨draft, ⟨inside, below⟩, same⟩
  have same := (List.perm_ext_iff_of_nodup (increasing.imp Nat.ne_of_lt)
    (declared.imp Nat.ne_of_lt)).mpr members
  exact same.eq_of_pairwise (fun _ _ _ _ less more => absurd more (Nat.lt_asymm less)) increasing
    declared

theorem all_grown (schema : Schema) :
    schema.drafts.map (Draft.grown schema.drafts) =
      schema.drafts.map fun draft => draft.definition [] := by
  apply List.map_congr_left
  intro draft among
  rw [Draft.grown, children_of_drafts among]
  rfl

end Schema

theorem lookup_of_perm {Key Value : Type} [BEq Key] [LawfulBEq Key]
    {first second : List (Key × Value)} (same : first.Perm second)
    (distinct : (second.map Prod.fst).Nodup) (key : Key) :
    first.lookup key = second.lookup key := by
  have firstDistinct := (same.map Prod.fst).nodup_iff.mpr distinct
  apply Option.ext
  intro value
  rw [lookup_eq_some_of_nodup firstDistinct, lookup_eq_some_of_nodup distinct, same.mem_iff]

namespace Model

variable {mode : CaseMode} {drafts : List Draft} {definitions : List Definition}

theorem entries_perm (mode : CaseMode) (draft : Draft) (includes : List Nat) :
    (draft.entries mode).Perm (slotsOf mode (draft.definition includes)) :=
  (((Name.sorted_perm draft.aliases).symm).cons draft.name).map fun key =>
    ((draft.level, mode.fold key), draft.id)

theorem after_index_perm (filled : Draft.Filled drafts definitions) :
    (Growing.after mode drafts).model.index.Perm (ofDefinitions mode definitions).index := by
  refine (List.reverse_perm _).trans ?_
  induction filled with
  | nil => exact List.Perm.refl _
  | cons head _ ih =>
      obtain ⟨includes, rfl⟩ := head
      rw [List.flatMap_cons]
      exact (entries_perm mode _ includes).append ih

theorem after_index_lookup (registered : Draft.Registered mode drafts)
    (filled : Draft.Filled drafts definitions) (slot : Slot) :
    (Growing.after mode drafts).model.index.lookup slot =
      (ofDefinitions mode definitions).index.lookup slot :=
  lookup_of_perm (after_index_perm filled)
    ((filled_slots_perm filled).nodup_iff.mpr registered.distinct) slot

/-- Adding each place once to the end keeps the first mention of each, as the resolution does. -/
theorem collect_eq (model : Model) (owner : String) (targets : List Nat) (written : List String) :
    model.collect owner targets written =
      ((model.resolveIncludes owner written).mapError .refused).map fun more =>
        targets ++ more.filter fun id => !targets.contains id := by
  induction written generalizing targets with
  | nil => simp [collect, resolveIncludes, Except.map, Except.mapError]
  | cons included rest ih =>
      rw [collect, resolveIncludes]
      cases (Token.parse included).toOption.bind (model.findId · .strict) with
      | none => rfl
      | some target =>
          simp only
          rw [ih]
          cases model.resolveIncludes owner rest with
          | error fault => rfl
          | ok more =>
              simp only [bind, Except.bind, pure, Except.pure, Except.map, Except.mapError,
                Except.ok.injEq]
              by_cases listed : target ∈ targets
              · simp only [listed, List.contains_eq_mem, decide_true, if_true, List.filter_cons,
                  Bool.not_true, Bool.false_eq_true, if_false, List.filter_filter]
                congr 1
                apply List.filter_congr
                grind
              · simp only [listed, List.contains_eq_mem, decide_false, Bool.false_eq_true,
                  if_false, List.filter_cons, Bool.not_false, if_true, List.filter_filter,
                  List.append_assoc, List.singleton_append]
                congr 2
                apply List.filter_congr
                grind

def holding (model : Model) (definitions : List Definition) : Model :=
  { model with definitions := definitions.toArray }

theorem set_includes_holding (model : Model) (done rest : List Definition)
    (definition : Definition) (includes : List Nat) :
    (model.holding (done ++ definition :: rest)).setIncludes done.length includes =
      .ok (model.holding (done ++ { definition with includes := includes } :: rest)) := by
  have here : (model.holding (done ++ definition :: rest)).get? done.length = some definition := by
    simp [holding, get?]
  rw [setIncludes, fetch_eq_ok here]
  simp only [Except.mapError, bind, Except.bind, pure, Except.pure, holding,
    List.setIfInBounds_toArray, List.set_append_right _ _ (Nat.le_refl _), Nat.sub_self,
    List.set_cons_zero]

theorem find_holding {base : Model} {schema : Schema} (mode : base.case = schema.case)
    (index : ∀ slot, base.index.lookup slot = schema.unresolved.index.lookup slot)
    (filled : Draft.Filled schema.drafts definitions) (token : Token) :
    (base.holding definitions).findId token .strict = schema.unresolved.findId token .strict := by
  apply find_id_agrees
  · intro level name
    change base.index.lookup (level, base.case.fold name) = _
    rw [index, mode]
    rfl
  · intro id
    have kinds := filled.map_eq Definition.kind fun _ _ => rfl
    rw [Schema.unresolved, of_definitions_get, ← List.getElem?_map, kinds, List.getElem?_map]
    simp [holding, get?]

theorem resolve_pending_all (base : Model) {schema : Schema} (mode : base.case = schema.case)
    (index : ∀ slot, base.index.lookup slot = schema.unresolved.index.lookup slot)
    {before rest : List Draft} {done : List Definition} (whole : before ++ rest = schema.drafts)
    (filled : Draft.Filled before done) :
    (Draft.keptAside rest).foldlM resolvePending
        (base.holding (done ++ rest.map fun draft => draft.definition [])) =
      ((schema.unresolved.resolveDrafts rest).mapError .refused).map fun definitions =>
        base.holding (done ++ definitions) := by
  induction rest generalizing before done with
  | nil => rfl
  | cons draft rest ih =>
      have among : draft ∈ schema.drafts := by simp [← whole]
      have place : draft.id = done.length := by
        rw [← filled.length_eq]
        exact schema.drafts_placed (by simp [← whole])
      have later : (before ++ [draft]) ++ rest = schema.drafts := by simpa using whole
      have next (includes : List Nat) := ih later
        (List.rel_append filled (.cons ⟨includes, rfl⟩ .nil))
      simp only [List.append_assoc, List.singleton_append] at next
      rw [resolveDrafts, List.map_cons]
      by_cases composite : draft.kind = .composite
      · have nothing : draft.includes = [] := by
          cases schema.drafts_stand among with
          | atom kind => exact absurd (kind.symm.trans composite) (by decide)
          | composite _ _ nothing => exact nothing
          | member kind => exact absurd (kind.symm.trans composite) (by decide)
        have passed : Draft.keptAside (draft :: rest) = Draft.keptAside rest := by
          simp [Draft.keptAside, composite]
        rw [passed, next, nothing]
        cases schema.unresolved.resolveDrafts rest <;> rfl
      · have kept : Draft.keptAside (draft :: rest) =
            ⟨draft.id, draft.token.text, draft.includes⟩ :: Draft.keptAside rest := by
          simp [Draft.keptAside, composite]
        have whole : Draft.Filled schema.drafts
            (done ++ draft.definition [] :: rest.map fun draft => draft.definition []) := by
          rw [← whole]
          exact List.rel_append filled (Schema.filled_by (fun _ => []) (draft :: rest))
        have resolved := collect_eq (base.holding
          (done ++ draft.definition [] :: rest.map fun draft => draft.definition []))
          draft.token.text [] draft.includes
        rw [resolve_includes_congr (find_holding mode index whole)] at resolved
        rw [kept, List.foldlM_cons, resolvePending, resolved]
        cases schema.unresolved.resolveIncludes draft.token.text draft.includes with
        | error fault => rfl
        | ok includes =>
            have all :
                includes.filter (fun id => !([] : List Nat).contains id) = includes := by simp
            simp only [bind, Except.bind, pure, Except.pure, Except.map, Except.mapError,
              List.nil_append, all, place]
            rw [set_includes_holding]
            refine (next includes).trans ?_
            cases schema.unresolved.resolveDrafts rest <;> rfl

theorem search_cycle_index (model : Model) (index : List (Slot × Nat)) (finished : List Nat)
    (path : List Frame) :
    searchCycle { model with index := index } finished path = model.searchCycle finished path := by
  fun_induction searchCycle model finished path with
  | case1 => rw [searchCycle]
  | case2 finished node path ih => rw [searchCycle, ih]
  | case3 finished node next rest path on => rw [searchCycle, if_pos on]
  | case4 finished node next rest path off enter ih =>
      rw [searchCycle, if_neg off]
      exact (dif_pos enter).trans ih
  | case5 finished node next rest path off stay ih =>
      rw [searchCycle, if_neg off]
      exact (dif_neg stay).trans ih

theorem check_acyclic_index (model : Model) (index : List (Slot × Nat)) :
    checkAcyclic { model with index := index } = model.checkAcyclic := by
  have searched (finished starts : List Nat) :
      searchFrom { model with index := index } finished starts =
        model.searchFrom finished starts := by
    induction starts generalizing finished with
    | nil => rfl
    | cons start starts ih =>
        rw [searchFrom, searchFrom, search_cycle_index]
        simp only [ih]
        rfl
  rw [checkAcyclic, checkAcyclic, cycle?, cycle?, searched]
  rfl

theorem holding_after (filled : Draft.Filled drafts definitions) :
    (Growing.after mode drafts).model.holding definitions =
      { ofDefinitions mode definitions with index := (Growing.after mode drafts).model.index } := by
  have roots : (drafts.filter Draft.isRoot).map Draft.id =
      (definitions.filter fun definition => definition.parent.isNone).map Definition.id := by
    induction filled with
    | nil => rfl
    | @cons draft _ _ _ head _ ih =>
        obtain ⟨includes, rfl⟩ := head
        have same : (draft.definition includes).parent.isNone = draft.isRoot := by
          simp [Draft.definition, Draft.level, Draft.isRoot]
        rw [List.filter_cons, List.filter_cons, same]
        cases draft.isRoot with
        | true => exact congrArg (draft.id :: ·) ih
        | false => exact ih
  simp only [holding, Growing.after, ofDefinitions, roots]

end Model

/-- The two builds go through the same stages. -/
theorem Schema.grow_eq (schema : Schema) : schema.grow =
    (schema.build.mapError .refused).map fun model =>
      { model with index := (Growing.after schema.case schema.drafts).model.index } := by
  have ordered : Draft.Ordered ([] ++ schema.drafts) := schema.drafts_ordered
  have declared :
      schema.declarations.foldlM Growing.declare ⟨⟨schema.case, #[], [], []⟩, []⟩ =
        Growing.advance schema.case [] schema.drafts :=
    Growing.declare_all_after schema.case ordered
  have complete : (Growing.after schema.case schema.drafts).model = (Growing.after schema.case
      schema.drafts).model.holding (schema.drafts.map fun draft => draft.definition []) := by
    rw [← schema.all_grown]
    rfl
  by_cases tooMany : maxModelTokens < schema.size
  · rw [(schema.build_eq_error _).mpr (Or.inl ⟨tooMany, rfl⟩), grow, if_pos tooMany]
    rfl
  · have refusal (fault : Error) := (schema.build_eq_error fault).mpr
    have fits := Nat.le_of_not_lt tooMany
    have start : Growing.taken schema.case [] = [] := rfl
    rw [grow, if_neg tooMany, declared, Growing.advance, start]
    cases registered : Model.register schema.case [] schema.drafts with
    | error fault =>
        rw [refusal fault (Or.inr ⟨fits, Or.inl registered⟩)]
        rfl
    | ok taken =>
        have index := Model.after_index_lookup (registered_of_register registered)
          (filled_by (fun _ => []) schema.drafts)
        have resolved :=
          Model.resolve_pending_all (Growing.after schema.case schema.drafts).model rfl index
            (List.nil_append schema.drafts) .nil
        rw [List.nil_append, ← complete] at resolved
        change (Draft.keptAside schema.drafts).foldlM Model.resolvePending
          (Growing.after schema.case schema.drafts).model >>= _ = _
        rw [resolved]
        cases resolution : schema.unresolved.resolveDrafts schema.drafts with
        | error fault =>
            rw [refusal fault
              (Or.inr ⟨fits, Or.inr ⟨taken, registered, Or.inl resolution⟩⟩)]
            rfl
        | ok definitions =>
            have filled := Model.resolve_drafts_filled resolution
            simp only [bind, Except.bind, Except.map, Except.mapError, List.nil_append]
            rw [Model.holding_after filled, Model.check_acyclic_index]
            cases checked : (Model.ofDefinitions schema.case definitions).checkAcyclic with
            | error fault =>
                rw [refusal fault (Or.inr
                  ⟨fits, Or.inr ⟨taken, registered, Or.inr ⟨_, resolution, checked⟩⟩⟩)]
            | ok =>
                rw [(schema.build_eq_ok _).mpr
                  ⟨fits, ⟨taken, registered⟩, _, resolution, rfl, checked⟩]
                rfl

/-- Inserting one definition after the other gives the model that is read off the finished
definitions, or stops at the same fault. The index has the same entries in another order, and finds
the same. -/
theorem build_by_insertion (schema : Schema) :
    (∀ fault, schema.build = .error fault → schema.grow = .error (.refused fault)) ∧
    ∀ model, schema.build = .ok model →
      ∃ index, schema.grow = .ok { model with index := index } ∧
        index.Perm model.index ∧ ∀ slot, index.lookup slot = model.index.lookup slot := by
  constructor
  · intro fault refused
    rw [schema.grow_eq, refused]
    rfl
  · intro model built
    have grown := schema.grow_eq
    rw [built] at grown
    obtain ⟨_, ⟨_, registered⟩, _, resolution, rfl, _⟩ :=
      (schema.build_eq_ok model).mp built
    have filled := Model.resolve_drafts_filled resolution
    exact ⟨_, grown, Model.after_index_perm filled,
      Model.after_index_lookup (Schema.registered_of_register registered) filled⟩

end ClaimPolicy
