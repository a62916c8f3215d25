import ClaimPolicy.Model.Export
import ClaimPolicy.Proofs.ArenaReads
import ClaimPolicy.Proofs.IncludeRemoval

/-!
Includes that say nothing new. Own tokens of definitions meet exactly along chains of includes, so
that an include is listed as redundant when a longer chain leads to the same place. Includes make no
cycle: between the ends of either half of a chain lie fewer definitions than between the ends of the
whole. So each listed include can be replaced by shorter chains until none is left, and all of them
may be left out at once. An include that is not listed is the only chain between its ends.
-/
namespace ClaimPolicy

namespace Model

variable {model : Model}

theorem includes_source_concrete (wellFormed : model.WellFormed) {id target : Nat}
    {definition : Definition} (found : model.get? id = some definition)
    (step : model.Includes id target) : definition.kind ≠ .composite := by
  intro composite
  have listed := step.1
  rw [includes_of_get found, wellFormed.composites_include_nothing found composite] at listed
  cases listed

theorem chain_source_concrete (wellFormed : model.WellFormed) {id target : Nat}
    {definition : Definition} (found : model.get? id = some definition)
    (chain : model.IncludesChain id target) : definition.kind ≠ .composite := by
  cases chain with
  | single step => exact includes_source_concrete wellFormed found step
  | cons step _ => exact includes_source_concrete wellFormed found step

theorem canonical_own_token (indexed : model.Indexed) {id : Nat} {definition : Definition}
    (found : model.get? id = some definition) :
    model.canonicalOrSelf definition.token = definition.token :=
  canonical_or_self_of_find (find_own_token indexed found) found

/-- The own token of a definition meets that of an atom or member only if it is the same definition
or includes it. -/
theorem own_match_iff (wellFormed : model.WellFormed) {first second : Nat} {one other : Definition}
    (found : model.get? first = some one) (there : model.get? second = some other)
    (concrete : other.kind ≠ .composite) :
    model.tokenMatch one.token other.token = true ↔
      first = second ∨ model.IncludesChain first second := by
  have indexed := wellFormed.toIndexed
  have own := find_own_token indexed found
  have strict := find_own_token_strict indexed there concrete
  rw [token_match_iff, canonical_own_token indexed found, canonical_own_token indexed there]
  constructor
  · rintro (met | ⟨start, id, definition, started, chain, here, met⟩)
    · have again := find_claim_of_strict (find_strict_of_meets indexed met strict)
      exact Or.inl (Option.some.inj (own.symm.trans again))
    · have starts : start = first :=
        Option.some.inj ((find_claim_of_strict started).symm.trans own)
      have ends : id = second := chain_end_start wellFormed chain here met strict
      subst starts ends
      exact Or.inr chain
  · rintro (rfl | chain)
    · rw [Option.some.inj (found.symm.trans there)]
      exact Or.inl (Token.meets_refl _ _)
    · have starts :=
        find_own_token_strict indexed found (chain_source_concrete wellFormed found chain)
      exact Or.inr ⟨first, second, other, starts, chain, there, Token.meets_refl _ _⟩

/-- An include is redundant as a step when a chain of two or more includes leads to the same
place. -/
def Bypassed (model : Model) (source target : Nat) : Prop :=
  ∃ middle, model.Includes source middle ∧ model.IncludesChain middle target

theorem mem_included (indexed : model.Indexed) (ids : List Nat) (included : Definition) :
    included ∈ ids.filterMap model.get? ↔
      included.id ∈ ids ∧ model.get? included.id = some included := by
  rw [List.mem_filterMap]
  constructor
  · rintro ⟨id, member, found⟩
    have placed := indexed.placed found
    subst placed
    exact ⟨member, found⟩
  · rintro ⟨member, found⟩
    exact ⟨included.id, member, found⟩

/-- The listed includes are those that are bypassed. -/
theorem mem_redundant_iff (built : model.Built) {id : Nat} {definition : Definition}
    (found : model.get? id = some definition) (included : Definition) :
    included ∈ model.redundantIncludes definition ↔
      (included.id ∈ definition.includes ∧ model.get? included.id = some included) ∧
        model.Bypassed id included.id := by
  have wellFormed := built.well_formed
  have indexed := wellFormed.toIndexed
  simp only [redundantIncludes, List.mem_filter, List.any_eq_true, mem_included indexed,
    Bool.and_eq_true, bne_iff_ne]
  refine and_congr_right ?_
  rintro ⟨listed, here⟩
  have concrete : included.kind ≠ .composite := by
    obtain ⟨other, there, kind⟩ := wellFormed.included found listed
    exact Option.some.inj (there.symm.trans here) ▸ kind
  constructor
  · rintro ⟨other, ⟨member, there⟩, apart, met⟩
    have chain := ((own_match_iff wellFormed there here concrete).mp met).resolve_left apart
    exact ⟨other.id, ⟨includes_of_get found ▸ member, lt_of_get there⟩, chain⟩
  · rintro ⟨middle, step, chain⟩
    obtain ⟨other, there⟩ := get_of_lt step.2
    have placed := indexed.placed there
    subst placed
    refine ⟨other, ⟨includes_of_get found ▸ step.1, there⟩, ?_, ?_⟩
    · intro same
      rw [same] at chain
      exact built.acyclic _ chain
    · exact (own_match_iff wellFormed there here concrete).mpr (Or.inr chain)

/-- Whether the include from one place to another is listed for its definition. -/
def reported (model : Model) (source target : Nat) : Bool :=
  (model.get? source).any fun definition =>
    (model.redundantIncludes definition).any fun included => included.id == target

theorem reported_iff (built : model.Built) (source target : Nat) :
    model.reported source target = true ↔
      model.Includes source target ∧ model.Bypassed source target := by
  simp only [reported, Option.any_eq_true, List.any_eq_true, beq_iff_eq]
  constructor
  · rintro ⟨definition, found, included, member, rfl⟩
    obtain ⟨⟨listed, here⟩, bypassed⟩ := (mem_redundant_iff built found included).mp member
    exact ⟨⟨includes_of_get found ▸ listed, lt_of_get here⟩, bypassed⟩
  · rintro ⟨step, bypassed⟩
    obtain ⟨definition, found⟩ := get_of_lt (includes_source_lt step)
    obtain ⟨included, here⟩ := get_of_lt step.2
    have placed := built.well_formed.placed here
    subst placed
    have member := includes_of_get found ▸ step.1
    exact ⟨definition, found, included,
      (mem_redundant_iff built found included).mpr ⟨⟨member, here⟩, bypassed⟩, rfl⟩

/-- How many definitions lie on chains between two places. -/
def between (model : Model) (source target : Nat) : Nat :=
  (List.range model.size).countP fun id =>
    model.includesWanted source (· == id) && model.includesWanted id (· == target)

theorem on_chain_iff (source id target : Nat) :
    (model.includesWanted source (· == id) && model.includesWanted id (· == target)) = true ↔
      model.IncludesChain source id ∧ model.IncludesChain id target := by
  simp [includes_wanted_iff]

/-- A place on the way lies between the ends of the whole, but not between those of a half. -/
theorem between_halves_lt (acyclic : model.Acyclic) {source middle target : Nat}
    (front : model.IncludesChain source middle) (back : model.IncludesChain middle target) :
    model.between source middle < model.between source target ∧
      model.between middle target < model.between source target := by
  have inside : middle ∈ List.range model.size := List.mem_range.mpr (chain_source_lt back)
  have here := (on_chain_iff source middle target).mpr ⟨front, back⟩
  constructor
  · refine count_lt_of_member ?_ inside here ?_
    · intro id half
      obtain ⟨one, other⟩ := (on_chain_iff source id middle).mp half
      exact (on_chain_iff source id target).mpr ⟨one, chain_trans other back⟩
    · rw [Bool.eq_false_iff]
      intro half
      exact acyclic middle ((on_chain_iff source middle middle).mp half).2
  · refine count_lt_of_member ?_ inside here ?_
    · intro id half
      obtain ⟨one, other⟩ := (on_chain_iff middle id target).mp half
      exact (on_chain_iff source id target).mpr ⟨chain_trans front one, other⟩
    · rw [Bool.eq_false_iff]
      intro half
      exact acyclic middle ((on_chain_iff middle middle target).mp half).1

def unreported (model : Model) (source target : Nat) : Bool := !model.reported source target

theorem chain_unreported (built : model.Built) (source target : Nat)
    (chain : model.IncludesChain source target) :
    (model.keeping model.unreported).IncludesChain source target := by
  -- By the number of definitions between the ends, which is smaller for both parts of a chain.
  induction measured : model.between source target using Nat.strongRecOn
    generalizing source target with
  | ind count ih =>
      have halves : ∀ middle, model.IncludesChain source middle →
          model.IncludesChain middle target →
            (model.keeping model.unreported).IncludesChain source target := by
        intro middle front back
        obtain ⟨first, second⟩ := between_halves_lt built.acyclic front back
        exact chain_trans (ih _ (measured ▸ first) _ _ front rfl)
          (ih _ (measured ▸ second) _ _ back rfl)
      cases chain with
      | cons step rest => exact halves _ (.single step) rest
      | single step =>
          cases kept : model.unreported source target with
          | true =>
              exact .single
                ((keeping_includes_iff built.well_formed.toIndexed _ _).mpr ⟨step, kept⟩)
          | false =>
              have listed : model.reported source target = true := by simpa [unreported] using kept
              obtain ⟨_, middle, first, rest⟩ := (reported_iff built source target).mp listed
              exact halves middle (.single first) rest

def allBut (source target first last : Nat) : Bool := !(first == source && last == target)

theorem no_chain_without (indexed : model.Indexed) {source target : Nat}
    (needed : ¬ model.Bypassed source target) :
    ¬ (model.keeping (allBut source target)).IncludesChain source target := by
  intro chain
  cases chain with
  | single step =>
      have kept := ((keeping_includes_iff indexed _ _).mp step).2
      simp [allBut] at kept
  | cons step rest =>
      exact needed
        ⟨_, ((keeping_includes_iff indexed _ _).mp step).1, chain_of_keeping indexed rest⟩

/-- The own tokens at both ends of an include meet, and no longer do so without it if it is not
bypassed. -/
theorem token_match_without (built : model.Built) {source target : Nat} {one other : Definition}
    (found : model.get? source = some one) (there : model.get? target = some other)
    (step : model.Includes source target) (needed : ¬ model.Bypassed source target)
    (smaller : (model.keeping (allBut source target)).WellFormed) :
    model.tokenMatch one.token other.token = true ∧
      (model.keeping (allBut source target)).tokenMatch one.token other.token = false := by
  have wellFormed := built.well_formed
  obtain ⟨again, here, concrete⟩ := includes_concrete wellFormed step
  cases Option.some.inj (here.symm.trans there)
  have apart : source ≠ target := by
    intro same
    exact built.acyclic source (.single (same.symm ▸ step))
  constructor
  · exact (own_match_iff wellFormed found there concrete).mpr (Or.inr (.single step))
  · have left := congrArg (Option.map (Definition.keeping (allBut source target))) found
    have right := congrArg (Option.map (Definition.keeping (allBut source target))) there
    rw [← keeping_get] at left right
    rw [Bool.eq_false_iff]
    intro met
    rcases (own_match_iff smaller left right concrete).mp met with same | chain
    · exact apart same
    · exact no_chain_without wellFormed.toIndexed needed chain

end Model

/-- An include is listed exactly when a chain of two or more includes leads to the same place. All
that is listed may be left out of the declarations at once: they build a model with the same
matches. Whatever else is left out is missed, for its source then no longer meets its target. -/
theorem Schema.redundant_includes_removable (schema : Schema) (model : Model)
    (accepted : schema.build = .ok model) :
    (∀ id definition, model.get? id = some definition → ∀ included,
      included ∈ model.redundantIncludes definition ↔
        (included.id ∈ definition.includes ∧ model.get? included.id = some included) ∧
          model.Bypassed id included.id) ∧
    ((schema.keeping (schema.keeps model.unreported)).build =
      .ok (model.keeping model.unreported) ∧
      ∀ source target, (model.keeping model.unreported).tokenMatch source target =
        model.tokenMatch source target) ∧
    ∀ id definition included, model.get? id = some definition →
      included.id ∈ definition.includes → model.get? included.id = some included →
        included ∉ model.redundantIncludes definition →
          (schema.keeping (schema.keeps (Model.allBut id included.id))).build =
              .ok (model.keeping (Model.allBut id included.id)) ∧
            model.tokenMatch definition.token included.token = true ∧
              (model.keeping (Model.allBut id included.id)).tokenMatch definition.token
                included.token =
                false := by
  have built : model.Built := ⟨schema, accepted⟩
  have indexed := built.well_formed.toIndexed
  refine ⟨fun _ _ found => Model.mem_redundant_iff built found, ⟨?_, ?_⟩, ?_⟩
  · exact keeping_builds accepted _
  · exact Model.token_match_keeping indexed (Model.chain_unreported built)
  · intro id definition included found listed here unreported
    have needed : ¬ model.Bypassed id included.id := fun bypassed =>
      unreported ((Model.mem_redundant_iff built found included).mpr
        ⟨⟨listed, here⟩, bypassed⟩)
    have step : model.Includes id included.id :=
      ⟨Model.includes_of_get found ▸ listed, Model.lt_of_get here⟩
    have fewer := keeping_builds accepted (Model.allBut id included.id)
    exact ⟨fewer, Model.token_match_without built found here step needed
      (Model.Built.well_formed ⟨_, fewer⟩)⟩

/-- An administrator that includes viewers by themselves and again through editors. -/
def shortcutSchema : Schema where
  declarations := [
    .atom ⟨"admin", ["root"], ["role:editor", "R:Reader"]⟩,
    .composite ⟨"role", ["r"],
      [⟨"editor", [], ["role:viewer"]⟩, ⟨"viewer", ["reader"], []⟩]⟩]

def shortcutModel : Model :=
  { roleModel with
    definitions := #[
      ⟨0, "admin", .atom "admin", .atom, ["root"], [2, 3], [], none⟩,
      ⟨1, "role", .composite "role" "*", .composite, ["r"], [], [2, 3], none⟩,
      ⟨2, "editor", .composite "role" "editor", .member, [], [3], [], some 1⟩,
      ⟨3, "viewer", .composite "role" "viewer", .member, ["reader"], [], [], some 1⟩] }

theorem shortcut_schema_builds : shortcutSchema.build = .ok shortcutModel := by
  have acyclic : shortcutModel.checkAcyclic = .ok () :=
    Model.check_acyclic_of_depth ([2, 0, 1, 0].getD · 0) (by decide)
  exact Schema.build_of_layout (by decide) (by decide +kernel) (by decide +kernel)
    (by decide +kernel) (by decide +kernel) acyclic

/-- The shortcut to viewers is listed and not missed when it is left out; the step from editors to
viewers is not listed, and without it editors do not meet viewers. -/
theorem shortcut_listed :
    shortcutSchema.build = .ok shortcutModel ∧
    (∃ admin viewer, shortcutModel.get? 0 = some admin ∧ shortcutModel.get? 3 = some viewer ∧
      viewer ∈ shortcutModel.redundantIncludes admin) ∧
    (shortcutModel.keeping shortcutModel.unreported).tokenMatch (.atom "ROOT")
      (.composite "r" "viewer") = true ∧
    ∃ editor viewer, shortcutModel.get? 2 = some editor ∧ shortcutModel.get? 3 = some viewer ∧
      viewer ∉ shortcutModel.redundantIncludes editor ∧
        (shortcutModel.keeping (Model.allBut 2 3)).tokenMatch editor.token viewer.token =
          false := by
  obtain ⟨lists, ⟨_, alike⟩, misses⟩ :=
    Schema.redundant_includes_removable shortcutSchema shortcutModel shortcut_schema_builds
  have edits : shortcutModel.Includes 0 2 := ⟨by decide, by decide⟩
  have reads : shortcutModel.Includes 2 3 := ⟨by decide, by decide⟩
  have acyclic : shortcutModel.Acyclic :=
    (Schema.built_from shortcut_schema_builds).acyclic
  have bypassed : shortcutModel.Bypassed 0 3 := ⟨2, edits, .single reads⟩
  have needed : ¬ shortcutModel.Bypassed 2 3 := by
    rintro ⟨middle, step, chain⟩
    have only : middle = 3 := List.mem_singleton.mp step.1
    subst only
    exact acyclic 3 chain
  have met : shortcutModel.tokenMatch (.atom "ROOT") (.composite "r" "viewer") = true :=
    (Model.token_match_iff _ _).mpr
      (Or.inr ⟨0, 3, _, by decide +kernel, .cons edits (.single reads), rfl, by decide +kernel⟩)
  have unlisted : shortcutModel.definitions[3] ∉
      shortcutModel.redundantIncludes shortcutModel.definitions[2] :=
    fun member => needed ((lists 2 _ rfl _).mp member).2
  refine ⟨shortcut_schema_builds, ⟨_, _, rfl, rfl, ?_⟩, (alike _ _).trans met,
    ⟨_, _, rfl, rfl, unlisted, ?_⟩⟩
  · exact (lists 0 _ rfl _).mpr ⟨⟨by decide, rfl⟩, bypassed⟩
  · exact (misses 2 _ _ rfl (by decide) rfl unlisted).2.2

end ClaimPolicy
