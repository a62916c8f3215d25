import ClaimPolicy.Model.Reach

/-!
The walk over includes decides whether a chain of includes leads to something wanted. What it finds
lies at the end of a chain from a pending definition. When it finds nothing, the definitions that it
has marked at the end contain all that is pending, are closed under includes and hold nothing
wanted.
-/
namespace ClaimPolicy.Model

variable {model : Model}

theorem chain_trans {first second third : Nat} (front : model.IncludesChain first second)
    (back : model.IncludesChain second third) : model.IncludesChain first third := by
  induction front with
  | single step => exact .cons step back
  | cons step _ ih => exact .cons step (ih back)

/-- A set of definitions that includes never leave. -/
def ClosedUnderIncludes (model : Model) (inside : Nat → Prop) : Prop :=
  ∀ source target, inside source → model.Includes source target → inside target

theorem chain_stays_inside {inside : Nat → Prop} (closed : model.ClosedUnderIncludes inside)
    {source target : Nat} (chain : model.IncludesChain source target)
    (entered : ∀ next, model.Includes source next → inside next) : inside target := by
  induction chain with
  | single step => exact entered _ step
  | cons step _ ih =>
      apply ih
      intro next further
      exact closed _ next (entered _ step) further

theorem reaches_sound {wanted : Nat → Bool} {marks : Array Bool} {pending : List Nat}
    (sized : marks.size = model.size) (found : model.reaches wanted marks pending = true) :
    ∃ start ∈ pending, start < model.size ∧
      ∃ id, wanted id = true ∧ (id = start ∨ model.IncludesChain start id) := by
  fun_induction reaches model wanted marks pending with
  | case1 => simp at found
  | case2 marks id pending fresh ih =>
      have inside : id < model.size := by
        rw [← sized]
        exact (Array.getElem?_eq_some_iff.mp fresh).1
      rw [Bool.or_eq_true] at found
      rcases found with here | later
      · exact ⟨id, List.mem_cons_self, inside, id, here, Or.inl rfl⟩
      · obtain ⟨start, member, startInside, goal, holds, reached⟩ :=
          ih (by simpa using sized) later
        rcases List.mem_append.mp member with included | waiting
        · have step : model.Includes id start := ⟨included, startInside⟩
          refine ⟨id, List.mem_cons_self, inside, goal, holds, Or.inr ?_⟩
          rcases reached with rfl | chain
          · exact .single step
          · exact .cons step chain
        · exact ⟨start, List.mem_cons_of_mem _ waiting, startInside, goal, holds, reached⟩
  | case3 marks id pending _ ih =>
      obtain ⟨start, member, rest⟩ := ih sized found
      exact ⟨start, List.mem_cons_of_mem _ member, rest⟩

/-- What a marked definition must satisfy while the walk goes on: it is not wanted, and each of its
includes is marked or still pending. -/
def WalkInvariant (model : Model) (wanted : Nat → Bool) (marks : Array Bool)
    (pending : List Nat) : Prop :=
  ∀ id, marks[id]? = some true →
    wanted id = false ∧
      ∀ target, model.Includes id target → marks[target]? = some true ∨ target ∈ pending

theorem walk_visit {wanted : Nat → Bool} {marks : Array Bool} {id : Nat} {pending : List Nat}
    (invariant : model.WalkInvariant wanted marks (id :: pending))
    (fresh : marks[id]? = some false) (unwanted : wanted id = false) :
    model.WalkInvariant wanted (marks.setIfInBounds id true)
      (model.includesOf id ++ pending) := by
  have bound : id < marks.size := (Array.getElem?_eq_some_iff.mp fresh).1
  have nowMarked : (marks.setIfInBounds id true)[id]? = some true := by simp [bound]
  intro other marked
  by_cases same : other = id
  · subst same
    exact ⟨unwanted, fun target step => Or.inr (List.mem_append_left _ step.1)⟩
  · rw [Array.getElem?_setIfInBounds_ne (Ne.symm same)] at marked
    obtain ⟨otherUnwanted, covered⟩ := invariant other marked
    refine ⟨otherUnwanted, ?_⟩
    intro target step
    by_cases visited : target = id
    · subst visited
      exact Or.inl nowMarked
    · rw [Array.getElem?_setIfInBounds_ne (Ne.symm visited)]
      rcases covered target step with done | waiting
      · exact Or.inl done
      · have later := (List.mem_cons.mp waiting).resolve_left visited
        exact Or.inr (List.mem_append_right _ later)

theorem walk_skip {wanted : Nat → Bool} {marks : Array Bool} {id : Nat} {pending : List Nat}
    (sized : marks.size = model.size)
    (invariant : model.WalkInvariant wanted marks (id :: pending))
    (seen : ¬ marks[id]? = some false) : model.WalkInvariant wanted marks pending := by
  intro other marked
  obtain ⟨unwanted, covered⟩ := invariant other marked
  refine ⟨unwanted, ?_⟩
  intro target step
  rcases covered target step with done | waiting
  · exact Or.inl done
  · rcases List.mem_cons.mp waiting with rfl | later
    · have bound : target < marks.size := by rw [sized]; exact step.2
      left
      rw [Array.getElem?_eq_getElem bound] at seen ⊢
      simpa using seen
    · exact Or.inr later

theorem reaches_complete {wanted : Nat → Bool} {marks : Array Bool} {pending : List Nat}
    (sized : marks.size = model.size) (invariant : model.WalkInvariant wanted marks pending)
    (missed : model.reaches wanted marks pending = false) :
    ∃ inside : Nat → Prop, model.ClosedUnderIncludes inside ∧
      (∀ id, inside id → wanted id = false) ∧
      (∀ id, marks[id]? = some true → inside id) ∧
        ∀ id ∈ pending, id < model.size → inside id := by
  fun_induction reaches model wanted marks pending with
  | case1 marks =>
      refine ⟨fun id => marks[id]? = some true, ?_, fun id marked => (invariant id marked).1,
        fun _ marked => marked, by simp⟩
      intro source target marked step
      rcases (invariant source marked).2 target step with done | waiting
      · exact done
      · simp at waiting
  | case2 marks id pending fresh ih =>
      rw [Bool.or_eq_false_iff] at missed
      have bound : id < marks.size := (Array.getElem?_eq_some_iff.mp fresh).1
      obtain ⟨inside, closed, unwanted, kept, covered⟩ :=
        ih (by simpa using sized) (walk_visit invariant fresh missed.1) missed.2
      refine ⟨inside, closed, unwanted, ?_, ?_⟩
      · intro other marked
        apply kept
        by_cases same : other = id
        · subst same
          simp [bound]
        · rw [Array.getElem?_setIfInBounds_ne (Ne.symm same)]
          exact marked
      · intro other member valid
        rcases List.mem_cons.mp member with rfl | waiting
        · exact kept other (by simp [bound])
        · exact covered other (List.mem_append_right _ waiting) valid
  | case3 marks id pending seen ih =>
      obtain ⟨inside, closed, unwanted, kept, covered⟩ :=
        ih sized (walk_skip sized invariant seen) missed
      refine ⟨inside, closed, unwanted, kept, ?_⟩
      intro other member valid
      rcases List.mem_cons.mp member with rfl | waiting
      · apply kept
        have bound : other < marks.size := by rw [sized]; exact valid
        rw [Array.getElem?_eq_getElem bound] at seen ⊢
        simpa using seen
      · exact covered other waiting valid

/-- The walk finds something wanted exactly when a chain of includes ends there. -/
theorem includes_wanted_iff (source : Nat) (wanted : Nat → Bool) :
    model.includesWanted source wanted = true ↔
      ∃ target, model.IncludesChain source target ∧ wanted target = true := by
  have sized : (Array.replicate model.size false).size = model.size := by simp
  constructor
  · intro found
    obtain ⟨start, member, inside, goal, holds, reached⟩ := reaches_sound sized found
    have step : model.Includes source start := ⟨member, inside⟩
    refine ⟨goal, ?_, holds⟩
    rcases reached with rfl | chain
    · exact .single step
    · exact .cons step chain
  · intro reached
    rcases reached with ⟨target, chain, holds⟩
    cases outcome : model.includesWanted source wanted with
    | true => rfl
    | false =>
        have initial : model.WalkInvariant wanted (Array.replicate model.size false)
            (model.includesOf source) := by
          intro id marked
          simp [Array.getElem?_replicate] at marked
        obtain ⟨inside, closed, unwanted, _, covered⟩ := reaches_complete sized initial outcome
        have ended : inside target :=
          chain_stays_inside closed chain fun next step => covered next step.1 step.2
        rw [unwanted target ended] at holds
        exact absurd holds (by decide)

end ClaimPolicy.Model
