import ClaimPolicy.Model.Reach

/-!
The search for a cycle of includes. The search goes depth first, with the definitions on the current
path and, for each, the includes not yet followed. It stops at the first include that leads back to
the path; a definition all of whose includes were followed is finished and never entered again.
-/
namespace ClaimPolicy.Model

def unseen (model : Model) (seen : List Nat) : Nat :=
  (List.range model.size).countP fun id => !seen.contains id

theorem count_lt_of_member {p q : Nat → Bool} (implied : ∀ id, p id = true → q id = true)
    {ids : List Nat} {id : Nat} (member : id ∈ ids) (holds : q id = true) (fails : p id = false) :
    ids.countP p < ids.countP q := by
  induction ids with
  | nil => simp at member
  | cons first rest ih =>
      rw [List.countP_cons, List.countP_cons]
      rcases List.mem_cons.1 member with same | later
      · subst same
        have rest_le : rest.countP p ≤ rest.countP q :=
          List.countP_mono_left fun other _ => implied other
        simp only [holds, fails, if_true]
        simp only [Bool.false_eq_true, if_false]
        omega
      · have inner := ih later
        by_cases head : p first = true
        · simp only [head, implied first head, if_true]
          omega
        · simp only [head, Bool.false_eq_true, if_false]
          omega

theorem unseen_cons_lt (model : Model) (seen : List Nat) (id : Nat)
    (inside : id < model.size) (fresh : seen.contains id = false) :
    model.unseen (id :: seen) < model.unseen seen := by
  refine count_lt_of_member ?_ (List.mem_range.2 inside) ?_ ?_
  · intro other unseen
    simp only [List.contains_cons, Bool.not_or, Bool.and_eq_true] at unseen
    exact unseen.2
  · simpa using fresh
  · simp

/-- A definition on the path and its includes that are still to be followed. -/
structure Frame where
  node : Nat
  remaining : List Nat

def workLeft (path : List Frame) : Nat :=
  path.foldr (fun frame total => frame.remaining.length + 1 + total) 0

def onPath (path : List Frame) (id : Nat) : Bool :=
  path.any fun frame => frame.node == id

def untouched (model : Model) (finished : List Nat) (path : List Frame) : Nat :=
  model.unseen (finished ++ path.map Frame.node)

theorem unseen_congr (model : Model) (left right : List Nat)
    (same : ∀ id, left.contains id = right.contains id) :
    model.unseen left = model.unseen right := by
  unfold unseen
  congr 2
  funext id
  rw [same id]

/-- Either the definition at which a cycle closes, or all that is finished after the path. -/
def searchCycle (model : Model) (finished : List Nat) : List Frame → Except Nat (List Nat)
  | [] => .ok finished
  | ⟨node, []⟩ :: path => searchCycle model (node :: finished) path
  | ⟨node, next :: rest⟩ :: path =>
      if onPath (⟨node, next :: rest⟩ :: path) next then .error next
      else if _enter : next < model.size ∧ finished.contains next = false ∧
          onPath (⟨node, rest⟩ :: path) next = false then
        searchCycle model finished (⟨next, model.includesOf next⟩ :: ⟨node, rest⟩ :: path)
      else searchCycle model finished (⟨node, rest⟩ :: path)
termination_by path => (model.untouched finished path, workLeft path)
decreasing_by
  · have same : model.untouched (node :: finished) path =
        model.untouched finished (⟨node, []⟩ :: path) := by
      apply unseen_congr
      intro id
      simp only [List.map_cons, List.contains_eq_mem, List.cons_append, List.mem_cons,
        List.mem_append]
      congr 1
      simp only [eq_iff_iff]
      grind
    rw [same]
    exact Prod.Lex.right _ (by simp [workLeft])
  · have fewer : model.untouched finished
        (⟨next, model.includesOf next⟩ :: ⟨node, rest⟩ :: path) <
          model.untouched finished (⟨node, next :: rest⟩ :: path) := by
      have grown : model.untouched finished
          (⟨next, model.includesOf next⟩ :: ⟨node, rest⟩ :: path) =
            model.unseen (next :: (finished ++ node :: path.map Frame.node)) := by
        apply unseen_congr
        intro id
        simp only [List.map_cons, List.contains_eq_mem, List.mem_cons, List.mem_append]
        congr 1
        simp only [eq_iff_iff]
        grind
      rw [grown]
      refine unseen_cons_lt model _ next _enter.1 ?_
      have absent := _enter.2.2
      simp only [onPath, List.any_eq_false, List.mem_cons, beq_iff_eq] at absent
      have unfinished := _enter.2.1
      simp only [List.contains_eq_mem, decide_eq_false_iff_not, List.mem_append, List.mem_cons,
        List.mem_map, not_or, not_exists, not_and] at unfinished ⊢
      exact ⟨unfinished, fun same => absent ⟨node, rest⟩ (Or.inl rfl) same.symm,
        fun frame member => absent frame (Or.inr member)⟩
    exact Prod.Lex.left _ _ fewer
  · exact Prod.Lex.right _ (by simp [workLeft])

/-- Searches from every definition that is not finished yet, in the order of `starts`. -/
def searchFrom (model : Model) (finished : List Nat) : List Nat → Except Nat (List Nat)
  | [] => .ok finished
  | start :: starts =>
      if finished.contains start then searchFrom model finished starts
      else
        match model.searchCycle finished [⟨start, model.includesOf start⟩] with
        | .error closing => .error closing
        | .ok finished => searchFrom model finished starts

def cycle? (model : Model) : Option Nat :=
  match model.searchFrom [] (List.range model.size) with
  | .error closing => some closing
  | .ok _ => none

def checkAcyclic (model : Model) : Except Error Unit :=
  match model.cycle?.bind model.get? with
  | some definition => .error (.includeCycle definition.token.text)
  | none => .ok ()

def Acyclic (model : Model) : Prop :=
  ∀ id, ¬ model.IncludesChain id id

end ClaimPolicy.Model
