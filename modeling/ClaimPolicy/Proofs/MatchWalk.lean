import ClaimPolicy.Proofs.Construction

/-!
The walk over includes as matching takes it, read by read. A definition is marked and compared with
the target when the walk first comes to it, and is pending until its own includes are visited; the
one that came last is visited first. Where the walk starts is marked before, so it is not compared.
A read outside the arena stops the walk at the place that was read.

In a well-formed model no read stops the walk, and its answer is whether a chain of includes leads
from the start to a definition that meets the target.
-/
namespace ClaimPolicy.Model

def fetch (model : Model) (id : Nat) : Except Nat Definition :=
  match model.get? id with
  | some definition => .ok definition
  | none => .error id

structure Walk where
  marks : Array Bool
  pending : List Nat

def Walk.come (walk : Walk) (id : Nat) : Walk :=
  ⟨walk.marks.setIfInBounds id true, id :: walk.pending⟩

/-- Visits includes in turn. Nothing is left of the walk when one of them meets the target. -/
def visit (model : Model) (target : Token) (walk : Walk) : List Nat → Except Nat (Option Walk)
  | [] => .ok (some walk)
  | included :: rest =>
      match walk.marks[included]? with
      | none => .error included
      | some true => visit model target walk rest
      | some false =>
          match model.fetch included with
          | .error place => .error place
          | .ok definition =>
              if Token.meets model.case definition.token target then .ok none
              else visit model target (walk.come included) rest

def Walk.left (walk : Walk) : Nat := unmarked walk.marks + walk.pending.length

theorem Walk.come_left {walk : Walk} {id : Nat} (fresh : walk.marks[id]? = some false) :
    (walk.come id).left = walk.left := by
  have fewer := unmarked_set fresh
  simp only [Walk.left, Walk.come, List.length_cons]
  omega

theorem visit_left {model : Model} {target : Token} {walk later : Walk} {includes : List Nat}
    (goes : model.visit target walk includes = .ok (some later)) : later.left = walk.left := by
  fun_induction visit model target walk includes with
  | case1 =>
      cases goes
      rfl
  | case2 => cases goes
  | case3 walk included rest seen ih => exact ih goes
  | case4 => cases goes
  | case5 => cases goes
  | case6 walk included rest fresh definition fetched unmet ih =>
      rw [ih goes, Walk.come_left fresh]

def walkFrom (model : Model) (target : Token) (marks : Array Bool) : List Nat → Except Nat Bool
  | [] => .ok false
  | id :: pending =>
      match model.fetch id with
      | .error place => .error place
      | .ok definition =>
          match _goes : model.visit target ⟨marks, pending⟩ definition.includes with
          | .error place => .error place
          | .ok none => .ok true
          | .ok (some later) => walkFrom model target later.marks later.pending
termination_by pending => unmarked marks + pending.length
decreasing_by
  have same := visit_left _goes
  simp only [Walk.left] at same
  simp only [List.length_cons]
  omega

variable {model : Model}

theorem fetch_eq_ok_iff (id : Nat) (definition : Definition) :
    model.fetch id = .ok definition ↔ model.get? id = some definition := by
  rw [fetch]
  cases model.get? id <;> simp

theorem fetch_eq_ok {id : Nat} {definition : Definition} (found : model.get? id = some definition) :
    model.fetch id = .ok definition :=
  (fetch_eq_ok_iff id definition).mpr found

theorem includes_of_get {id : Nat} {definition : Definition}
    (found : model.get? id = some definition) : model.includesOf id = definition.includes := by
  rw [includesOf, found]

theorem get_of_lt {id : Nat} (inside : id < model.size) :
    ∃ definition, model.get? id = some definition :=
  ⟨model.definitions[id], Array.getElem?_eq_getElem inside⟩

theorem lt_of_get {id : Nat} {definition : Definition} (found : model.get? id = some definition) :
    id < model.size :=
  (Array.getElem?_eq_some_iff.mp found).1

theorem includes_inside (wellFormed : model.WellFormed) {id : Nat} {definition : Definition}
    (found : model.get? id = some definition) :
    ∀ target ∈ definition.includes, target < model.size := by
  intro target member
  obtain ⟨_, there, _⟩ := wellFormed.included found member
  exact lt_of_get there

def meetsAt (model : Model) (target : Token) (id : Nat) : Bool :=
  (model.get? id).any fun definition => Token.meets model.case definition.token target

/-- What the walk keeps true while it visits the includes of `current`, of which `rest` are to
come. -/
structure Walk.Right (model : Model) (target : Token) (start current : Nat) (rest : List Nat)
    (walk : Walk) : Prop where
  sized : walk.marks.size = model.size
  started : walk.marks[start]? = some true
  entered : walk.marks[current]? = some true
  listed : ∀ next ∈ rest, model.Includes current next
  waiting : ∀ id ∈ walk.pending, walk.marks[id]? = some true
  reached : ∀ id, walk.marks[id]? = some true → id = start ∨ model.IncludesChain start id
  unmet : ∀ id, walk.marks[id]? = some true → model.meetsAt target id = false
  followed : ∀ id, walk.marks[id]? = some true → id ∈ walk.pending ∨
    ∀ next, model.Includes id next →
      walk.marks[next]? = some true ∨ id = current ∧ next ∈ rest

namespace Walk.Right

variable {target : Token} {start current : Nat} {rest : List Nat} {walk : Walk}

theorem chain (right : walk.Right model target start current rest) {next : Nat}
    (member : next ∈ rest) : model.IncludesChain start next := by
  have step := right.listed next member
  rcases right.reached current right.entered with rfl | before
  · exact .single step
  · exact chain_trans before (.single step)

theorem skip {included : Nat} (right : walk.Right model target start current (included :: rest))
    (seen : walk.marks[included]? = some true) : walk.Right model target start current rest := by
  refine { right with listed := fun next member => right.listed next (List.mem_cons_of_mem _ member)
                      followed := ?_ }
  intro id marked
  apply (right.followed id marked).imp_right
  intro covered next step
  rcases covered next step with done | ⟨same, member⟩
  · exact Or.inl done
  · rcases List.mem_cons.mp member with rfl | later
    · exact Or.inl seen
    · exact Or.inr ⟨same, later⟩

theorem come {included : Nat} (right : walk.Right model target start current (included :: rest))
    (unmet : model.meetsAt target included = false) :
    (walk.come included).Right model target start current rest := by
  have chain := right.chain List.mem_cons_self
  have inside : included < walk.marks.size :=
    right.sized ▸ (right.listed included List.mem_cons_self).2
  have marks (id : Nat) : (walk.come included).marks[id]? = some true ↔
      id = included ∨ walk.marks[id]? = some true := by
    simp only [Walk.come, Array.getElem?_setIfInBounds]
    grind
  constructor
  · simpa [Walk.come] using right.sized
  · exact (marks start).mpr (Or.inr right.started)
  · exact (marks current).mpr (Or.inr right.entered)
  · exact fun next member => right.listed next (List.mem_cons_of_mem _ member)
  · intro id member
    exact (marks id).mpr ((List.mem_cons.mp member).imp_right (right.waiting id))
  · intro id marked
    rcases (marks id).mp marked with rfl | before
    · exact Or.inr chain
    · exact right.reached id before
  · intro id marked
    rcases (marks id).mp marked with rfl | before
    · exact unmet
    · exact right.unmet id before
  · intro id marked
    rcases (marks id).mp marked with rfl | before
    · exact Or.inl List.mem_cons_self
    · apply (right.followed id before).imp (List.mem_cons_of_mem _)
      intro covered next step
      rw [marks]
      rcases covered next step with done | ⟨same, member⟩
      · exact Or.inl (Or.inr done)
      · rcases List.mem_cons.mp member with here | later
        · exact Or.inl (Or.inl here)
        · exact Or.inr ⟨same, later⟩

theorem take {marks : Array Bool} {id : Nat} {pending : List Nat} {definition : Definition}
    (right : Walk.Right model target start current [] ⟨marks, id :: pending⟩)
    (wellFormed : model.WellFormed) (found : model.get? id = some definition) :
    Walk.Right model target start id definition.includes ⟨marks, pending⟩ := by
  have included := includes_of_get found
  refine { right with
    entered := right.waiting id List.mem_cons_self
    listed := fun next member =>
      ⟨included ▸ member, includes_inside wellFormed found next member⟩
    waiting := fun other member => right.waiting other (List.mem_cons_of_mem _ member)
    followed := ?_ }
  intro other marked
  rcases right.followed other marked with waits | covered
  · rcases List.mem_cons.mp waits with rfl | later
    · exact Or.inr fun next step => Or.inr ⟨rfl, included ▸ step.1⟩
    · exact Or.inl later
  · refine Or.inr fun next step => Or.inl ?_
    simpa using covered next step

/-- A walk with nothing pending has marked all that its start leads to. -/
theorem unreached {marks : Array Bool}
    (right : Walk.Right model target start current [] ⟨marks, []⟩) {id : Nat}
    (chain : model.IncludesChain start id) : model.meetsAt target id = false := by
  have closed : model.ClosedUnderIncludes fun id => marks[id]? = some true := by
    intro source next marked step
    simpa using (right.followed source marked).resolve_left List.not_mem_nil next step
  exact right.unmet id (chain_stays_inside closed chain fun next => closed start next right.started)

end Walk.Right

variable {target : Token} {start current : Nat}

/-- Visiting the includes of a definition leaves a walk that may go on, or meets the target. -/
theorem visit_right {walk : Walk} {includes : List Nat}
    (right : walk.Right model target start current includes) :
    (∃ later, model.visit target walk includes = .ok (some later) ∧
      later.Right model target start current []) ∨
    model.visit target walk includes = .ok none ∧
      ∃ id, model.IncludesChain start id ∧ model.meetsAt target id = true := by
  fun_induction visit model target walk includes with
  | case1 walk => exact Or.inl ⟨walk, rfl, right⟩
  | case2 walk included rest missing =>
      have inside : included < walk.marks.size :=
        right.sized ▸ (right.listed included List.mem_cons_self).2
      rw [Array.getElem?_eq_getElem inside] at missing
      cases missing
  | case3 walk included rest seen ih => exact ih (right.skip seen)
  | case4 walk included rest fresh place outside =>
      obtain ⟨definition, found⟩ := get_of_lt (right.listed included List.mem_cons_self).2
      rw [fetch_eq_ok found] at outside
      cases outside
  | case5 walk included rest fresh definition fetched met =>
      refine Or.inr ⟨rfl, included, right.chain List.mem_cons_self, ?_⟩
      rw [meetsAt, (fetch_eq_ok_iff _ _).mp fetched]
      exact met
  | case6 walk included rest fresh definition fetched unmet ih =>
      apply ih (right.come _)
      rw [meetsAt, (fetch_eq_ok_iff _ _).mp fetched]
      simpa using unmet

theorem visit_next_right (wellFormed : model.WellFormed) {marks : Array Bool} {id : Nat}
    {pending : List Nat} {definition : Definition}
    (right : Walk.Right model target start current [] ⟨marks, id :: pending⟩)
    (fetched : model.fetch id = .ok definition) :
    (∃ later, model.visit target ⟨marks, pending⟩ definition.includes = .ok (some later) ∧
      later.Right model target start id []) ∨
    model.visit target ⟨marks, pending⟩ definition.includes = .ok none ∧
      ∃ id, model.IncludesChain start id ∧ model.meetsAt target id = true :=
  visit_right (right.take wellFormed ((fetch_eq_ok_iff _ _).mp fetched))

theorem walk_from_decides (wellFormed : model.WellFormed) {marks : Array Bool} {pending : List Nat}
    (right : Walk.Right model target start current [] ⟨marks, pending⟩) :
    ∃ found, model.walkFrom target marks pending = .ok found ∧
      (found = true ↔
        ∃ id, model.IncludesChain start id ∧ model.meetsAt target id = true) := by
  fun_induction walkFrom model target marks pending generalizing current with
  | case1 marks =>
      refine ⟨false, rfl, nofun, ?_⟩
      intro reached
      obtain ⟨id, chain, met⟩ := reached
      rw [right.unreached chain] at met
      exact met
  | case2 marks id pending place outside =>
      have inside :=
        right.sized ▸ (Array.getElem?_eq_some_iff.mp (right.waiting id List.mem_cons_self)).1
      obtain ⟨definition, found⟩ := get_of_lt inside
      rw [fetch_eq_ok found] at outside
      cases outside
  | case3 marks id pending definition fetched place stops =>
      rcases visit_next_right wellFormed right fetched with ⟨_, goes, _⟩ | ⟨goes, _⟩
      · rw [goes] at stops
        cases stops
      · rw [goes] at stops
        cases stops
  | case4 marks id pending definition fetched meets =>
      rcases visit_next_right wellFormed right fetched with ⟨_, goes, _⟩ | ⟨_, reached⟩
      · rw [goes] at meets
        cases meets
      · exact ⟨true, rfl, by simpa using reached⟩
  | case5 marks id pending definition fetched later goes ih =>
      rcases visit_next_right wellFormed right fetched with ⟨other, same, after⟩ | ⟨meets, _⟩
      · rw [goes] at same
        cases same
        exact ih after
      · rw [goes] at meets
        cases meets

/-- The whole walk, from a definition that does not meet the target itself. -/
theorem walk_decides (wellFormed : model.WellFormed) (inside : start < model.size)
    (unmet : model.meetsAt target start = false) :
    model.walkFrom target ((Array.replicate model.size false).setIfInBounds start true) [start] =
      .ok (model.includesWanted start (model.meetsAt target)) := by
  have marks (id : Nat) :
      ((Array.replicate model.size false).setIfInBounds start true)[id]? = some true ↔
        id = start := by
    rw [Array.getElem?_setIfInBounds]
    by_cases same : start = id
    · subst same
      simp [inside]
    · simp [same, Ne.symm same, Array.getElem?_replicate]
  have right : Walk.Right model target start start []
      ⟨(Array.replicate model.size false).setIfInBounds start true, [start]⟩ := by
    constructor
    · simp
    · exact (marks start).mpr rfl
    · exact (marks start).mpr rfl
    · exact fun _ member => absurd member List.not_mem_nil
    · exact fun id member => (marks id).mpr (List.mem_singleton.mp member)
    · exact fun id marked => Or.inl ((marks id).mp marked)
    · exact fun id marked => (marks id).mp marked ▸ unmet
    · exact fun id marked => Or.inl (List.mem_singleton.mpr ((marks id).mp marked))
  obtain ⟨found, answered, meaning⟩ := walk_from_decides wellFormed right
  rw [answered, Except.ok.injEq, Bool.eq_iff_iff, meaning, includes_wanted_iff]

end ClaimPolicy.Model
