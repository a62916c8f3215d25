import ClaimPolicy.Model

/-!
What a definition includes, directly or through other definitions. The walk marks the definitions
that it has visited and keeps those that are still to visit; it ends because each visit adds a mark.
-/
namespace ClaimPolicy.Model

def Includes (model : Model) (source target : Nat) : Prop :=
  target ∈ model.includesOf source ∧ target < model.size

inductive IncludesChain (model : Model) : Nat → Nat → Prop
  | single {source target : Nat} (step : model.Includes source target) :
      IncludesChain model source target
  | cons {source middle target : Nat} (step : model.Includes source middle)
      (rest : IncludesChain model middle target) : IncludesChain model source target

def unmarked (marks : Array Bool) : Nat := marks.toList.count false

theorem unmarked_set {marks : Array Bool} {id : Nat} (fresh : marks[id]? = some false) :
    unmarked (marks.setIfInBounds id true) + 1 = unmarked marks := by
  have inList : marks.toList[id]? = some false := by simpa using fresh
  obtain ⟨inside, here⟩ := List.getElem?_eq_some_iff.mp inList
  have counted : 0 < marks.toList.count false :=
    List.count_pos_iff.mpr (List.mem_of_getElem? inList)
  rw [unmarked, unmarked, Array.toList_setIfInBounds, List.count_set inside, here]
  simp only [beq_self_eq_true, if_true, Bool.true_beq, Bool.false_eq_true, if_false]
  omega

theorem unmarked_set_lt {marks : Array Bool} {id : Nat} (fresh : marks[id]? = some false) :
    unmarked (marks.setIfInBounds id true) < unmarked marks := by
  rw [← unmarked_set fresh]
  exact Nat.lt_succ_self _

/-- Whether something wanted is pending or at the end of a chain of includes from something pending.
Definitions that were visited are marked and not visited again. -/
def reaches (model : Model) (wanted : Nat → Bool) (marks : Array Bool) : List Nat → Bool
  | [] => false
  | id :: pending =>
      if _fresh : marks[id]? = some false then
        wanted id ||
          reaches model wanted (marks.setIfInBounds id true) (model.includesOf id ++ pending)
      else reaches model wanted marks pending
termination_by pending => (unmarked marks, pending.length)
decreasing_by
  · exact Prod.Lex.left _ _ (unmarked_set_lt _fresh)
  · exact Prod.Lex.right _ (by simp)

def includesWanted (model : Model) (source : Nat) (wanted : Nat → Bool) : Bool :=
  model.reaches wanted (Array.replicate model.size false) (model.includesOf source)

/-- Whether holding `source` meets `target`: directly, or by a definition that the source includes.
Both tokens are first brought to their canonical spelling. -/
def tokenMatch (model : Model) (source target : Token) : Bool :=
  let source := model.canonicalOrSelf source
  let target := model.canonicalOrSelf target
  Token.meets model.case source target ||
    match model.findId source .strict with
    | none => false
    | some start =>
        model.includesWanted start fun id =>
          (model.get? id).any fun definition => Token.meets model.case definition.token target

end ClaimPolicy.Model

namespace ClaimPolicy

/-- Without a model only direct matching applies, and names are compared case-insensitively. -/
def tokenMatch (model : Option Model) (source target : Token) : Bool :=
  match model with
  | some model => model.tokenMatch source target
  | none => Token.meets .insensitive source target

end ClaimPolicy
