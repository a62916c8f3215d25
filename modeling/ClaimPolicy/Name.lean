import ClaimPolicy.Text.Blank
import ClaimPolicy.Text.Lowercase

/-!
Names: the parts that tokens are made of. A name is legal when it is neither empty nor too long, has
no white space and no separator of the claim grammar, and uses the wildcard only as the whole name.
Names are compared as they are or by their folded forms.
-/
namespace ClaimPolicy

inductive CaseMode where
  | insensitive
  | sensitive
  deriving DecidableEq, Repr, Inhabited

def CaseMode.fold (mode : CaseMode) (name : String) : String :=
  match mode with
  | .sensitive => name
  | .insensitive =>
      if name.toList.all Text.isSmall then name
      else String.ofList (name.toList.flatMap Text.lowercase)

def CaseMode.sameName (mode : CaseMode) (left right : String) : Bool :=
  mode.fold left == mode.fold right

inductive NameFault where
  | empty
  | tooLong
  | reserved
  | partialWildcard
  | wildcardDeclared
  deriving DecidableEq, Repr

def NameFault.message : NameFault → String
  | .empty => "name is empty"
  | .tooLong => "name is too long"
  | .reserved => "name contains a reserved character"
  | .partialWildcard => "wildcard must be a whole name"
  | .wildcardDeclared => "wildcard cannot be defined"

namespace Name

def wildcard : String := "*"

def maxBytes : Nat := 128

def isReserved (c : Char) : Bool :=
  Text.isBlank c || c == '@' || c == '!' || c == '>' || c == ':'

/-- The first rule that a name breaks, length before content and content before wildcards. -/
def fault? (name : String) : Option NameFault :=
  if name.isEmpty then some .empty
  else if maxBytes < name.utf8ByteSize then some .tooLong
  else if name.toList.any isReserved then some .reserved
  else if name != wildcard && name.toList.contains '*' then some .partialWildcard
  else none

def Legal (name : String) : Prop := fault? name = none

instance (name : String) : Decidable (Legal name) :=
  inferInstanceAs (Decidable (fault? name = none))

/-- A declaration may use any legal name but the wildcard. -/
def declarationFault? (name : String) : Option NameFault :=
  if name == wildcard then some .wildcardDeclared else fault? name

def sorted (names : List String) : List String := names.mergeSort

theorem sorted_perm (names : List String) : (sorted names).Perm names :=
  List.mergeSort_perm names _

theorem sorted_increasing (names : List String) : (sorted names).Pairwise (· ≤ ·) := by
  have total (first second : String) :
      (decide (first ≤ second) || decide (second ≤ first)) = true := by
    simpa using String.le_total first second
  have transitive (first second third : String) : decide (first ≤ second) = true →
      decide (second ≤ third) = true → decide (first ≤ third) = true := by
    simpa using String.le_trans
  simpa [sorted] using List.pairwise_mergeSort transitive total names

/-- There is only one way to put names in order. -/
theorem sorted_eq {names ordered : List String} (same : names.Perm ordered)
    (increasing : ordered.Pairwise (· ≤ ·)) : sorted names = ordered :=
  ((sorted_perm names).trans same).eq_of_pairwise (fun _ _ _ _ => String.le_antisymm)
    (sorted_increasing names) increasing

theorem sorted_sorted (names : List String) : sorted (sorted names) = sorted names :=
  sorted_eq (List.Perm.refl _) (sorted_increasing names)

end Name

theorem CaseMode.fold_sensitive (name : String) : CaseMode.sensitive.fold name = name := rfl

theorem CaseMode.fold_insensitive (name : String) :
    CaseMode.insensitive.fold name = String.ofList (name.toList.flatMap Text.lowercase) := by
  simp only [fold]
  split
  · next small => rw [Text.flatMap_lowercase_small small, String.ofList_toList]
  · rfl

theorem CaseMode.same_name_refl (mode : CaseMode) (name : String) :
    mode.sameName name name = true := by
  simp [sameName]

theorem CaseMode.same_name_iff (mode : CaseMode) (left right : String) :
    mode.sameName left right = true ↔ mode.fold left = mode.fold right := by
  simp [sameName]

end ClaimPolicy
