/-!
Cutting text at the first separator. What stands before it has none, and what stands after it may
have more.
-/
namespace ClaimPolicy.Text

/-- Cuts at the first separator, if there is one. -/
def splitFirst (separator : Char) : List Char → Option (List Char × List Char)
  | [] => none
  | c :: rest =>
      if c = separator then some ([], rest)
      else (splitFirst separator rest).map fun parts => (c :: parts.1, parts.2)

theorem split_first_eq_some (separator : Char) (text before after : List Char)
    (found : splitFirst separator text = some (before, after)) :
    text = before ++ separator :: after ∧ separator ∉ before := by
  induction text generalizing before with
  | nil => simp [splitFirst] at found
  | cons c rest ih =>
      by_cases same : c = separator
      · simp [splitFirst, same] at found
        obtain ⟨rfl, rfl⟩ := found
        simp [same]
      · simp only [splitFirst, same, if_false, Option.map_eq_some_iff, Prod.mk.injEq] at found
        obtain ⟨⟨head, tail⟩, inner, rfl, rfl⟩ := found
        obtain ⟨whole, absent⟩ := ih head inner
        exact ⟨by simp [whole], by simp [absent, Ne.symm same]⟩

theorem split_first_append {separator : Char} {before : List Char} (absent : separator ∉ before)
    (after : List Char) :
    splitFirst separator (before ++ separator :: after) = some (before, after) := by
  induction before with
  | nil => simp [splitFirst]
  | cons c before ih =>
      rw [List.mem_cons, not_or] at absent
      rw [List.cons_append, splitFirst, if_neg (Ne.symm absent.1), ih absent.2]
      rfl

theorem split_first_eq_none (separator : Char) (text : List Char) :
    splitFirst separator text = none ↔ separator ∉ text := by
  induction text with
  | nil => simp [splitFirst]
  | cons c rest ih =>
      by_cases same : c = separator
      · simp [splitFirst, same]
      · simp [splitFirst, same, ih, Ne.symm same]

end ClaimPolicy.Text
