import ClaimPolicy.Token

/-!
Matching of two tokens without a model. Folding makes a wildcard of nothing but the wildcard, so the
part of a required token that is met by everything is the same before and after folding. Hence
direct matching is a preorder, equality up to case is an equivalence, and the two agree on required
tokens that have no wildcard.
-/
namespace ClaimPolicy

namespace Text

/-- A code point that is no character would give the character zero, which is not the asterisk
either. -/
theorem of_nat_ne_asterisk {code : Nat} (high : 0x2A < code) : Char.ofNat code ≠ '*' := by
  intro same
  by_cases valid : code.isValidChar
  · rw [Char.ofNat, dif_pos valid] at same
    have code_eq : code = 0x2A := congrArg Char.toNat same
    omega
  · rw [Char.ofNat, dif_neg valid] at same
    exact absurd same (by decide)

/-- All ASCII characters are compared; beyond them every image starts at the small letter a. -/
theorem asterisk_in_lowercase {c : Char} (member : '*' ∈ lowercase c) : c = '*' := by
  have ascii : ∀ code < 0x80, (Char.ofNat code).toLower = '*' → Char.ofNat code = '*' := by
    decide
  unfold lowercase at member
  split at member
  · next small =>
      have lowered := ascii c.toNat small
      rw [Char.ofNat_toNat] at lowered
      exact lowered (List.mem_singleton.mp member).symm
  · split at member
    · simp at member
    · split at member
      · next run found =>
          have target := case_run_target_ge run (List.mem_of_find?_eq_some found)
          exact absurd (List.mem_singleton.mp member).symm (of_nat_ne_asterisk (by omega))
      · exact (List.mem_singleton.mp member).symm

theorem flatMap_lowercase_eq_asterisk {text : List Char}
    (image : text.flatMap lowercase = ['*']) : text = ['*'] := by
  cases text with
  | nil => simp at image
  | cons first rest =>
      rw [List.flatMap_cons] at image
      rcases List.append_eq_singleton_iff.mp image with ⟨vanished, _⟩ | ⟨single, others⟩
      · exact absurd vanished (lowercase_ne_nil first)
      · have firstAsterisk : first = '*' := asterisk_in_lowercase (by simp [single])
        have noMore : rest = [] := by
          cases rest with
          | nil => rfl
          | cons second more =>
              rw [List.flatMap_cons, List.append_eq_nil_iff] at others
              exact absurd others.1 (lowercase_ne_nil second)
        rw [firstAsterisk, noMore]

end Text

namespace CaseMode

theorem fold_eq_wildcard (mode : CaseMode) (name : String) :
    mode.fold name = Name.wildcard ↔ name = Name.wildcard := by
  cases mode with
  | sensitive => rw [fold_sensitive]
  | insensitive =>
      constructor
      · intro folded
        rw [fold_insensitive] at folded
        have image : name.toList.flatMap Text.lowercase = ['*'] := by
          rw [← String.toList_ofList (l := name.toList.flatMap Text.lowercase), folded]
          rfl
        have letters := Text.flatMap_lowercase_eq_asterisk image
        rw [← String.ofList_toList (s := name), letters]
        rfl
      · intro same
        subst same
        decide

theorem same_name_symm (mode : CaseMode) {left right : String}
    (same : mode.sameName left right = true) : mode.sameName right left = true := by
  rw [same_name_iff] at same ⊢
  exact same.symm

theorem same_name_trans (mode : CaseMode) {first second third : String}
    (front : mode.sameName first second = true) (back : mode.sameName second third = true) :
    mode.sameName first third = true := by
  rw [same_name_iff] at front back ⊢
  exact front.trans back

theorem same_name_wildcard (mode : CaseMode) {left right : String}
    (same : mode.sameName left right = true) :
    left = Name.wildcard ↔ right = Name.wildcard := by
  rw [same_name_iff] at same
  rw [← fold_eq_wildcard mode left, ← fold_eq_wildcard mode right, same]

end CaseMode

namespace Token

theorem name_meets_iff (mode : CaseMode) (source target : String) :
    nameMeets mode source target = true ↔
      target = Name.wildcard ∨ mode.sameName source target = true := by
  simp [nameMeets]

theorem name_meets_refl (mode : CaseMode) (name : String) : nameMeets mode name name = true :=
  (name_meets_iff mode name name).mpr (Or.inr (mode.same_name_refl name))

theorem name_meets_trans (mode : CaseMode) {first second third : String}
    (front : nameMeets mode first second = true) (back : nameMeets mode second third = true) :
    nameMeets mode first third = true := by
  rw [name_meets_iff] at front back ⊢
  rcases back with wild | same
  · exact Or.inl wild
  · rcases front with wild | agreed
    · exact Or.inl ((mode.same_name_wildcard same).mp wild)
    · exact Or.inr (mode.same_name_trans agreed same)

theorem meets_refl (mode : CaseMode) (token : Token) : meets mode token token = true := by
  cases token <;> simp [meets, name_meets_refl]

theorem meets_trans (mode : CaseMode) {first second third : Token}
    (front : meets mode first second = true) (back : meets mode second third = true) :
    meets mode first third = true := by
  cases first <;> cases second <;> cases third <;>
    simp only [meets, Bool.and_eq_true, Bool.false_eq_true] at front back ⊢
  · exact name_meets_trans mode front back
  · exact ⟨name_meets_trans mode front.1 back.1, name_meets_trans mode front.2 back.2⟩

theorem equals_composite_iff (mode : CaseMode) (parent child otherParent otherChild : String) :
    equals mode (.composite parent child) (.composite otherParent otherChild) = true ↔
      mode.sameName parent otherParent = true ∧ mode.sameName child otherChild = true :=
  Bool.and_eq_true_iff

theorem meets_family (mode : CaseMode) (parent child : String) :
    meets mode (.composite parent child) (.composite parent Name.wildcard) = true := by
  rw [meets, Bool.and_eq_true, name_meets_iff, name_meets_iff]
  exact ⟨Or.inr (mode.same_name_refl parent), Or.inl rfl⟩

theorem equals_refl (mode : CaseMode) (token : Token) : equals mode token token = true := by
  cases token <;> simp [equals, CaseMode.same_name_refl]

theorem equals_symm (mode : CaseMode) {left right : Token}
    (same : equals mode left right = true) : equals mode right left = true := by
  cases left <;> cases right <;>
    simp only [equals, Bool.and_eq_true, Bool.false_eq_true] at same ⊢
  · exact mode.same_name_symm same
  · exact ⟨mode.same_name_symm same.1, mode.same_name_symm same.2⟩

theorem equals_trans (mode : CaseMode) {first second third : Token}
    (front : equals mode first second = true) (back : equals mode second third = true) :
    equals mode first third = true := by
  cases first <;> cases second <;> cases third <;>
    simp only [equals, Bool.and_eq_true, Bool.false_eq_true] at front back ⊢
  · exact mode.same_name_trans front back
  · exact ⟨mode.same_name_trans front.1 back.1, mode.same_name_trans front.2 back.2⟩

theorem name_meets_concrete (mode : CaseMode) {source target : String}
    (met : nameMeets mode source target = true) (concrete : target ≠ Name.wildcard) :
    mode.sameName source target = true :=
  ((name_meets_iff mode source target).mp met).resolve_left concrete

theorem concrete_parts {token : Token} (concrete : token.isWildcard = false) :
    ∀ part ∈ token.parts, part ≠ Name.wildcard := by
  intro part member same
  subst same
  simp [isWildcard, member] at concrete

theorem equals_of_meets (mode : CaseMode) {source target : Token}
    (met : meets mode source target = true) (concrete : target.isWildcard = false) :
    equals mode source target = true := by
  have parts := concrete_parts concrete
  cases source <;> cases target <;>
    simp only [meets, equals, Bool.and_eq_true, Bool.false_eq_true] at met ⊢
  · exact name_meets_concrete mode met (parts _ (by simp [Token.parts]))
  · exact ⟨name_meets_concrete mode met.1 (parts _ (by simp [Token.parts])),
      name_meets_concrete mode met.2 (parts _ (by simp [Token.parts]))⟩

theorem meets_of_equals (mode : CaseMode) {source target : Token}
    (same : equals mode source target = true) : meets mode source target = true := by
  cases source <;> cases target <;>
    simp only [meets, equals, Bool.and_eq_true, Bool.false_eq_true, name_meets_iff] at same ⊢
  · exact Or.inr same
  · exact ⟨Or.inr same.1, Or.inr same.2⟩

end Token

end ClaimPolicy
