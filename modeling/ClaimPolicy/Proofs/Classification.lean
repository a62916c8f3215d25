import ClaimPolicy.Proofs.ClaimText

/-!
The kind of a claim, read off its text. The written forms of permissions, of negated requirements
and of delegations have no text in common: no legal name holds the sign of a delegation or of a
negation. So the two tests on the text that choose a reader choose the only one that can succeed.
-/
namespace ClaimPolicy

namespace Permission.Legal

variable {claim : Permission}

theorem not_delegated (legal : claim.Legal) : '>' ∉ claim.text.toList :=
  legal.absent (by decide) (by decide) (by decide)

theorem not_marked (legal : claim.Legal) : claim.text.toList.head? ≠ some '!' := by
  intro marked
  have unmarked : '!' ∉ claim.text.toList := legal.absent (by decide) (by decide) (by decide)
  exact unmarked (List.mem_of_mem_head? marked)

end Permission.Legal

namespace AnyClaim

variable {input : String}

theorem delegation_has_sign {claim : Delegation} (read : Claim.parse .grants input = .ok claim) :
    '>' ∈ input.toList := by
  rw [← ((Claim.parse_chars_eq_ok _ _).mp read).1]
  simp [Claim.text]

theorem requirement_has_no_sign {claim : Requirement}
    (read : Claim.parse .assertion input = .ok claim) : '>' ∉ input.toList := by
  obtain ⟨spelled, legal⟩ := (Requirement.parse_chars_eq_ok _ _).mp read
  have inner : '>' ∉ claim.permission.text.toList := legal.not_delegated
  rw [← spelled, Claim.text]
  split
  · simpa using inner
  · exact inner

theorem permission_unmarked {claim : Permission}
    (read : Claim.parse .authorization input = .ok claim) :
    '>' ∉ input.toList ∧ input.toList.head? ≠ some '!' := by
  obtain ⟨spelled, legal⟩ := (Permission.parse_chars_eq_ok _ _).mp read
  rw [← spelled]
  exact ⟨legal.not_delegated, legal.not_marked⟩

theorem negated_iff_marked {claim : Requirement}
    (read : Claim.parse .assertion input = .ok claim) :
    claim.negated = true ↔ input.toList.head? = some '!' := by
  obtain ⟨spelled, legal⟩ := (Requirement.parse_chars_eq_ok _ _).mp read
  rw [← spelled, Claim.text]
  cases sign : Requirement.negated claim with
  | true => simp
  | false => simpa [sign] using legal.not_marked

theorem permission_of_unmarked {claim : Requirement}
    (read : Claim.parse .assertion input = .ok claim) (unmarked : claim.negated = false) :
    Claim.parse .authorization input = .ok claim.permission := by
  obtain ⟨spelled, legal⟩ := (Requirement.parse_chars_eq_ok _ _).mp read
  apply (Permission.parse_chars_eq_ok _ _).mpr
  rw [← spelled, Claim.text, if_neg (by simp [unmarked])]
  exact ⟨rfl, legal⟩

theorem parse_signed (signed : '>' ∈ input.toList) (any : AnyClaim) :
    AnyClaim.parse input = .ok any ↔
      ∃ claim, Claim.parse .grants input = .ok claim ∧ any = ⟨.grants, claim⟩ := by
  rw [AnyClaim.parse, if_pos (List.contains_iff_mem.mpr signed), bind_eq_ok]
  simp only [pure, Except.pure, Except.ok.injEq, eq_comm]

theorem parse_marked (unsigned : '>' ∉ input.toList) (marked : input.toList.head? = some '!')
    (any : AnyClaim) : AnyClaim.parse input = .ok any ↔
      ∃ claim, Claim.parse .assertion input = .ok claim ∧ any = ⟨.assertion, claim⟩ := by
  rw [AnyClaim.parse, if_neg (by simpa using unsigned), if_pos (by simp [marked]), bind_eq_ok]
  simp only [pure, Except.pure, Except.ok.injEq, eq_comm]

theorem parse_plain (unsigned : '>' ∉ input.toList) (unmarked : input.toList.head? ≠ some '!')
    (any : AnyClaim) : AnyClaim.parse input = .ok any ↔
      ∃ claim, Claim.parse .authorization input = .ok claim ∧
        any = ⟨.authorization, claim⟩ := by
  rw [AnyClaim.parse, if_neg (by simpa using unsigned), if_neg (by simpa using unmarked),
    bind_eq_ok]
  simp only [pure, Except.pure, Except.ok.injEq, eq_comm]

/-- A claim is read as what the reader of its own kind gives, but a requirement only when it is
negated. -/
theorem parse_any_iff (input : String) (any : AnyClaim) :
    AnyClaim.parse input = .ok any ↔
      Claim.parse any.kind input = .ok any.claim ∧
        (any.kind = .assertion → any.claim.negated = true) := by
  obtain ⟨kind, claim⟩ := any
  by_cases signed : '>' ∈ input.toList
  · rw [parse_signed signed]
    cases kind with
    | authorization => simpa using fun read => (permission_unmarked read).1 signed
    | assertion => simpa using fun read => absurd signed (requirement_has_no_sign read)
    | grants => simp
  · by_cases marked : input.toList.head? = some '!'
    · rw [parse_marked signed marked]
      cases kind with
      | authorization => simpa using fun read => (permission_unmarked read).2 marked
      | assertion =>
          have sign : Claim.parse .assertion input = .ok claim → Claim.negated claim = true :=
            fun read => (negated_iff_marked read).mpr marked
          simpa using sign
      | grants => simpa using fun read => signed (delegation_has_sign read)
    · rw [parse_plain signed marked]
      cases kind with
      | authorization => simp
      | assertion =>
          have sign : Claim.parse .assertion input = .ok claim → ¬ Claim.negated claim = true :=
            fun read => mt (negated_iff_marked read).mp marked
          simpa using sign
      | grants => simpa using fun read => signed (delegation_has_sign read)

theorem classified_of_read {kind : Kind} {claim : Claim kind}
    (read : Claim.parse kind input = .ok claim) : ∃ any, AnyClaim.parse input = .ok any := by
  cases kind with
  | authorization =>
      exact ⟨⟨.authorization, claim⟩, (parse_any_iff _ _).mpr ⟨read, nofun⟩⟩
  | grants => exact ⟨⟨.grants, claim⟩, (parse_any_iff _ _).mpr ⟨read, nofun⟩⟩
  | assertion =>
      cases sign : Requirement.negated claim with
      | true =>
          exact ⟨⟨.assertion, claim⟩, (parse_any_iff _ _).mpr ⟨read, fun _ => sign⟩⟩
      | false =>
          have permitted := permission_of_unmarked read sign
          exact ⟨⟨.authorization, _⟩, (parse_any_iff _ _).mpr ⟨permitted, nofun⟩⟩

/-- The kind of a claim is read off its text exactly. A text is taken for a permission or a
delegation when it reads as one, and for a requirement when it reads as a negated one; no text is
two of these. What was read is written as the text, and a text that is refused reads as no claim of
any kind. -/
theorem classified_exactly (input : String) :
    (∀ claim : Permission, AnyClaim.parse input = .ok ⟨.authorization, claim⟩ ↔
      Claim.parse .authorization input = .ok claim) ∧
    (∀ claim : Delegation, AnyClaim.parse input = .ok ⟨.grants, claim⟩ ↔
      Claim.parse .grants input = .ok claim) ∧
    (∀ claim : Requirement, AnyClaim.parse input = .ok ⟨.assertion, claim⟩ ↔
      Claim.parse .assertion input = .ok claim ∧ claim.negated = true) ∧
    (let plain := ∃ claim : Permission, Claim.parse .authorization input = .ok claim
     let delegated := ∃ claim : Delegation, Claim.parse .grants input = .ok claim
     let forbidden := ∃ claim : Requirement,
       Claim.parse .assertion input = .ok claim ∧ claim.negated = true
     ¬ (plain ∧ delegated) ∧ ¬ (plain ∧ forbidden) ∧ ¬ (delegated ∧ forbidden)) ∧
    (∀ any, AnyClaim.parse input = .ok any → any.text = input) ∧
    ∀ fault, AnyClaim.parse input = .error fault →
      ∀ kind, ∃ other, Claim.parse kind input = .error other := by
  have plainly (claim : Permission) : AnyClaim.parse input = .ok ⟨.authorization, claim⟩ ↔
      Claim.parse .authorization input = .ok claim := by
    simp [parse_any_iff]
  have delegation (claim : Delegation) : AnyClaim.parse input = .ok ⟨.grants, claim⟩ ↔
      Claim.parse .grants input = .ok claim := by
    simp [parse_any_iff]
  have negation (claim : Requirement) : AnyClaim.parse input = .ok ⟨.assertion, claim⟩ ↔
      Claim.parse .assertion input = .ok claim ∧ claim.negated = true := by
    rw [parse_any_iff, forall_prop_of_true rfl]
    exact Iff.rfl
  refine ⟨plainly, delegation, negation, ⟨?_, ?_, ?_⟩, ?_, ?_⟩
  · rintro ⟨⟨claim, read⟩, other, again⟩
    have both := ((plainly claim).mpr read).symm.trans ((delegation other).mpr again)
    cases both
  · rintro ⟨⟨claim, read⟩, other, again⟩
    have both := ((plainly claim).mpr read).symm.trans ((negation other).mpr again)
    cases both
  · rintro ⟨⟨claim, read⟩, other, again⟩
    have both := ((delegation claim).mpr read).symm.trans ((negation other).mpr again)
    cases both
  · intro any read
    have own := ((parse_any_iff _ _).mp read).1
    exact String.toList_inj.mp ((Claim.parse_chars_eq_ok _ _).mp own).1
  · intro fault refused kind
    cases outcome : Claim.parse kind input with
    | error other => exact ⟨other, rfl⟩
    | ok claim =>
        obtain ⟨any, read⟩ := classified_of_read outcome
        rw [refused] at read
        cases read

end AnyClaim

end ClaimPolicy
