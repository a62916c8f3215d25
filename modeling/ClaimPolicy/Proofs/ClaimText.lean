import ClaimPolicy.Claim.Collection

/-!
Claims and their text. Reading accepts a text exactly when it is what some claims are written as,
with legal names only: a legal name holds no separator, so each cut that reading makes is one at
which writing has joined. For strings of claims the limits on bytes and on the number of claims come
on top.
-/
namespace ClaimPolicy

namespace Name.Legal

variable {name : String}

theorem ne_nil (legal : Legal name) : name.toList ≠ [] := by
  intro none
  have same : name = "" := String.toList_eq_nil_iff.mp none
  subst same
  exact absurd legal (by decide)

theorem absent (legal : Legal name) {c : Char} (reserved : isReserved c = true) :
    c ∉ name.toList := by
  intro member
  have found : name.toList.any isReserved = true := List.any_eq_true.mpr ⟨c, member, reserved⟩
  unfold Legal fault? at legal
  rw [found] at legal
  split at legal
  · cases legal
  · split at legal <;> cases legal

end Name.Legal

namespace Token

def Legal (token : Token) : Prop := ∀ name ∈ token.parts, Name.Legal name

theorem text_toList (token : Token) :
    token.text.toList = [':'].intercalate (token.parts.map String.toList) := by
  cases token with
  | atom name => simp [text, parts]
  | composite parent child => simp [text, parts]

theorem Legal.text_ne_nil {token : Token} (legal : token.Legal) : token.text.toList ≠ [] := by
  cases token with
  | atom name => exact (legal name (by simp [parts])).ne_nil
  | composite parent child => simp [text]

theorem Legal.absent {token : Token} (legal : token.Legal) {c : Char}
    (reserved : Name.isReserved c = true) (other : c ≠ ':') : c ∉ token.text.toList := by
  cases token with
  | atom name => exact (legal name (by simp [parts])).absent reserved
  | composite parent child =>
      have parentFree := (legal parent (by simp [parts])).absent reserved
      have childFree := (legal child (by simp [parts])).absent reserved
      simp [text, parentFree, childFree, other]

theorem parse_part_eq_ok (whole part : List Char) (name : String) :
    parsePart whole part = .ok name ↔ name.toList = part ∧ Name.Legal name := by
  simp only [parsePart]
  constructor
  · intro read
    split at read
    · next legal =>
        cases read
        exact ⟨String.toList_ofList, legal⟩
    · cases read
  · intro written
    rcases written with ⟨rfl, legal⟩
    have faultless : Name.fault? name = none := legal
    rw [String.ofList_toList, faultless]

/-- A token is read from a text that is not empty when its parts are the pieces between the
colons. -/
theorem parse_pieces_eq_ok {input : List Char} (nonempty : input ≠ []) (token : Token) :
    parseChars input = .ok token ↔
      input.splitOn ':' = token.parts.map String.toList ∧ token.Legal := by
  have notEmpty : input.isEmpty = false := by simpa using nonempty
  simp only [parseChars, notEmpty, Bool.false_eq_true, if_false]
  split
  · next name pieces =>
      rw [pieces]
      simp only [bind_eq_ok, parse_part_eq_ok, pure, Except.pure, Except.ok.injEq]
      cases token with
      | atom held => simp [parts, Legal, eq_comm]
      | composite parent child => simp [parts]
  · next first second pieces =>
      rw [pieces]
      simp only [bind_eq_ok, parse_part_eq_ok, pure, Except.pure, Except.ok.injEq]
      cases token with
      | atom held => simp [parts]
      | composite parent child => simp [parts, Legal]; grind
  · next notOne notTwo =>
      constructor
      · intro read
        cases read
      · intro written
        cases token with
        | atom held => exact absurd written.1 (notOne _)
        | composite parent child => exact absurd written.1 (notTwo _ _)

theorem parse_chars_eq_ok (input : List Char) (token : Token) :
    parseChars input = .ok token ↔ token.text.toList = input ∧ token.Legal := by
  by_cases nonempty : input = []
  · subst nonempty
    constructor
    · intro read
      cases read
    · intro written
      exact absurd written.1 written.2.text_ne_nil
  · rw [parse_pieces_eq_ok nonempty, and_congr_left_iff, text_toList]
    intro legal
    constructor
    · intro pieces
      rw [← pieces, List.intercalate_splitOn]
    · intro joined
      rw [← joined]
      apply List.splitOn_intercalate
      · intro piece member
        obtain ⟨name, inside, rfl⟩ := List.mem_map.mp member
        exact (legal name inside).absent (by decide)
      · cases token <;> simp [parts]

end Token

namespace Permission

def Legal (claim : Permission) : Prop := ∀ token ∈ claim.tokens, token.Legal

variable {claim : Permission}

theorem Legal.absent (legal : claim.Legal) {c : Char} (reserved : Name.isReserved c = true)
    (notColon : c ≠ ':') (notAt : c ≠ '@') : c ∉ claim.text.toList := by
  obtain ⟨token, scope⟩ := claim
  have tokenFree := (legal token (by simp [tokens])).absent reserved notColon
  cases scope with
  | none => exact tokenFree
  | some scope =>
      have scopeFree := (legal scope (by simp [tokens])).absent reserved notColon
      simp [text, tokenFree, scopeFree, notAt]

theorem Legal.text_ne_nil (legal : claim.Legal) : claim.text.toList ≠ [] := by
  have nonempty := (legal claim.token (by simp [tokens])).text_ne_nil
  unfold text
  split
  · simp
  · exact nonempty

theorem parse_chars_eq_ok (input : List Char) (claim : Permission) :
    parseChars input = .ok claim ↔ claim.text.toList = input ∧ claim.Legal := by
  obtain ⟨token, scope⟩ := claim
  constructor
  · intro read
    unfold parseChars at read
    split at read
    · next before after cut =>
        split at read
        · cases read
        · obtain ⟨held, front, rest⟩ := (bind_eq_ok _ _ _).mp read
          obtain ⟨place, back, same⟩ := (bind_eq_ok _ _ _).mp rest
          cases same
          obtain ⟨spelled, legal⟩ := (Token.parse_chars_eq_ok _ _).mp front
          obtain ⟨placeSpelled, placeLegal⟩ := (Token.parse_chars_eq_ok _ _).mp back
          have whole := (Text.split_first_eq_some '@' _ _ _ cut).1
          exact ⟨by simp [text, spelled, placeSpelled, whole],
            by simp [Legal, tokens, legal, placeLegal]⟩
    · obtain ⟨held, front, same⟩ := (bind_eq_ok _ _ _).mp read
      cases same
      obtain ⟨spelled, legal⟩ := (Token.parse_chars_eq_ok _ _).mp front
      exact ⟨spelled, by simp [Legal, tokens, legal]⟩
  · intro written
    rcases written with ⟨rfl, legal⟩
    have tokenLegal : token.Legal := legal token (by simp [tokens])
    have tokenRead := (Token.parse_chars_eq_ok _ _).mpr ⟨rfl, tokenLegal⟩
    have noAt : '@' ∉ token.text.toList := tokenLegal.absent (by decide) (by decide)
    cases scope with
    | none =>
        have uncut := (Text.split_first_eq_none '@' token.text.toList).mpr noAt
        simp only [text, parseChars, uncut, tokenRead]
        rfl
    | some scope =>
        have scopeLegal : scope.Legal := legal scope (by simp [tokens])
        have scopeRead := (Token.parse_chars_eq_ok _ _).mpr ⟨rfl, scopeLegal⟩
        have cut := Text.split_first_append noAt scope.text.toList
        have shape : (text ⟨token, some scope⟩).toList =
            token.text.toList ++ '@' :: scope.text.toList := by simp [text]
        have nonempty : scope.text.toList.isEmpty = false := by simpa using scopeLegal.text_ne_nil
        simp only [shape, parseChars, cut, nonempty, tokenRead, scopeRead]
        rfl

end Permission

namespace Requirement

theorem parse_chars_eq_ok (input : List Char) (claim : Requirement) :
    parseChars input = .ok claim ↔
      (@Claim.text .assertion claim).toList = input ∧ claim.permission.Legal := by
  obtain ⟨permission, negated⟩ := claim
  constructor
  · intro read
    unfold parseChars at read
    split at read
    all_goals
      obtain ⟨held, inner, same⟩ := (bind_eq_ok _ _ _).mp read
      cases same
      obtain ⟨spelled, legal⟩ := (Permission.parse_chars_eq_ok _ _).mp inner
    · exact ⟨by simp [Claim.text, spelled], legal⟩
    · exact ⟨spelled, legal⟩
  · intro written
    rcases written with ⟨rfl, legal⟩
    have read := (Permission.parse_chars_eq_ok _ _).mpr ⟨rfl, legal⟩
    cases negated with
    | true =>
        have shape : (@Claim.text .assertion ⟨permission, true⟩).toList =
            '!' :: permission.text.toList := by simp [Claim.text]
        simp only [shape, parseChars, read]
        rfl
    | false =>
        change parseChars permission.text.toList = _
        have unmarked : '!' ∉ permission.text.toList :=
          legal.absent (by decide) (by decide) (by decide)
        unfold parseChars
        split
        · next rest marked =>
            rw [marked] at unmarked
            exact absurd List.mem_cons_self unmarked
        · rw [read]
          rfl

end Requirement

namespace Delegation

theorem parse_chars_eq_ok (input : List Char) (claim : Delegation) :
    parseChars input = .ok claim ↔
      (@Claim.text .grants claim).toList = input ∧
        claim.subject.Legal ∧ claim.permission.Legal := by
  obtain ⟨subject, permission⟩ := claim
  have shape : (@Claim.text .grants ⟨subject, permission⟩).toList =
      subject.text.toList ++ '>' :: permission.text.toList := by simp [Claim.text]
  constructor
  · intro read
    unfold parseChars at read
    split at read
    · next before after cut =>
        obtain ⟨holder, front, rest⟩ := (bind_eq_ok _ _ _).mp read
        obtain ⟨held, back, same⟩ := (bind_eq_ok _ _ _).mp rest
        cases same
        obtain ⟨spelled, legal⟩ := (Token.parse_chars_eq_ok _ _).mp front
        obtain ⟨heldSpelled, heldLegal⟩ := (Permission.parse_chars_eq_ok _ _).mp back
        have whole := (Text.split_first_eq_some '>' _ _ _ cut).1
        exact ⟨by rw [shape, spelled, heldSpelled, whole], legal, heldLegal⟩
    · cases read
  · intro written
    rcases written with ⟨rfl, legal, heldLegal⟩
    have unmarked : '>' ∉ subject.text.toList := legal.absent (by decide) (by decide)
    have front := (Token.parse_chars_eq_ok _ _).mpr ⟨rfl, legal⟩
    have back := (Permission.parse_chars_eq_ok _ _).mpr ⟨rfl, heldLegal⟩
    have cut := Text.split_first_append unmarked permission.text.toList
    simp only [shape, parseChars, cut, front, back]
    rfl

end Delegation

namespace Claim

variable {kind : Kind}

def Legal (claim : Claim kind) : Prop := ∀ token ∈ tokens claim, token.Legal

theorem parse_chars_eq_ok (input : List Char) (claim : Claim kind) :
    parseChars kind input = .ok claim ↔ (text claim).toList = input ∧ Legal claim := by
  cases kind with
  | authorization => exact Permission.parse_chars_eq_ok input claim
  | assertion => exact Requirement.parse_chars_eq_ok input claim
  | grants =>
      have parts : Legal claim ↔ Token.Legal (Delegation.subject claim) ∧
          Permission.Legal (Delegation.permission claim) := List.forall_mem_cons
      rw [parts]
      exact Delegation.parse_chars_eq_ok input claim

theorem Legal.no_space {claim : Claim kind} (legal : Legal claim) :
    ' ' ∉ (text claim).toList := by
  have free : ∀ {permission : Permission}, permission.Legal → ' ' ∉ permission.text.toList :=
    fun permissionLegal => permissionLegal.absent (by decide) (by decide) (by decide)
  cases kind with
  | authorization => exact free legal
  | assertion =>
      obtain ⟨permission, negated⟩ := claim
      have permissionFree : ' ' ∉ permission.text.toList := free legal
      cases negated with
      | true => simpa [text] using permissionFree
      | false => exact permissionFree
  | grants =>
      have subjectFree : ' ' ∉ (Delegation.subject claim).text.toList :=
        Token.Legal.absent (List.forall_mem_cons.mp legal).1 (by decide) (by decide)
      have permissionFree : ' ' ∉ (Delegation.permission claim).text.toList :=
        free (List.forall_mem_cons.mp legal).2
      simp [text, subjectFree, permissionFree]

theorem Legal.text_ne_nil {claim : Claim kind} (legal : Legal claim) :
    (text claim).toList ≠ [] := by
  cases kind with
  | authorization => exact Permission.Legal.text_ne_nil legal
  | assertion =>
      obtain ⟨permission, negated⟩ := claim
      cases negated with
      | true => simp [text]
      | false => exact Permission.Legal.text_ne_nil legal
  | grants => simp [text]

end Claim

namespace Claims

variable {kind : Kind}

theorem parse_pieces_eq_ok (input : String) (count taken : Nat) (pieces : List (List Char))
    (claims : List (Claim kind)) :
    parsePieces kind input count taken pieces = .ok claims ↔
      pieces = claims.map (fun claim => (Claim.text claim).toList) ∧
        (∀ claim ∈ claims, Claim.Legal claim) ∧
          (claims = [] ∨ taken + claims.length ≤ maxClaimsPerString) := by
  induction pieces generalizing taken claims with
  | nil =>
      rw [parsePieces]
      constructor
      · intro read
        cases read
        simp
      · intro written
        have none : claims = [] := by simpa using written.1.symm
        rw [none]
  | cons piece rest ih =>
      constructor
      · intro read
        rw [parsePieces] at read
        split at read
        · cases read
        · split at read
          · cases read
          · next room =>
              obtain ⟨claim, here, more⟩ := (bind_eq_ok _ _ _).mp read
              obtain ⟨others, later, same⟩ := (bind_eq_ok _ _ _).mp more
              cases same
              obtain ⟨spelled, legal⟩ := (Claim.parse_chars_eq_ok _ _).mp here
              obtain ⟨restSpelled, restLegal, restRoom⟩ := (ih _ _).mp later
              refine ⟨by rw [List.map_cons, spelled, restSpelled],
                List.forall_mem_cons.mpr ⟨legal, restLegal⟩, Or.inr ?_⟩
              rw [List.length_cons]
              rcases restRoom with none | fits
              · rw [none, List.length_nil]
                omega
              · omega
      · intro written
        rcases written with ⟨spelled, legal, room⟩
        cases claims with
        | nil => cases spelled
        | cons claim others =>
            obtain ⟨same, restSame⟩ := List.cons.inj spelled
            obtain ⟨here, later⟩ := List.forall_mem_cons.mp legal
            have fits : taken + (others.length + 1) ≤ maxClaimsPerString := by
              simpa using room
            have restRead := (ih (taken + 1) others).mpr ⟨restSame, later, Or.inr (by omega)⟩
            have read := (Claim.parse_chars_eq_ok piece claim).mpr ⟨same.symm, here⟩
            have nonempty : piece.isEmpty = false := by simpa [same] using here.text_ne_nil
            have spare : ¬ maxClaimsPerString ≤ taken := by omega
            simp only [parsePieces, nonempty, spare, read, restRead]
            rfl

theorem parse_nonempty_eq_ok_iff {input : String} (nonempty : input ≠ "")
    (claims : List (Claim kind)) :
    parse kind input = .ok claims ↔
      input.toList.splitOn ' ' = claims.map (fun claim => (Claim.text claim).toList) ∧
        (∀ claim ∈ claims, Claim.Legal claim) ∧ claims.length ≤ maxClaimsPerString ∧
          input.utf8ByteSize ≤ maxClaimStringBytes := by
  rw [parse]
  split
  · next tooLong =>
      have unfit : ¬ input.utf8ByteSize ≤ maxClaimStringBytes := Nat.not_le.mpr tooLong
      simp [unfit]
  · next fits =>
      have short := Nat.le_of_not_lt fits
      have few : claims = [] ∨ 0 + claims.length ≤ maxClaimsPerString ↔
          claims.length ≤ maxClaimsPerString := by
        rw [Nat.zero_add, or_iff_right_of_imp]
        rintro rfl
        exact Nat.zero_le _
      rw [if_neg (by simpa using nonempty), parse_pieces_eq_ok, few]
      exact and_congr_right fun _ => and_congr_right fun _ => (and_iff_left short).symm

theorem text_toList (claims : List (Claim kind)) :
    (text claims).toList =
      [' '].intercalate (claims.map fun claim => (Claim.text claim).toList) := by
  rw [text, String.toList_intercalate, List.map_map]
  rfl

theorem text_eq_empty_iff {claims : List (Claim kind)}
    (legal : ∀ claim ∈ claims, Claim.Legal claim) : text claims = "" ↔ claims = [] := by
  constructor
  · intro empty
    have letters := text_toList claims
    rw [empty] at letters
    match claims with
    | [] => rfl
    | [claim] => exact absurd (by simpa using letters.symm) (legal claim (by simp)).text_ne_nil
    | claim :: other :: rest => simp at letters
  · intro none
    rw [none]
    rfl

theorem pieces_eq_iff {input : String} (nonempty : input ≠ "") {claims : List (Claim kind)}
    (legal : ∀ claim ∈ claims, Claim.Legal claim) :
    input.toList.splitOn ' ' = claims.map (fun claim => (Claim.text claim).toList) ↔
      text claims = input := by
  rw [← String.toList_inj, text_toList]
  constructor
  · intro pieces
    rw [← pieces, List.intercalate_splitOn]
  · intro joined
    rw [← joined]
    apply List.splitOn_intercalate
    · intro piece member
      obtain ⟨claim, inside, rfl⟩ := List.mem_map.mp member
      exact (legal claim inside).no_space
    · intro none
      rw [none] at joined
      exact nonempty (String.toList_eq_nil_iff.mp joined.symm)

/-- Reading gives some claims exactly when the text is theirs, all their names are legal, and both
the number of claims and the length of the text are within the limits. -/
theorem parse_eq_ok_iff (kind : Kind) (input : String) (claims : List (Claim kind)) :
    parse kind input = .ok claims ↔
      text claims = input ∧
        (∀ claim ∈ claims, ∀ token ∈ Claim.tokens claim, ∀ name ∈ token.parts,
          Name.Legal name) ∧
          claims.length ≤ maxClaimsPerString ∧ input.utf8ByteSize ≤ maxClaimStringBytes := by
  have names : (∀ claim ∈ claims, ∀ token ∈ Claim.tokens claim, ∀ name ∈ token.parts,
      Name.Legal name) ↔ ∀ claim ∈ claims, Claim.Legal claim := Iff.rfl
  rw [names, parse]
  by_cases tooLong : maxClaimStringBytes < input.utf8ByteSize
  · have unfit : ¬ input.utf8ByteSize ≤ maxClaimStringBytes := by omega
    simp [tooLong, unfit]
  · have fits : input.utf8ByteSize ≤ maxClaimStringBytes := by omega
    rw [if_neg tooLong]
    by_cases empty : input = ""
    · rw [if_pos (by simpa using empty), empty, Except.ok.injEq]
      constructor
      · intro none
        subst none
        simp [text]
      · intro written
        rcases written with ⟨written, legal, _⟩
        exact ((text_eq_empty_iff legal).mp written).symm
    · rw [if_neg (by simpa using empty), parse_pieces_eq_ok, Nat.zero_add]
      constructor
      · intro read
        rcases read with ⟨pieces, legal, room⟩
        refine ⟨(pieces_eq_iff empty legal).mp pieces, legal, ?_, fits⟩
        rcases room with none | within
        · simp [none]
        · exact within
      · intro written
        rcases written with ⟨written, legal, within, _⟩
        exact ⟨(pieces_eq_iff empty legal).mpr written, legal, Or.inr within⟩

end Claims

end ClaimPolicy
