import ClaimPolicy.Proofs.ClaimText
import ClaimPolicy.Proofs.FaultKinds

/-!
Why a text of claims is not read. Reading stops at the first piece that is empty, that has no room
left or that is no claim, in this order of the three, so the pieces before it decide together with
it which error is given. A text is refused for too many claims only when as many as are allowed have
been read and another one begins; a defect that comes earlier is always reported first.
-/
namespace ClaimPolicy.Claims

variable {kind : Kind}

def Readable (kind : Kind) (piece : List Char) : Prop :=
  ∃ claim, Claim.parseChars kind piece = .ok claim

/-- The most claims that are allowed can be read, and right after them the text goes on with another
piece that is not empty. -/
def Overfull (kind : Kind) (input : String) : Prop :=
  ∃ before next after, input.toList.splitOn ' ' = before ++ next :: after ∧
    before.length = maxClaimsPerString ∧ (∀ piece ∈ before, Readable kind piece) ∧
    next ≠ []

/-- What is wrong with the piece at which reading stops. `pieces` is how many there are in all and
`taken` how many have been read before. -/
inductive Stops (kind : Kind) (input : String) (pieces taken : Nat) :
    List Char → Error → Prop where
  | empty : Stops kind input pieces taken [] (.malformedClaim input .emptyClaim)
  | crowded {piece : List Char} (nonempty : piece ≠ []) (full : maxClaimsPerString ≤ taken) :
      Stops kind input pieces taken piece (.tooManyClaims pieces)
  | unreadable {piece : List Char} {fault : Error} (nonempty : piece ≠ [])
      (room : taken < maxClaimsPerString) (failed : Claim.parseChars kind piece = .error fault) :
      Stops kind input pieces taken piece fault

theorem Readable.ne_nil {piece : List Char} (readable : Readable kind piece) : piece ≠ [] := by
  obtain ⟨claim, read⟩ := readable
  obtain ⟨spelled, legal⟩ := (Claim.parse_chars_eq_ok piece claim).mp read
  rw [← spelled]
  exact Claim.Legal.text_ne_nil legal

/-- Apart from malformed claims, only a piece that finds no room stops reading. -/
theorem Stops.crowded_or_malformed {input : String} {pieces taken : Nat} {piece : List Char}
    {fault : Error} (stops : Stops kind input pieces taken piece fault) :
    (piece ≠ [] ∧ maxClaimsPerString ≤ taken ∧ fault = .tooManyClaims pieces) ∨
    fault.Malformed := by
  cases stops with
  | empty => exact .inr ⟨_, _, rfl⟩
  | crowded nonempty full => exact .inl ⟨nonempty, full, rfl⟩
  | unreadable nonempty room failed => exact .inr (Claim.parse_chars_fails kind piece fault failed)

theorem parse_pieces_stops {input : String} {count taken : Nat} {piece : List Char} {fault : Error}
    (stops : Stops kind input count taken piece fault) (rest : List (List Char)) :
    parsePieces kind input count taken (piece :: rest) = .error fault := by
  rw [parsePieces]
  cases stops with
  | empty => rfl
  | crowded nonempty full => rw [if_neg (by simpa using nonempty), if_pos full]
  | unreadable nonempty room failed =>
      rw [if_neg (by simpa using nonempty), if_neg (Nat.not_le.mpr room), failed]
      rfl

theorem parse_pieces_goes_on {input : String} {count taken : Nat} {piece : List Char}
    (readable : Readable kind piece) (room : taken < maxClaimsPerString) (rest : List (List Char))
    (fault : Error) :
    parsePieces kind input count taken (piece :: rest) = .error fault ↔
      parsePieces kind input count (taken + 1) rest = .error fault := by
  have nonempty := readable.ne_nil
  obtain ⟨claim, read⟩ := readable
  rw [parsePieces, if_neg (by simpa using nonempty), if_neg (Nat.not_le.mpr room), read]
  cases parsePieces kind input count (taken + 1) rest with
  | error other => exact Iff.rfl
  | ok claims =>
      constructor
      all_goals
        intro failed
        cases failed

/-- A piece either stops reading or is a claim for which there is room. -/
theorem stops_or_readable (kind : Kind) (input : String) (count taken : Nat) (piece : List Char) :
    (∃ fault, Stops kind input count taken piece fault) ∨
      Readable kind piece ∧ taken < maxClaimsPerString := by
  by_cases empty : piece = []
  · subst empty
    exact .inl ⟨_, .empty⟩
  · by_cases full : maxClaimsPerString ≤ taken
    · exact .inl ⟨_, .crowded empty full⟩
    · have room := Nat.lt_of_not_le full
      cases read : Claim.parseChars kind piece with
      | error fault => exact .inl ⟨fault, .unreadable empty room read⟩
      | ok claim => exact .inr ⟨⟨claim, read⟩, room⟩

theorem parse_pieces_eq_error_iff {input : String} {count taken : Nat}
    (within : taken ≤ maxClaimsPerString) (pieces : List (List Char)) (fault : Error) :
    parsePieces kind input count taken pieces = .error fault ↔
      ∃ before piece after, pieces = before ++ piece :: after ∧
        (∀ earlier ∈ before, Readable kind earlier) ∧
          taken + before.length ≤ maxClaimsPerString ∧
            Stops kind input count (taken + before.length) piece fault := by
  induction pieces generalizing taken with
  | nil => simp [parsePieces]
  | cons piece rest ih =>
      constructor
      · intro failed
        rcases stops_or_readable kind input count taken piece with
          ⟨other, stops⟩ | ⟨readable, room⟩
        · have same := (parse_pieces_stops stops rest).symm.trans failed
          cases same
          exact ⟨[], piece, rest, rfl, by simp, within, stops⟩
        · have later := (parse_pieces_goes_on readable room rest fault).mp failed
          obtain ⟨before, next, after, rfl, allRead, inside, stops⟩ := (ih room).mp later
          have shifted : taken + (piece :: before).length = taken + 1 + before.length := by
            rw [List.length_cons]
            omega
          refine ⟨piece :: before, next, after, rfl,
            List.forall_mem_cons.mpr ⟨readable, allRead⟩, ?_, ?_⟩
          · omega
          · rw [shifted]
            exact stops
      · intro found
        obtain ⟨before, next, after, cut, allRead, inside, stops⟩ := found
        cases before with
        | nil =>
            obtain ⟨rfl, rfl⟩ := List.cons.inj cut
            exact parse_pieces_stops stops _
        | cons first others =>
            obtain ⟨rfl, rfl⟩ := List.cons.inj cut
            obtain ⟨readable, othersRead⟩ := List.forall_mem_cons.mp allRead
            have shifted : taken + (piece :: others).length = taken + 1 + others.length := by
              rw [List.length_cons]
              omega
            rw [shifted] at inside stops
            have room : taken < maxClaimsPerString := by omega
            rw [parse_pieces_goes_on readable room, ih room]
            exact ⟨others, next, after, rfl, othersRead, inside, stops⟩

theorem parse_too_long {input : String} (long : maxClaimStringBytes < input.utf8ByteSize) :
    parse kind input = .error (.claimStringTooLong input.utf8ByteSize) := by
  rw [parse, if_pos long]

theorem parse_short_eq_error_iff {input : String}
    (short : input.utf8ByteSize ≤ maxClaimStringBytes) (fault : Error) :
    parse kind input = .error fault ↔
      input ≠ "" ∧
      ∃ before piece after, input.toList.splitOn ' ' = before ++ piece :: after ∧
        (∀ earlier ∈ before, Readable kind earlier) ∧ before.length ≤ maxClaimsPerString ∧
          Stops kind input (input.toList.splitOn ' ').length before.length piece fault := by
  rw [parse, if_neg (Nat.not_lt.mpr short)]
  by_cases empty : input = ""
  · subst empty
    constructor
    · intro failed
      cases failed
    · intro stopped
      exact absurd rfl stopped.1
  · rw [if_neg (by simpa using empty), and_iff_right empty,
      parse_pieces_eq_error_iff (Nat.zero_le _)]
    simp only [Nat.zero_add]

theorem overfull_iff_stops (kind : Kind) (input : String) (count attempted : Nat) :
    (∃ before piece after, input.toList.splitOn ' ' = before ++ piece :: after ∧
        (∀ earlier ∈ before, Readable kind earlier) ∧ before.length ≤ maxClaimsPerString ∧
          Stops kind input count before.length piece (.tooManyClaims attempted)) ↔
      Overfull kind input ∧ attempted = count := by
  constructor
  · intro found
    obtain ⟨before, piece, after, cut, allRead, inside, stops⟩ := found
    rcases stops.crowded_or_malformed with ⟨nonempty, full, same⟩ | ⟨_, _, other⟩
    · have exactly := Nat.le_antisymm inside full
      exact ⟨⟨before, piece, after, cut, exactly, allRead, nonempty⟩,
        Error.tooManyClaims.inj same⟩
    · cases other
  · intro overfull
    obtain ⟨⟨before, next, after, cut, full, allRead, nonempty⟩, rfl⟩ := overfull
    exact ⟨before, next, after, cut, allRead, Nat.le_of_eq full,
      .crowded nonempty (Nat.le_of_eq full.symm)⟩

theorem Overfull.ne_empty {input : String} (overfull : Overfull kind input) : input ≠ "" := by
  rintro rfl
  obtain ⟨before, next, after, cut, full, _⟩ := overfull
  have one : 1 = (before ++ next :: after).length := congrArg List.length cut
  rw [List.length_append, full, List.length_cons, maxClaimsPerString] at one
  omega

/-- What is refused is classified by the text alone. It is refused for its length exactly when it
has more bytes than are allowed; otherwise, for too many claims exactly when as many as are allowed
can be read and another piece begins right after them, and then the error tells the number of all
pieces; and otherwise as malformed. A text with more pieces than claims are allowed is always
refused, unless it is empty. -/
theorem refusals_classified (kind : Kind) (input : String) :
    (∀ length, parse kind input = .error (.claimStringTooLong length) ↔
      maxClaimStringBytes < input.utf8ByteSize ∧ length = input.utf8ByteSize) ∧
    (∀ attempted, parse kind input = .error (.tooManyClaims attempted) ↔
      input.utf8ByteSize ≤ maxClaimStringBytes ∧ Overfull kind input ∧
        attempted = (input.toList.splitOn ' ').length) ∧
    (∀ fault, parse kind input = .error fault → input.utf8ByteSize ≤ maxClaimStringBytes →
      ¬ Overfull kind input → fault.Malformed) ∧
    (input ≠ "" → maxClaimsPerString < (input.toList.splitOn ' ').length →
      ∃ fault, parse kind input = .error fault) := by
  refine ⟨?_, ?_, ?_, ?_⟩
  · intro length
    constructor
    · intro refused
      by_cases long : maxClaimStringBytes < input.utf8ByteSize
      · cases (parse_too_long long).symm.trans refused
        exact ⟨long, rfl⟩
      · obtain ⟨_, _, _, _, _, _, _, stops⟩ :=
          (parse_short_eq_error_iff (Nat.le_of_not_lt long) _).mp refused
        rcases stops.crowded_or_malformed with ⟨_, _, other⟩ | ⟨_, _, other⟩ <;> cases other
    · intro long
      rw [long.2]
      exact parse_too_long long.1
  · intro attempted
    by_cases long : maxClaimStringBytes < input.utf8ByteSize
    · rw [parse_too_long long]
      constructor
      · intro refused
        cases refused
      · intro short
        exact absurd long (Nat.not_lt.mpr short.1)
    · have short := Nat.le_of_not_lt long
      rw [parse_short_eq_error_iff short, overfull_iff_stops, and_iff_right short,
        and_iff_right_iff_imp]
      intro overfull
      exact overfull.1.ne_empty
  · intro fault refused short spare
    obtain ⟨_, before, piece, after, cut, allRead, inside, stops⟩ :=
      (parse_short_eq_error_iff short fault).mp refused
    rcases stops.crowded_or_malformed with ⟨nonempty, full, _⟩ | malformed
    · have exactly := Nat.le_antisymm inside full
      exact absurd ⟨before, piece, after, cut, exactly, allRead, nonempty⟩ spare
    · exact malformed
  · intro nonempty many
    cases read : parse kind input with
    | error fault => exact ⟨fault, rfl⟩
    | ok claims =>
        obtain ⟨pieces, _, few, _⟩ := (parse_nonempty_eq_ok_iff nonempty claims).mp read
        rw [pieces, List.length_map] at many
        exact absurd many (Nat.not_lt.mpr few)

def repeatedClaim (count : Nat) : String := " ".intercalate (List.replicate count "a")

theorem repeated_pieces {count : Nat} (some : count ≠ 0) :
    (repeatedClaim count).toList.splitOn ' ' = List.replicate count ['a'] := by
  rw [repeatedClaim, String.toList_intercalate, List.map_replicate]
  apply List.splitOn_intercalate
  · intro piece among
    rw [List.eq_of_mem_replicate among]
    decide
  · simp [some]

/-- With one claim more than are allowed there are too many; with an empty piece before it the text
is malformed. -/
theorem one_claim_too_many :
    parse .authorization (repeatedClaim 129) = .error (.tooManyClaims 129) ∧
      ∃ fault, parse .authorization (repeatedClaim 128 ++ "  a") = .error fault ∧
        fault.Malformed := by
  have readable : ∀ piece ∈ List.replicate 128 ['a'], Readable .authorization piece := by
    intro piece among
    rw [List.eq_of_mem_replicate among]
    exact ⟨⟨.atom "a", none⟩, rfl⟩
  obtain ⟨_, tooMany, _, _⟩ := refusals_classified .authorization (repeatedClaim 129)
  obtain ⟨_, _, malformed, refused⟩ :=
    refusals_classified .authorization (repeatedClaim 128 ++ "  a")
  have crowded : (repeatedClaim 129).toList.splitOn ' ' =
      List.replicate 128 ['a'] ++ [['a']] := repeated_pieces (by decide)
  have gapped : (repeatedClaim 128 ++ "  a").toList.splitOn ' ' =
      List.replicate 128 ['a'] ++ [] :: [['a']] := by
    rw [String.toList_append, ← repeated_pieces (by decide)]
    exact List.splitOn_append_cons_self _ [' ', 'a']
  have overfull : Overfull .authorization (repeatedClaim 129) :=
    ⟨_, _, _, crowded, by rw [List.length_replicate, maxClaimsPerString], readable, by simp⟩
  have spare : ¬ Overfull .authorization (repeatedClaim 128 ++ "  a") := by
    rintro ⟨before, next, after, cut, full, _, nonempty⟩
    have lengths : (List.replicate 128 ['a']).length = before.length := by
      rw [List.length_replicate, full, maxClaimsPerString]
    obtain ⟨_, rest⟩ := List.append_inj (gapped.symm.trans cut) lengths
    exact nonempty (List.cons.inj rest).1.symm
  obtain ⟨fault, failed⟩ :=
    refused (by decide +kernel) (by rw [gapped]; simp [maxClaimsPerString])
  refine ⟨(tooMany 129).mpr ⟨by decide +kernel, overfull, by simp [crowded]⟩, fault,
    failed, ?_⟩
  exact malformed fault failed (by decide +kernel) spare

end ClaimPolicy.Claims
