import ClaimPolicy.Proofs.ClaimText

/-!
Two texts of claims with one space between them. A space only ever parts claims, so the joined text
has the pieces of both texts in order: it reads as the claims of both, unless the two are within the
limits only apart. Collections that are merged, and builders, take the claims as they come and have
no limits.
-/
namespace ClaimPolicy

namespace ClaimsBuilder

variable {kind : Kind}

theorem parse_eq_ok (builder fed : ClaimsBuilder kind) (input : String) :
    builder.parse input = .ok fed ↔
      ∃ claims, Claims.parse kind input = .ok claims ∧ fed.build = builder.build ++ claims := by
  rw [parse, bind_eq_ok]
  refine exists_congr fun read => and_congr_right fun _ => ?_
  obtain ⟨gathered⟩ := fed
  simp [claims, build, pure, Except.pure, eq_comm]

theorem parse_both_eq_ok (builder fed : ClaimsBuilder kind) (left right : String) :
    (builder.parse left >>= fun begun => begun.parse right) = .ok fed ↔
      ∃ first second, Claims.parse kind left = .ok first ∧
        Claims.parse kind right = .ok second ∧
        fed.build = builder.build ++ (first ++ second) := by
  rw [bind_eq_ok]
  constructor
  · intro taken
    obtain ⟨begun, front, back⟩ := taken
    obtain ⟨first, readLeft, held⟩ := (parse_eq_ok _ _ _).mp front
    obtain ⟨second, readRight, whole⟩ := (parse_eq_ok _ _ _).mp back
    refine ⟨first, second, readLeft, readRight, ?_⟩
    rw [whole, held, List.append_assoc]
  · intro read
    obtain ⟨first, second, readLeft, readRight, whole⟩ := read
    refine ⟨builder.claims first, (parse_eq_ok _ _ _).mpr ⟨first, readLeft, rfl⟩,
      (parse_eq_ok _ _ _).mpr ⟨second, readRight, ?_⟩⟩
    rw [whole, ← List.append_assoc]
    rfl

end ClaimsBuilder

namespace Claims

variable {kind : Kind}

theorem joined_pieces (left right : String) :
    (left ++ " " ++ right).toList.splitOn ' ' =
      left.toList.splitOn ' ' ++ right.toList.splitOn ' ' := by
  have letters : (left ++ " " ++ right).toList = left.toList ++ ' ' :: right.toList := by simp
  rw [letters, List.splitOn_append_cons_self]

theorem joined_bytes_le (left right : String) :
    left.utf8ByteSize ≤ (left ++ " " ++ right).utf8ByteSize ∧
      right.utf8ByteSize ≤ (left ++ " " ++ right).utf8ByteSize := by
  rw [String.utf8ByteSize_append, String.utf8ByteSize_append]
  omega

variable {left right : String}

/-- A joined text reads as some claims when the first of them are those of the one text, the others
are those of the other, and all are within the limits. -/
theorem parse_joined_iff (leftSome : left ≠ "") (rightSome : right ≠ "")
    (claims : List (Claim kind)) :
    parse kind (left ++ " " ++ right) = .ok claims ↔
      ∃ first second, parse kind left = .ok first ∧ parse kind right = .ok second ∧
        (left ++ " " ++ right).utf8ByteSize ≤ maxClaimStringBytes ∧
          first.length + second.length ≤ maxClaimsPerString ∧ claims = first ++ second := by
  have joinedSome : left ++ " " ++ right ≠ "" := by
    intro empty
    exact absurd (congrArg String.toList empty) (by simp)
  obtain ⟨leftBytes, rightBytes⟩ := joined_bytes_le left right
  rw [parse_nonempty_eq_ok_iff joinedSome, joined_pieces]
  constructor
  · intro read
    obtain ⟨pieces, legal, few, short⟩ := read
    obtain ⟨first, second, rfl, leftPieces, rightPieces⟩ :=
      List.map_eq_append_iff.mp pieces.symm
    obtain ⟨firstLegal, secondLegal⟩ := List.forall_mem_append.mp legal
    rw [List.length_append] at few
    have readLeft : parse kind left = .ok first :=
      (parse_nonempty_eq_ok_iff leftSome first).mpr
        ⟨leftPieces.symm, firstLegal, by omega, by omega⟩
    have readRight : parse kind right = .ok second :=
      (parse_nonempty_eq_ok_iff rightSome second).mpr
        ⟨rightPieces.symm, secondLegal, by omega, by omega⟩
    exact ⟨first, second, readLeft, readRight, short, few, rfl⟩
  · intro apart
    obtain ⟨first, second, readLeft, readRight, short, few, rfl⟩ := apart
    obtain ⟨leftPieces, firstLegal, _, _⟩ :=
      (parse_nonempty_eq_ok_iff leftSome first).mp readLeft
    obtain ⟨rightPieces, secondLegal, _, _⟩ :=
      (parse_nonempty_eq_ok_iff rightSome second).mp readRight
    refine ⟨?_, List.forall_mem_append.mpr ⟨firstLegal, secondLegal⟩, ?_, short⟩
    · rw [leftPieces, rightPieces, List.map_append]
    · rw [List.length_append]
      exact few

/-- Joining texts is joining collections, for texts that are not empty. The joined text reads
whenever both texts do, it is not too long and there are not too many claims in all; what it reads
as is the one collection followed by the other, which is also what merging them gives and what a
builder gathers from the texts in turn. -/
theorem joining_texts_joins_collections (leftSome : left ≠ "") (rightSome : right ≠ "") :
    (∀ kind, (∃ claims, parse kind (left ++ " " ++ right) = .ok claims) ↔
      ∃ first second, parse kind left = .ok first ∧ parse kind right = .ok second ∧
        (left ++ " " ++ right).utf8ByteSize ≤ maxClaimStringBytes ∧
          first.length + second.length ≤ maxClaimsPerString) ∧
    (∀ kind (first second claims : List (Claim kind)), parse kind left = .ok first →
      parse kind right = .ok second → parse kind (left ++ " " ++ right) = .ok claims →
        claims = first ++ second) ∧
    (∀ first second claims : Authorization, parse .authorization left = .ok first →
      parse .authorization right = .ok second →
        parse .authorization (left ++ " " ++ right) = .ok claims →
        claims = merge first second) ∧
    (∀ kind (claims : List (Claim kind)), parse kind (left ++ " " ++ right) = .ok claims →
      ∀ builder : ClaimsBuilder kind, ∃ fed,
        (builder.parse left >>= fun begun => begun.parse right) = .ok fed ∧
          fed.build = builder.build ++ claims) ∧
    ∀ kind (builder fed : ClaimsBuilder kind),
      (builder.parse left >>= fun begun => begun.parse right) = .ok fed ↔
        ∃ first second, parse kind left = .ok first ∧ parse kind right = .ok second ∧
          fed.build = builder.build ++ (first ++ second) := by
  have appended :
      ∀ kind (first second claims : List (Claim kind)), parse kind left = .ok first →
      parse kind right = .ok second → parse kind (left ++ " " ++ right) = .ok claims →
        claims = first ++ second := by
    intro kind first second claims readLeft readRight read
    obtain ⟨front, back, frontRead, backRead, _, _, whole⟩ :=
      (parse_joined_iff leftSome rightSome claims).mp read
    cases frontRead.symm.trans readLeft
    cases backRead.symm.trans readRight
    exact whole
  refine ⟨?_, appended, appended .authorization, ?_, ?_⟩
  · intro kind
    constructor
    · intro reads
      obtain ⟨claims, read⟩ := reads
      obtain ⟨first, second, readLeft, readRight, short, few, _⟩ :=
        (parse_joined_iff leftSome rightSome claims).mp read
      exact ⟨first, second, readLeft, readRight, short, few⟩
    · intro apart
      obtain ⟨first, second, readLeft, readRight, short, few⟩ := apart
      exact ⟨first ++ second, (parse_joined_iff leftSome rightSome _).mpr
        ⟨first, second, readLeft, readRight, short, few, rfl⟩⟩
  · intro kind claims read builder
    obtain ⟨first, second, readLeft, readRight, _, _, whole⟩ :=
      (parse_joined_iff leftSome rightSome claims).mp read
    refine ⟨builder.claims claims, ?_, rfl⟩
    rw [whole, ClaimsBuilder.parse_both_eq_ok]
    exact ⟨first, second, readLeft, readRight, rfl⟩
  · intro kind builder fed
    exact builder.parse_both_eq_ok fed left right

/-- The claims of two texts, and those of the texts joined. A text that starts with a space is not
read, and so neither is what it is joined to. -/
theorem two_texts_joined :
    parse .authorization ("root r:reader" ++ " " ++ "*@r:*") =
        .ok (merge [⟨.atom "root", none⟩, ⟨.composite "r" "reader", none⟩]
          [⟨.atom "*", some (.composite "r" "*")⟩]) ∧
      ¬ ∃ claims, parse .authorization ("root" ++ " " ++ " r:reader") = .ok claims := by
  obtain ⟨reads, _, merged, _⟩ :=
    @joining_texts_joins_collections "root r:reader" "*@r:*" (by decide) (by decide)
  obtain ⟨spaced, _⟩ :=
    @joining_texts_joins_collections "root" " r:reader" (by decide) (by decide)
  have readLeft : parse .authorization "root r:reader" =
      .ok [⟨.atom "root", none⟩, ⟨.composite "r" "reader", none⟩] := rfl
  have readRight :
      parse .authorization "*@r:*" = .ok [⟨.atom "*", some (.composite "r" "*")⟩] :=
    rfl
  have unread :
      parse .authorization " r:reader" = .error (.malformedClaim " r:reader" .emptyClaim) :=
    rfl
  obtain ⟨claims, read⟩ :=
    (reads .authorization).mpr ⟨_, _, readLeft, readRight, by decide +kernel, by decide⟩
  refine ⟨?_, ?_⟩
  · rw [read, merged _ _ claims readLeft readRight read]
  · intro readable
    obtain ⟨first, second, _, readSpaced, _⟩ := (spaced .authorization).mp readable
    cases unread.symm.trans readSpaced

end Claims

end ClaimPolicy
