import Mathlib.Algebra.Order.BigOperators.Group.List
import Mathlib.Algebra.Order.Group.Nat
import Mathlib.Algebra.Ring.Nat
import Mathlib.Data.String.Basic
import ClaimPolicy.Command
import ClaimPolicy.Proofs.Respelling
import ClaimPolicy.Proofs.Stability
import ClaimPolicy.Wire

/-!
The text of a validated collection. Canonical names are legal and validation adds no claims, so that
such a text keeps every rule of the grammar. The one thing that may stand in the way of reading it
again is its length: reading bounds the bytes of the text that it is given, and canonical names may
be longer than the aliases that were written.
-/
namespace ClaimPolicy

namespace Claims

variable {kind : Kind}

/-- The text of legal claims, if there are not too many, is refused for its length or not at all. -/
theorem parse_text {claims : List (Claim kind)} (legal : ∀ claim ∈ claims, Claim.Legal claim)
    (few : claims.length ≤ maxClaimsPerString) :
    parse kind (text claims) =
      if maxClaimStringBytes < (text claims).utf8ByteSize then
        .error (.claimStringTooLong (text claims).utf8ByteSize)
      else .ok claims := by
  rw [parse]
  split
  · rfl
  · by_cases empty : text claims = ""
    · rw [if_pos (by simpa using empty), (text_eq_empty_iff legal).mp empty]
    · rw [if_neg (by simpa using empty), parse_pieces_eq_ok, Nat.zero_add]
      exact ⟨(pieces_eq_iff empty legal).mpr rfl, legal, Or.inr few⟩

theorem written_of_parse {input : String} {claims : List (Claim kind)}
    (read : parse kind input = .ok claims) :
    text claims = input ∧ (∀ claim ∈ claims, Claim.Legal claim) ∧
      claims.length ≤ maxClaimsPerString ∧ input.utf8ByteSize ≤ maxClaimStringBytes := by
  by_cases empty : input = ""
  · subst empty
    cases read
    exact ⟨rfl, by simp, Nat.zero_le _, Nat.zero_le _⟩
  · obtain ⟨pieces, legal, few, short⟩ := (parse_nonempty_eq_ok_iff empty claims).mp read
    exact ⟨(pieces_eq_iff empty legal).mp pieces, legal, few, short⟩

end Claims

namespace Text

theorem intercalate_bytes (pieces : List String) :
    (" ".intercalate pieces).utf8ByteSize =
      (pieces.map String.utf8ByteSize).sum + (pieces.length - 1) := by
  induction pieces with
  | nil => rfl
  | cons piece rest ih =>
      cases rest with
      | nil => simp
      | cons next more =>
          have space : " ".utf8ByteSize = 1 := rfl
          rw [String.intercalate_cons_cons, String.utf8ByteSize_append, String.utf8ByteSize_append,
            ih, space]
          simp only [List.map_cons, List.sum_cons, List.length_cons]
          omega

end Text

theorem Permission.text_map_le {rename : Token → Token} {claim : Permission}
    (shorter : ∀ token ∈ claim.tokens,
      (rename token).text.utf8ByteSize ≤ token.text.utf8ByteSize) :
    (claim.map rename).text.utf8ByteSize ≤ claim.text.utf8ByteSize := by
  obtain ⟨token, scope⟩ := claim
  have first := shorter token List.mem_cons_self
  cases scope with
  | none => exact first
  | some scope =>
      have second := shorter scope (by simp [tokens])
      simp only [text, map, Option.map_some, String.utf8ByteSize_append]
      omega

namespace Claim

variable {kind : Kind}

theorem text_map_le {rename : Token → Token} {claim : Claim kind}
    (shorter : ∀ token ∈ tokens claim,
      (rename token).text.utf8ByteSize ≤ token.text.utf8ByteSize) :
    (text (map rename claim)).utf8ByteSize ≤ (text claim).utf8ByteSize := by
  cases kind with
  | authorization => exact Permission.text_map_le shorter
  | assertion =>
      obtain ⟨permission, negated⟩ := claim
      have inner : (permission.map rename).text.utf8ByteSize ≤ permission.text.utf8ByteSize :=
        Permission.text_map_le shorter
      cases negated with
      | false => exact inner
      | true =>
          simp only [text, map, if_true, String.utf8ByteSize_append]
          omega
  | grants =>
      obtain ⟨subject, permission⟩ := claim
      obtain ⟨front, rest⟩ := List.forall_mem_cons.mp shorter
      have first : (rename subject).text.utf8ByteSize ≤ subject.text.utf8ByteSize := front
      have inner : (permission.map rename).text.utf8ByteSize ≤ permission.text.utf8ByteSize :=
        Permission.text_map_le rest
      simp only [text, map, String.utf8ByteSize_append]
      omega

end Claim

namespace Claims

variable {kind : Kind}

theorem text_bytes (claims : List (Claim kind)) :
    (text claims).utf8ByteSize =
      (claims.map fun claim => (Claim.text claim).utf8ByteSize).sum + (claims.length - 1) := by
  rw [text, Text.intercalate_bytes, List.map_map, List.length_map]
  rfl

theorem text_sublist_le {some all : List (Claim kind)} (part : some.Sublist all) :
    (text some).utf8ByteSize ≤ (text all).utf8ByteSize := by
  rw [text_bytes, text_bytes]
  have bytes := (part.map fun claim => (Claim.text claim).utf8ByteSize).sum_le_sum
    fun _ _ => Nat.zero_le _
  have separators := part.length_le
  omega

theorem text_map_le {rename : Token → Token} {claims : List (Claim kind)}
    (shorter : ∀ claim ∈ claims, ∀ token ∈ Claim.tokens claim,
      (rename token).text.utf8ByteSize ≤ token.text.utf8ByteSize) :
    (text (claims.map (Claim.map rename))).utf8ByteSize ≤ (text claims).utf8ByteSize := by
  rw [text_bytes, text_bytes, List.length_map, List.map_map]
  apply Nat.add_le_add_right
  apply List.sum_le_sum
  intro claim member
  exact Claim.text_map_le (shorter claim member)

end Claims

namespace Checker

variable {checker : Checker} {kind : Kind}

theorem spelling_legal (legal : checker.Legal) {token : Token} (written : token.Legal) :
    (checker.spelling token).Legal := by
  unfold spelling
  cases known : checker.model with
  | none => exact written
  | some model =>
      have indexed := (legal model known).well_formed.toIndexed
      change (model.canonicalOrSelf token).Legal
      cases found : model.findId token .claim with
      | none => rwa [Model.canonical_or_self_of_none found]
      | some id =>
          obtain ⟨definition, here⟩ := Model.find_id_found indexed found
          rw [Model.canonical_or_self_of_find found here]
          exact Model.token_legal indexed here

theorem legal_consolidated (legal : checker.Legal) {claims : List (Claim kind)}
    (written : ∀ claim ∈ claims, Claim.Legal claim) :
    ∀ keeper ∈ (checker.consolidate claims).claims, Claim.Legal keeper := by
  intro keeper kept token member
  obtain ⟨claim, inside, given, among, rfl⟩ := token_of_kept legal kept member
  exact spelling_legal legal (written claim inside given among)

theorem reduced_text_known {input : String} {claims : List (Claim kind)}
    (read : Claims.parse kind input = .ok claims) (known : checker.Knows claims) :
    Command.reducedText checker kind input =
      .ok (Claims.text (checker.consolidate claims).claims) := by
  simp only [Command.reducedText, read, bind, Except.bind, validate_known known]
  rfl

/-- Consolidating a string gives the text of a validated collection, which is read again as that
collection unless it is too long for reading, and then this is the error. If it is not too long,
consolidating it gives it back, and its exchange form is read back too. It never is too long without
a model, nor where no canonical spelling is longer than what was written. -/
theorem canonical_text_read_again (checker : Checker) (legal : checker.Legal) (kind : Kind)
    (input : String) (claims : List (Claim kind)) (reduced : Reduced kind)
    (read : Claims.parse kind input = .ok claims)
    (validated : checker.validate claims = .ok reduced) :
    Command.reducedText checker kind input = .ok (Claims.text reduced.claims) ∧
    (Claims.parse kind (Claims.text reduced.claims) =
      if maxClaimStringBytes < (Claims.text reduced.claims).utf8ByteSize then
        .error (.claimStringTooLong (Claims.text reduced.claims).utf8ByteSize)
      else .ok reduced.claims) ∧
    ((Claims.text reduced.claims).utf8ByteSize ≤ maxClaimStringBytes →
      Command.reducedText checker kind (Claims.text reduced.claims) =
          .ok (Claims.text reduced.claims) ∧
        Wire.toClaims kind (Wire.ofClaims reduced.claims) = .ok reduced.claims) ∧
    ((∀ claim ∈ claims, ∀ token ∈ Claim.tokens claim,
        (checker.spelling token).text.utf8ByteSize ≤ token.text.utf8ByteSize) →
      (Claims.text reduced.claims).utf8ByteSize ≤ maxClaimStringBytes) ∧
    (checker.model = none →
     (Claims.text reduced.claims).utf8ByteSize ≤ maxClaimStringBytes) := by
  obtain ⟨written, claimsLegal, few, short⟩ := Claims.written_of_parse read
  obtain ⟨known, rfl⟩ := (validate_eq_ok_iff claims reduced).mp validated
  have reducedLegal := legal_consolidated legal claimsLegal
  have reducedKnown := known_consolidated legal known
  have part := consolidate_sublist legal claims
  have reducedFew : (checker.consolidate claims).claims.length ≤ maxClaimsPerString := by
    have fewer := part.length_le
    rw [List.length_map] at fewer
    omega
  have again := Claims.parse_text reducedLegal reducedFew
  -- Claims are only dropped, so that nothing but their spelling can lengthen the text.
  have bounded : (∀ claim ∈ claims, ∀ token ∈ Claim.tokens claim,
      (checker.spelling token).text.utf8ByteSize ≤ token.text.utf8ByteSize) →
        (Claims.text (checker.consolidate claims).claims).utf8ByteSize ≤ maxClaimStringBytes := by
    intro shorter
    calc (Claims.text (checker.consolidate claims).claims).utf8ByteSize
        ≤ (Claims.text (claims.map (Claim.map checker.spelling))).utf8ByteSize :=
          Claims.text_sublist_le part
      _ ≤ (Claims.text claims).utf8ByteSize := Claims.text_map_le shorter
      _ ≤ maxClaimStringBytes := written ▸ short
  refine ⟨reduced_text_known read known, again, ?_, bounded, ?_⟩
  · intro fits
    rw [if_neg (Nat.not_lt.mpr fits)] at again
    constructor
    · rw [reduced_text_known again reducedKnown, consolidate_idempotent legal]
    · rw [Wire.ofClaims, Wire.toClaims, again]
      rfl
  · intro unknown
    apply bounded
    intro claim _ token _
    rw [spelling, unknown]
    exact Nat.le_refl _

end Checker

/-- Aliases are written, and the text of what they stand for is longer and is read again. -/
theorem root_and_reader_read_again :
    roleChecker.Legal ∧
      Claims.parse .authorization "root r:Reader@*" = .ok rootThenReader ∧
      roleChecker.validate rootThenReader = .ok (roleChecker.consolidate rootThenReader) ∧
      Claims.text (roleChecker.consolidate rootThenReader).claims = "admin role:viewer@*" ∧
      Claims.parse .authorization "admin role:viewer@*" =
        .ok (roleChecker.consolidate rootThenReader).claims ∧
      Command.reducedText roleChecker .authorization "admin role:viewer@*" =
        .ok "admin role:viewer@*" := by
  have read : Claims.parse .authorization "root r:Reader@*" = .ok rootThenReader := by
    decide +kernel
  have validated := Checker.validate_known root_then_reader_known
  have written : Claims.text (roleChecker.consolidate rootThenReader).claims =
      "admin role:viewer@*" := by decide +kernel
  have fits : "admin role:viewer@*".utf8ByteSize ≤ maxClaimStringBytes := by decide
  obtain ⟨_, again, repeated, _⟩ :=
    Checker.canonical_text_read_again roleChecker role_checker_legal
    .authorization _ rootThenReader _ read validated
  rw [written] at again repeated
  rw [if_neg (Nat.not_lt.mpr fits)] at again
  exact ⟨role_checker_legal, read, validated, written, again, (repeated fits).1⟩

def longName (letter : Char) : String := String.ofList (List.replicate Name.maxBytes letter)

def longLetters : List Char := ['a', 'b', 'c', 'd']

/-- Composites whose names are as long as names may be, each with an alias of one letter. -/
def longSchema : Schema where
  case := .sensitive
  declarations := longLetters.map fun letter =>
    .composite ⟨longName letter, [String.singleton letter], []⟩

def longModel : Model :=
  Model.ofDefinitions .sensitive (longSchema.drafts.map fun draft => draft.definition [])

theorem long_name_bytes {letter : Char} (small : letter.utf8Size = 1) :
    (longName letter).utf8ByteSize = Name.maxBytes := by
  have repeated : ∀ count, String.utf8Len (List.replicate count letter) = count := by
    intro count
    induction count with
    | zero => rfl
    | succ count ih => rw [List.replicate_succ, String.utf8Len_cons, ih, small]
  rw [longName, String.utf8ByteSize_ofList, repeated]

theorem long_name_declared {letter : Char} (small : letter.utf8Size = 1)
    (free : Name.isReserved letter = false) (concrete : letter ≠ '*') :
    Name.declarationFault? (longName letter) = none := by
  have bytes := long_name_bytes small
  have differs :
      ∀ name : String, name.utf8ByteSize < Name.maxBytes → longName letter ≠ name := by
    intro name shorter same
    rw [← same, bytes] at shorter
    exact Nat.lt_irrefl _ shorter
  have some : (longName letter).isEmpty = false := by
    rw [Bool.eq_false_iff]
    intro empty
    exact differs "" (by decide) (String.isEmpty_iff.mp empty)
  have letters : (longName letter).toList = List.replicate Name.maxBytes letter :=
    String.toList_ofList
  have noneReserved : (longName letter).toList.any Name.isReserved = false := by
    simp [letters, free]
  have noWildcard : (longName letter).toList.contains '*' = false := by
    simp [letters, Ne.symm concrete]
  rw [Name.declaration_fault_eq_none_iff, Name.Legal, Name.fault?, some, bytes, noneReserved,
    noWildcard]
  exact ⟨by simp, differs _ (by decide)⟩

theorem long_schema_builds : longSchema.build = .ok longModel := by
  have plain :
      ∀ letter ∈ longLetters, letter.utf8Size = 1 ∧ Name.isReserved letter = false ∧
      letter ≠ '*' ∧ Name.declarationFault? (String.singleton letter) = none := by
    intro letter member
    simp only [longLetters, List.mem_cons, List.not_mem_nil, or_false] at member
    rcases member with rfl | rfl | rfl | rfl <;> decide +kernel
  have keys : longSchema.drafts.map Draft.keys =
      longLetters.map fun letter => [longName letter, String.singleton letter] := by
    decide +kernel
  have named : ∀ draft ∈ longSchema.drafts, ∀ key ∈ draft.keys,
      Name.declarationFault? key = none := by
    intro draft among key member
    have listed : draft.keys ∈ longSchema.drafts.map Draft.keys := List.mem_map_of_mem among
    rw [keys] at listed
    obtain ⟨letter, inside, same⟩ := List.mem_map.mp listed
    obtain ⟨small, free, concrete, short⟩ := plain letter inside
    rw [← same] at member
    simp only [List.mem_cons, List.not_mem_nil, or_false] at member
    rcases member with rfl | rfl
    · exact long_name_declared small free concrete
    · exact short
  have resolved : longSchema.unresolved.resolveDrafts longSchema.drafts =
      .ok longModel.definitions.toList := by
    decide +kernel
  have acyclic : longModel.checkAcyclic = .ok () :=
    Model.check_acyclic_of_depth (fun _ => 0) (by decide +kernel)
  exact Schema.build_of_stages (by decide) named (by decide +kernel) resolved (by decide +kernel)
    acyclic

/-- The members of each composite in those of each, by the aliases. -/
def longFamilies : Authorization :=
  longLetters.flatMap fun held => longLetters.map fun place =>
    ⟨.composite (String.singleton held) "*", some (.composite (String.singleton place) "*")⟩

def longFamiliesWritten : String :=
  "a:*@a:* a:*@b:* a:*@c:* a:*@d:* b:*@a:* b:*@b:* b:*@c:* b:*@d:* " ++
    "c:*@a:* c:*@b:* c:*@c:* c:*@d:* d:*@a:* d:*@b:* d:*@c:* d:*@d:*"

/-- A short text is read and validated, and the text of the result is too long to be read again. -/
theorem canonical_text_too_long :
    Checker.Legal ⟨some longModel⟩ ∧
      Claims.parse .authorization longFamiliesWritten = .ok longFamilies ∧
      ∃ reduced, Checker.validate ⟨some longModel⟩ longFamilies = .ok reduced ∧
        Claims.parse .authorization (Claims.text reduced.claims) =
          .error (.claimStringTooLong 4191) := by
  have legal : Checker.Legal ⟨some longModel⟩ := by
    intro known same
    cases same
    exact ⟨longSchema, long_schema_builds⟩
  have read : Claims.parse .authorization longFamiliesWritten = .ok longFamilies := by
    decide +kernel
  have known : Checker.Knows ⟨some longModel⟩ longFamilies := by decide +kernel
  have bytes : (Claims.text
      (Checker.consolidate ⟨some longModel⟩ longFamilies).claims).utf8ByteSize = 4191 := by
    decide +kernel
  have tooLong : maxClaimStringBytes < 4191 := by decide
  refine ⟨legal, read, _, Checker.validate_known known, ?_⟩
  rw [Claims.parse, bytes, if_pos tooLong]

end ClaimPolicy
