import ClaimPolicy.Proofs.Acceptance
import ClaimPolicy.Session

/-!
Whose fault an error is. Names are checked both in claims and in declarations, but a reader reports
what is wrong with a name as a malformed claim, and only declarations give a fault of the name
itself. So whatever is read, validated or decided fails only by what the caller passed in, whether
or not there is a model and whatever is in the store; and a schema or document is refused only for
what it declares.
-/
namespace ClaimPolicy

namespace Error

def Malformed (fault : Error) : Prop := ∃ claim reason, fault = .malformedClaim claim reason

/-- The caller is at fault, and it is not a name that is reported. -/
def Rejection (fault : Error) : Prop :=
  fault.isRejection = true ∧ ∀ name reason, fault ≠ .invalidName name reason

def ModelFault (fault : Error) : Prop := fault.isRejection = false

theorem rejection_of_is_rejection {fault : Error} (rejects : fault.isRejection = true) :
    fault.Rejection := by
  refine ⟨rejects, ?_⟩
  rintro name reason rfl
  cases rejects

theorem Malformed.rejection {fault : Error} (malformed : fault.Malformed) : fault.Rejection := by
  obtain ⟨claim, reason, rfl⟩ := malformed
  exact rejection_of_is_rejection rfl

end Error

/-- Every error that a computation may end with is of one sort. -/
def FailsOnly {Result : Type} (sort : Error → Prop) (outcome : Except Error Result) : Prop :=
  ∀ fault, outcome = .error fault → sort fault

namespace FailsOnly

variable {First Second : Type} {sort : Error → Prop}

theorem ok (value : First) : FailsOnly sort (.ok value) := by
  intro fault failed
  cases failed

theorem error {fault : Error} (sorted : sort fault) :
    FailsOnly sort (.error fault : Except Error First) := by
  intro other failed
  cases failed
  exact sorted

theorem bind {step : Except Error First} {next : First → Except Error Second}
    (front : FailsOnly sort step) (back : ∀ value, FailsOnly sort (next value)) :
    FailsOnly sort (step >>= next) := by
  intro fault failed
  rcases (bind_eq_error step next fault).mp failed with first | ⟨value, _, second⟩
  · exact front fault first
  · exact back value fault second

theorem map {step : Except Error First} (change : First → Second) (front : FailsOnly sort step) :
    FailsOnly sort (step.map change) := by
  intro fault failed
  cases step with
  | ok => cases failed
  | error other =>
      cases failed
      exact front _ rfl

theorem mono {outcome : Except Error First} {wider : Error → Prop}
    (implied : ∀ fault, sort fault → wider fault) (fails : FailsOnly sort outcome) :
    FailsOnly wider outcome :=
  fun fault failed => implied fault (fails fault failed)

end FailsOnly

theorem Token.parse_part_fails (whole part : List Char) :
    FailsOnly Error.Malformed (parsePart whole part) := by
  simp only [parsePart]
  split
  · exact .ok _
  · exact .error ⟨_, _, rfl⟩

theorem Token.parse_chars_fails (input : List Char) :
    FailsOnly Error.Malformed (Token.parseChars input) := by
  unfold Token.parseChars
  split
  · exact .error ⟨_, _, rfl⟩
  · split
    · exact .bind (parse_part_fails _ _) fun _ => .ok _
    · exact .bind (parse_part_fails _ _) fun _ => .bind (parse_part_fails _ _) fun _ => .ok _
    · exact .error ⟨_, _, rfl⟩

theorem Permission.parse_chars_fails (input : List Char) :
    FailsOnly Error.Malformed (Permission.parseChars input) := by
  unfold Permission.parseChars
  split
  · split
    · exact .error ⟨_, _, rfl⟩
    · exact .bind (Token.parse_chars_fails _) fun _ =>
        .bind (Token.parse_chars_fails _) fun _ => .ok _
  · exact .bind (Token.parse_chars_fails _) fun _ => .ok _

theorem Requirement.parse_chars_fails (input : List Char) :
    FailsOnly Error.Malformed (Requirement.parseChars input) := by
  unfold Requirement.parseChars
  split <;> exact .bind (Permission.parse_chars_fails _) fun _ => .ok _

theorem Delegation.parse_chars_fails (input : List Char) :
    FailsOnly Error.Malformed (Delegation.parseChars input) := by
  unfold Delegation.parseChars
  split
  · exact .bind (Token.parse_chars_fails _) fun _ =>
      .bind (Permission.parse_chars_fails _) fun _ => .ok _
  · exact .error ⟨_, _, rfl⟩

theorem Claim.parse_chars_fails (kind : Kind) (input : List Char) :
    FailsOnly Error.Malformed (Claim.parseChars kind input) := by
  cases kind with
  | authorization => exact Permission.parse_chars_fails input
  | assertion => exact Requirement.parse_chars_fails input
  | grants => exact Delegation.parse_chars_fails input

theorem AnyClaim.parse_fails (input : String) :
    FailsOnly Error.Malformed (AnyClaim.parse input) := by
  unfold AnyClaim.parse
  split
  · exact .bind (Claim.parse_chars_fails _ _) fun _ => .ok _
  · split <;> exact .bind (Claim.parse_chars_fails _ _) fun _ => .ok _

theorem Claims.parse_pieces_fails (kind : Kind) (input : String) (pieces taken : Nat)
    (parts : List (List Char)) :
    FailsOnly Error.Rejection (Claims.parsePieces kind input pieces taken parts) := by
  induction parts generalizing taken with
  | nil => exact .ok _
  | cons piece rest ih =>
      rw [Claims.parsePieces]
      split
      · exact .error (Error.Malformed.rejection ⟨_, _, rfl⟩)
      · split
        · exact .error (Error.rejection_of_is_rejection rfl)
        · have first :=
            (Claim.parse_chars_fails kind piece).mono fun _ => Error.Malformed.rejection
          exact .bind first fun _ => .bind (ih _) fun _ => .ok _

theorem Claims.parse_fails (kind : Kind) (input : String) :
    FailsOnly Error.Rejection (Claims.parse kind input) := by
  unfold Claims.parse
  split
  · exact .error (Error.rejection_of_is_rejection rfl)
  · split
    · exact .ok _
    · exact Claims.parse_pieces_fails _ _ _ _ _

namespace Checker

variable (checker : Checker)

theorem validate_fails {kind : Kind} (claims : List (Claim kind)) :
    FailsOnly Error.Rejection (checker.validate claims) := by
  unfold validate
  split
  · exact .error (Error.rejection_of_is_rejection rfl)
  · exact .ok _

theorem resolve_fails {kind : Kind} (input : ClaimInput kind) :
    FailsOnly Error.Rejection (checker.resolve input) := by
  cases input with
  | raw text =>
      exact .bind (Claims.parse_fails _ _) fun claims =>
        .bind (checker.validate_fails claims) fun _ => .ok _
  | parsed claims => exact .bind (checker.validate_fails claims) fun _ => .ok _

theorem test_fails (authorization : ClaimInput .authorization) (assertion : ClaimInput .assertion) :
    FailsOnly Error.Rejection (checker.test authorization assertion) :=
  .bind (checker.resolve_fails authorization) fun _ =>
    .bind (checker.resolve_fails assertion) fun _ => .ok _

theorem parse_cached_fails (cache : Cache) (kind : Kind) (raw : String) :
    FailsOnly Error.Rejection (parseCached cache kind raw).1 := by
  unfold parseCached
  split
  · exact .ok _
  · split
    · next failed => exact .error (Claims.parse_fails kind raw _ failed)
    · exact .ok _

theorem validate_into_fails (cache : Cache) (kind : Kind) (raw : String)
    (claims : List (Claim kind)) :
    FailsOnly Error.Rejection (checker.validateInto cache kind raw claims).1 := by
  unfold validateInto
  split
  · next failed => exact .error (checker.validate_fails claims _ failed)
  · exact .ok _

theorem resolve_cached_fails (cache : Cache) {kind : Kind} (input : ClaimInput kind) :
    FailsOnly Error.Rejection (checker.resolveCached cache input).1 := by
  cases input with
  | parsed claims =>
      simp only [resolveCached]
      exact checker.resolve_fails _
  | raw raw =>
      rw [resolveCached]
      split
      · exact .ok _
      · exact checker.validate_into_fails _ _ _ _
      · split
        · next failed => exact .error (Claims.parse_fails kind raw _ failed)
        · exact checker.validate_into_fails _ _ _ _

theorem test_cached_fails (cache : Cache) (authorization : ClaimInput .authorization)
    (assertion : ClaimInput .assertion) :
    FailsOnly Error.Rejection (checker.testCached cache authorization assertion).1 := by
  have first := checker.resolve_cached_fails cache authorization
  unfold testCached
  split
  · next failed =>
      rw [failed] at first
      exact .error (first _ rfl)
  · next cache _ =>
      have second := checker.resolve_cached_fails cache assertion
      split
      · next failed =>
          rw [failed] at second
          exact .error (second _ rfl)
      · exact .ok _

end Checker

theorem Call.run_fails (checker : Checker) (cache : Cache) (call : Call) :
    FailsOnly Error.Rejection (call.run checker cache).1 := by
  cases call with
  | test authorization assertion => exact (checker.test_cached_fails _ _ _).map _
  | can authorization assertion => exact (checker.test_cached_fails _ _ _).map _
  | authorize authorization assertion => exact (checker.test_cached_fails _ _ _).map _
  | parse kind raw => exact (Checker.parse_cached_fails _ _ _).map _
  | supports | get | contains | set | clear | name => exact .ok _

theorem Schema.build_fails (schema : Schema) : FailsOnly Error.ModelFault schema.build := by
  intro fault refused
  cases refused_of_build refused <;> rfl

/-- An error tells whose fault it is. Readers of tokens, claims and collections, and all calls of a
checker, with any model or none and any store, fail only with rejections; no reader lets a fault of
a name escape. Schemas and documents are never refused with a rejection. -/
theorem errors_tell_whose_fault :
    (∀ input, FailsOnly Error.Rejection (Token.parse input)) ∧
    (∀ kind input, FailsOnly Error.Rejection (Claim.parse kind input)) ∧
    (∀ input, FailsOnly Error.Rejection (AnyClaim.parse input)) ∧
    (∀ kind input, FailsOnly Error.Rejection (Claims.parse kind input)) ∧
    (∀ kind (builder : ClaimsBuilder kind) (input : String),
      FailsOnly Error.Rejection (builder.parse input)) ∧
    (∀ (checker : Checker) (kind : Kind) (claims : List (Claim kind)),
      FailsOnly Error.Rejection (checker.validate claims)) ∧
    (∀ (checker : Checker) (authorization : ClaimInput .authorization)
      (assertion : ClaimInput .assertion),
      FailsOnly Error.Rejection (checker.test authorization assertion) ∧
        FailsOnly Error.Rejection (checker.can authorization assertion)) ∧
    (∀ (checker : Checker) (authorization : Authorization) (assertion : Assertion),
      FailsOnly Error.Rejection (checker.authorize authorization assertion)) ∧
    (∀ (checker : Checker) (cache : Cache) (call : Call),
      FailsOnly Error.Rejection (call.run checker cache).1) ∧
    (∀ schema : Schema, FailsOnly Error.ModelFault schema.build) ∧
    ∀ document : Document, FailsOnly Error.ModelFault document.build := by
  have rejected : ∀ fault : Error, fault.Malformed → fault.Rejection :=
    fun _ => Error.Malformed.rejection
  refine ⟨?_, ?_, ?_, Claims.parse_fails, ?_, fun checker _ => checker.validate_fails, ?_, ?_,
    Call.run_fails, Schema.build_fails, fun document => document.toSchema.build_fails⟩
  · intro input
    exact (Token.parse_chars_fails _).mono rejected
  · intro kind input
    exact (Claim.parse_chars_fails kind _).mono rejected
  · intro input
    exact (AnyClaim.parse_fails input).mono rejected
  · intro kind builder input
    exact .bind (Claims.parse_fails kind input) fun _ => .ok _
  · intro checker authorization assertion
    have tested := checker.test_fails authorization assertion
    exact ⟨tested, .bind tested fun _ => .ok _⟩
  · intro checker authorization assertion
    exact checker.test_fails _ _

/-- A declared name has a mark that only a claim may have. -/
def markedNameSchema : Schema where
  declarations := [.atom ⟨"admin!", [], []⟩]

def markedIncludeSchema : Schema where
  declarations := [.atom ⟨"admin", [], ["editor!"]⟩]

/-- A stored collection that no model has validated yet. -/
def guestStore : Cache where
  entries :=
    [("authorization/guest", ⟨⟨.authorization, [⟨.atom "guest", none⟩]⟩, false⟩)]

/-- One broken name is the caller's fault in a claim and the model's in a declaration or an include;
an unknown token from the store is the caller's. -/
theorem marked_name_blamed :
    (Claims.parse .grants "admin!>editor" =
        .error (.malformedClaim "admin!" (.name .reserved)) ∧
      (Error.malformedClaim "admin!" (.name .reserved)).Rejection) ∧
    (markedNameSchema.build = .error (.invalidName "admin!" .reserved) ∧
      (Error.invalidName "admin!" .reserved).ModelFault) ∧
    (markedIncludeSchema.build = .error (.unknownInclude "admin" "editor!") ∧
      (Error.unknownInclude "admin" "editor!").ModelFault) ∧
    ((Call.run ⟨some roleModel⟩ guestStore (.can (.raw "guest") (.raw "admin"))).1 =
        .error (.unknownClaim "guest") ∧
      (Error.unknownClaim "guest").Rejection) := by
  obtain ⟨_, _, _, reads, _, _, _, _, runs, builds, _⟩ := errors_tell_whose_fault
  have unread : Claims.parse .grants "admin!>editor" =
      .error (.malformedClaim "admin!" (.name .reserved)) := by
    decide +kernel
  have misnamed : markedNameSchema.build = .error (.invalidName "admin!" .reserved) := by
    decide +kernel
  have missing : markedIncludeSchema.build = .error (.unknownInclude "admin" "editor!") := by
    decide +kernel
  have unknown : (Call.run ⟨some roleModel⟩ guestStore (.can (.raw "guest") (.raw "admin"))).1 =
      .error (.unknownClaim "guest") := rfl
  exact ⟨⟨unread, reads _ _ _ unread⟩, ⟨misnamed, builds _ _ misnamed⟩,
    ⟨missing, builds _ _ missing⟩, ⟨unknown, runs _ _ _ _ unknown⟩⟩

end ClaimPolicy
