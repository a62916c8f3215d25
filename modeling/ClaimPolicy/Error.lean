import ClaimPolicy.Name

/-!
What can go wrong. Claims that cannot be read or that a model does not know are faults of the
caller; a set of declarations that does not form a model is a fault of the model.
-/
namespace ClaimPolicy

def maxClaimStringBytes : Nat := 4096

def maxClaimsPerString : Nat := 128

def maxModelTokens : Nat := 1024

inductive SyntaxFault where
  | emptyToken
  | tooManyParts
  | name (fault : NameFault)
  | emptyScope
  | missingSubject
  | emptyClaim
  deriving DecidableEq, Repr

def SyntaxFault.message : SyntaxFault → String
  | .emptyToken => "empty token"
  | .tooManyParts => "token has more than two parts"
  | .name fault => fault.message
  | .emptyScope => "empty scope"
  | .missingSubject => "grant claim requires 'subject>claim'"
  | .emptyClaim => "empty claim"

inductive Error where
  | malformedClaim (claim : String) (fault : SyntaxFault)
  | unknownClaim (claim : String)
  | claimStringTooLong (length : Nat)
  | tooManyClaims (attempted : Nat)
  | tooManyTokens (attempted : Nat)
  | invalidName (name : String) (fault : NameFault)
  | duplicateName (name : String)
  | unknownInclude (owner included : String)
  | includeCycle (token : String)
  deriving DecidableEq, Repr

def Error.message : Error → String
  | .malformedClaim claim fault => "Malformed claim '" ++ claim ++ "': " ++ fault.message
  | .unknownClaim claim => "Invalid claim: " ++ claim
  | .claimStringTooLong length =>
      "Claim string exceeds maximum " ++ toString maxClaimStringBytes ++ " bytes (length: "
        ++ toString length ++ ")"
  | .tooManyClaims attempted =>
      "Claim string exceeds maximum " ++ toString maxClaimsPerString ++ " claims (attempted: "
        ++ toString attempted ++ ")"
  | .tooManyTokens attempted =>
      "Permissions model exceeds maximum " ++ toString maxModelTokens ++ " tokens (attempted: "
        ++ toString attempted ++ ")"
  | .invalidName name fault => "Invalid token name '" ++ name ++ "': " ++ fault.message
  | .duplicateName name => "Duplicate token or alias '" ++ name ++ "'"
  | .unknownInclude owner included =>
      "Token '" ++ owner ++ "' includes unknown token '" ++ included ++ "'"
  | .includeCycle token => "Include cycle detected at token '" ++ token ++ "'"

/-- Whether the caller's claims are at fault rather than the model. -/
def Error.isRejection : Error → Bool
  | .malformedClaim _ _ | .unknownClaim _ | .claimStringTooLong _ | .tooManyClaims _ => true
  | .tooManyTokens _ | .invalidName _ _ | .duplicateName _ | .unknownInclude _ _
  | .includeCycle _ => false

def Name.check (name : String) : Except Error Unit :=
  match Name.fault? name with
  | some fault => .error (.invalidName name fault)
  | none => .ok ()

/-- A sequence of fallible steps succeeds with what its last step gives. -/
theorem bind_eq_ok {First Second : Type} (step : Except Error First)
    (next : First → Except Error Second) (result : Second) :
    (step >>= next) = .ok result ↔ ∃ value, step = .ok value ∧ next value = .ok result := by
  cases step with
  | error fault => simp [bind, Except.bind]
  | ok value => simp [bind, Except.bind]

/-- It fails as the first of its steps that fails. -/
theorem bind_eq_error {First Second : Type} (step : Except Error First)
    (next : First → Except Error Second) (fault : Error) :
    (step >>= next) = .error fault ↔
      step = .error fault ∨ ∃ value, step = .ok value ∧ next value = .error fault := by
  cases step with
  | error fault => simp [bind, Except.bind]
  | ok value => simp [bind, Except.bind]

end ClaimPolicy
