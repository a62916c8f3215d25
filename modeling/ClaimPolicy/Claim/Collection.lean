import ClaimPolicy.Claim.Reader

/-!
Ordered collections of claims of one kind, and their text: the claims with one space between them.
Only reading is bounded; a collection that is put together from claims may have any size.
-/
namespace ClaimPolicy.Claims

/-- The claims of the pieces in order. `taken` counts the claims read so far and `pieces` is how
many there are in all, which is what the report of too many claims gives. -/
def parsePieces (kind : Kind) (input : String) (pieces : Nat) :
    Nat → List (List Char) → Except Error (List (Claim kind))
  | _, [] => .ok []
  | taken, piece :: rest =>
      if piece.isEmpty then .error (.malformedClaim input .emptyClaim)
      else if maxClaimsPerString ≤ taken then .error (.tooManyClaims pieces)
      else do
        let claim ← Claim.parseChars kind piece
        return claim :: (← parsePieces kind input pieces (taken + 1) rest)

def parse (kind : Kind) (input : String) : Except Error (List (Claim kind)) :=
  if maxClaimStringBytes < input.utf8ByteSize then .error (.claimStringTooLong input.utf8ByteSize)
  else if input.isEmpty then .ok []
  else
    let pieces := input.toList.splitOn ' '
    parsePieces kind input pieces.length 0 pieces

def text {kind : Kind} (claims : List (Claim kind)) : String :=
  " ".intercalate (claims.map Claim.text)

def hasNegations {kind : Kind} (claims : List (Claim kind)) : Bool :=
  claims.any Claim.negated

/-- All claims of both sides, the left ones first; nothing is dropped. -/
def merge (left right : Authorization) : Authorization := left ++ right

end ClaimPolicy.Claims

namespace ClaimPolicy

structure ClaimsBuilder (kind : Kind) where
  gathered : List (Claim kind) := []

namespace ClaimsBuilder

variable {kind : Kind}

def claim (builder : ClaimsBuilder kind) (one : Claim kind) : ClaimsBuilder kind :=
  ⟨builder.gathered ++ [one]⟩

def claims (builder : ClaimsBuilder kind) (several : List (Claim kind)) : ClaimsBuilder kind :=
  ⟨builder.gathered ++ several⟩

def parse (builder : ClaimsBuilder kind) (input : String) : Except Error (ClaimsBuilder kind) := do
  return builder.claims (← Claims.parse kind input)

def append (builder other : ClaimsBuilder kind) : ClaimsBuilder kind :=
  builder.claims other.gathered

def build (builder : ClaimsBuilder kind) : List (Claim kind) :=
  builder.gathered

end ClaimsBuilder

end ClaimPolicy
