import ClaimPolicy.Claim
import ClaimPolicy.Text.Split

/-!
The grammar of claims. A permission is `token` or `token@scope`, a requirement may start with one
`!`, and a delegation is `subject>permission`. A string of claims has single spaces between them and
nothing else: an empty piece is refused, and so is any other white space, which no name may contain.
-/
namespace ClaimPolicy

namespace Permission

/-- The first `@` starts the scope; a missing scope is noticed before the token is read. -/
def parseChars (input : List Char) : Except Error Permission :=
  match Text.splitFirst '@' input with
  | some (token, scope) =>
      if scope.isEmpty then .error (.malformedClaim (String.ofList input) .emptyScope)
      else do
        let token ← Token.parseChars token
        let scope ← Token.parseChars scope
        return ⟨token, some scope⟩
  | none => do return ⟨← Token.parseChars input, none⟩

end Permission

namespace Requirement

def parseChars (input : List Char) : Except Error Requirement :=
  match input with
  | '!' :: rest => do return ⟨← Permission.parseChars rest, true⟩
  | _ => do return ⟨← Permission.parseChars input, false⟩

end Requirement

namespace Delegation

def parseChars (input : List Char) : Except Error Delegation :=
  match Text.splitFirst '>' input with
  | some (subject, claim) => do
      let subject ← Token.parseChars subject
      let permission ← Permission.parseChars claim
      return ⟨subject, permission⟩
  | none => .error (.malformedClaim (String.ofList input) .missingSubject)

end Delegation

namespace Claim

def parseChars : (kind : Kind) → List Char → Except Error (Claim kind)
  | .authorization => Permission.parseChars
  | .assertion => Requirement.parseChars
  | .grants => Delegation.parseChars

def parse (kind : Kind) (input : String) : Except Error (Claim kind) :=
  parseChars kind input.toList

end Claim

structure AnyClaim where
  kind : Kind
  claim : Claim kind

namespace AnyClaim

def parse (input : String) : Except Error AnyClaim :=
  if input.toList.contains '>' then do return ⟨.grants, ← Claim.parse .grants input⟩
  else if input.toList.head? == some '!' then do
    return ⟨.assertion, ← Claim.parse .assertion input⟩
  else do return ⟨.authorization, ← Claim.parse .authorization input⟩

def text (any : AnyClaim) : String := any.claim.text

def permission (any : AnyClaim) : Permission := any.claim.permission

def label (any : AnyClaim) : String :=
  match any.kind with
  | .authorization => "authorization"
  | .assertion => "assertion"
  | .grants => "grant"

end AnyClaim

end ClaimPolicy
