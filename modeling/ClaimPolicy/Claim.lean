import ClaimPolicy.Token

/-!
Claims. A permission is a token with an optional scope; a requirement is a permission that must be
held or, when negated, must not be held; a delegation gives a permission to a subject. The three
kinds share one view: a permission, perhaps a subject, and a sign.
-/
namespace ClaimPolicy

structure Permission where
  token : Token
  scope : Option Token := none
  deriving DecidableEq, Repr, Inhabited

structure Requirement where
  permission : Permission
  negated : Bool := false
  deriving DecidableEq, Repr, Inhabited

structure Delegation where
  subject : Token
  permission : Permission
  deriving DecidableEq, Repr, Inhabited

inductive Kind where
  | authorization
  | assertion
  | grants
  deriving DecidableEq, Repr, Inhabited

def Kind.label : Kind → String
  | .authorization => "authorization"
  | .assertion => "assertion"
  | .grants => "grants"

abbrev Claim : Kind → Type
  | .authorization => Permission
  | .assertion => Requirement
  | .grants => Delegation

abbrev Authorization := List (Claim .authorization)
abbrev Assertion := List (Claim .assertion)
abbrev Grants := List (Claim .grants)

namespace Permission

def text (claim : Permission) : String :=
  match claim.scope with
  | some scope => claim.token.text ++ "@" ++ scope.text
  | none => claim.token.text

def tokens (claim : Permission) : List Token :=
  claim.token :: claim.scope.toList

def traverse {m : Type → Type} [Monad m] (visit : Token → m Token) (claim : Permission) :
    m Permission := do
  let token ← visit claim.token
  match claim.scope with
  | some scope => return ⟨token, some (← visit scope)⟩
  | none => return ⟨token, none⟩

def map (rename : Token → Token) (claim : Permission) : Permission :=
  ⟨rename claim.token, claim.scope.map rename⟩

theorem tokens_map (rename : Token → Token) (claim : Permission) :
    (claim.map rename).tokens = claim.tokens.map rename := by
  obtain ⟨token, scope⟩ := claim
  cases scope <;> rfl

end Permission

instance instDecidableEqClaim : (kind : Kind) → DecidableEq (Claim kind)
  | .authorization => inferInstanceAs (DecidableEq Permission)
  | .assertion => inferInstanceAs (DecidableEq Requirement)
  | .grants => inferInstanceAs (DecidableEq Delegation)

namespace Claim

def permission : {kind : Kind} → Claim kind → Permission
  | .authorization, claim => claim
  | .assertion, claim => Requirement.permission claim
  | .grants, claim => Delegation.permission claim

def subject : {kind : Kind} → Claim kind → Option Token
  | .authorization, _ => none
  | .assertion, _ => none
  | .grants, claim => some (Delegation.subject claim)

def negated : {kind : Kind} → Claim kind → Bool
  | .authorization, _ => false
  | .assertion, claim => Requirement.negated claim
  | .grants, _ => false

/-- Every token of a claim: the subject, the token, the scope. -/
def tokens {kind : Kind} (claim : Claim kind) : List Token :=
  (subject claim).toList ++ (permission claim).tokens

def text : {kind : Kind} → Claim kind → String
  | .authorization, claim => Permission.text claim
  | .assertion, claim =>
      if Requirement.negated claim then "!" ++ (Requirement.permission claim).text
      else (Requirement.permission claim).text
  | .grants, claim =>
      (Delegation.subject claim).text ++ ">" ++ (Delegation.permission claim).text

/-- Visits every token in the order of `tokens` and rebuilds the claim from the results. -/
def traverse {m : Type → Type} [Monad m] (visit : Token → m Token) :
    {kind : Kind} → Claim kind → m (Claim kind)
  | .authorization, claim => Permission.traverse visit claim
  | .assertion, claim => do
      return Requirement.mk (← (Requirement.permission claim).traverse visit)
        (Requirement.negated claim)
  | .grants, claim => do
      let subject ← visit (Delegation.subject claim)
      return Delegation.mk subject (← (Delegation.permission claim).traverse visit)

def map (rename : Token → Token) : {kind : Kind} → Claim kind → Claim kind
  | .authorization, claim => Permission.map rename claim
  | .assertion, claim =>
      Requirement.mk ((Requirement.permission claim).map rename) (Requirement.negated claim)
  | .grants, claim =>
      Delegation.mk (rename (Delegation.subject claim)) ((Delegation.permission claim).map rename)

theorem permission_map (rename : Token → Token) {kind : Kind} (claim : Claim kind) :
    permission (map rename claim) = (permission claim).map rename := by
  cases kind <;> rfl

theorem subject_map (rename : Token → Token) {kind : Kind} (claim : Claim kind) :
    subject (map rename claim) = (subject claim).map rename := by
  cases kind <;> rfl

theorem tokens_map (rename : Token → Token) {kind : Kind} (claim : Claim kind) :
    tokens (map rename claim) = (tokens claim).map rename := by
  rw [tokens, tokens, subject_map, permission_map, Permission.tokens_map, List.map_append]
  cases subject claim <;> rfl

theorem negated_map (rename : Token → Token) {kind : Kind} (claim : Claim kind) :
    negated (map rename claim) = negated claim := by
  cases kind <;> rfl

end Claim

end ClaimPolicy
