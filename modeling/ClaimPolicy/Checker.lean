import ClaimPolicy.Claim.Collection
import ClaimPolicy.Model.Build

/-!
Decisions. A requirement is held when some permission meets its token and agrees on the scope. An
assertion passes when each requirement is held or not as its sign says; the first one that fails is
reported. Before that, both sides are validated against the model and brought to a reduced form:
canonical tokens, and no claim that another claim makes redundant.
-/
namespace ClaimPolicy

structure Checker where
  model : Option Model := none
  deriving DecidableEq, Repr

inductive Verdict where
  | granted
  | denied (failed : Requirement)
  deriving DecidableEq, Repr

namespace Verdict

def isGranted : Verdict → Bool
  | .granted => true
  | .denied _ => false

def failed? : Verdict → Option Requirement
  | .granted => none
  | .denied failed => some failed

def text : Verdict → String
  | .granted => "granted"
  | .denied failed => "denied: " ++ @Claim.text .assertion failed

end Verdict

inductive ClaimInput (kind : Kind) where
  | raw (text : String)
  | parsed (claims : List (Claim kind))
  deriving DecidableEq

/-- A reduced collection, and whether it differs from the one it came from. -/
structure Reduced (kind : Kind) where
  claims : List (Claim kind)
  changed : Bool
  deriving DecidableEq

namespace Checker

def case (checker : Checker) : CaseMode :=
  match checker.model with
  | some model => model.case
  | none => .insensitive

def knows (checker : Checker) (token : Token) : Bool :=
  match checker.model with
  | some model => model.knows token
  | none => true

/-- The token is met, and so is the scope unless neither side has one. -/
def satisfies (checker : Checker) (held wanted : Permission) : Bool :=
  tokenMatch checker.model held.token wanted.token &&
    match held.scope, wanted.scope with
    | some heldScope, some wantedScope => tokenMatch checker.model heldScope wantedScope
    | none, none => true
    | _, _ => false

def holds (checker : Checker) (authorization : Authorization) (wanted : Permission) : Bool :=
  authorization.any fun held => checker.satisfies held wanted

/-- The rule for one requirement: held exactly when it is not negated. -/
def passes (checker : Checker) (authorization : Authorization) (required : Requirement) : Bool :=
  checker.holds authorization required.permission != required.negated

def evaluate (checker : Checker) (authorization : Authorization) (assertion : Assertion) :
    Verdict :=
  match assertion.find? fun required => !checker.passes authorization required with
  | some failed => .denied failed
  | none => .granted

def canonicalize (checker : Checker) {kind : Kind} (claim : Claim kind) : Claim kind :=
  match checker.model with
  | some model => Claim.map model.canonicalOrSelf claim
  | none => claim

/-- Two subjects agree when they are equal up to case; claims without a subject always agree. -/
def sameSubject (checker : Checker) : Option Token → Option Token → Bool
  | some left, some right => Token.equals checker.case left right
  | _, _ => true

/-- Whether `other` makes `claim` redundant. Forbidding a broader claim already forbids the narrower
one, so for negated claims the direction is reversed. -/
def subsumes (checker : Checker) {kind : Kind} (other claim : Claim kind) : Bool :=
  other.negated == claim.negated &&
    other.permission.scope.isSome == claim.permission.scope.isSome &&
    checker.sameSubject other.subject claim.subject &&
    if claim.negated then checker.satisfies claim.permission other.permission
    else checker.satisfies other.permission claim.permission

/-- Goes through the claims from the last to the first and drops each one that a claim before it or
a claim kept after it makes redundant. The first list is in reverse order. -/
def prune (checker : Checker) {kind : Kind} :
    List (Claim kind) → List (Claim kind) → List (Claim kind)
  | [], kept => kept
  | claim :: earlier, kept =>
      if (earlier ++ kept).any fun other => checker.subsumes other claim then
        prune checker earlier kept
      else prune checker earlier (claim :: kept)

def consolidate (checker : Checker) {kind : Kind} (claims : List (Claim kind)) : Reduced kind :=
  let canonical := claims.map checker.canonicalize
  let kept := checker.prune canonical.reverse []
  ⟨kept, canonical != claims || kept.length != canonical.length⟩

/-- Refuses the first claim that has an unknown token, then consolidates. -/
def validate (checker : Checker) {kind : Kind} (claims : List (Claim kind)) :
    Except Error (Reduced kind) :=
  match claims.find? fun claim => !claim.tokens.all checker.knows with
  | some claim => .error (.unknownClaim claim.text)
  | none => .ok (checker.consolidate claims)

def supports (checker : Checker) (authorization : String) : Bool :=
  match checker.model with
  | none => true
  | some model =>
      match Claims.parse .authorization authorization with
      | .error _ => false
      | .ok claims => claims.all fun claim => (Claim.tokens claim).all model.knows

def resolve (checker : Checker) {kind : Kind} :
    ClaimInput kind → Except Error (List (Claim kind))
  | .raw text => do
      let claims ← Claims.parse kind text
      return (← checker.validate claims).claims
  | .parsed claims => do return (← checker.validate claims).claims

def test (checker : Checker) (authorization : ClaimInput .authorization)
    (assertion : ClaimInput .assertion) : Except Error Verdict := do
  let authorization ← checker.resolve authorization
  let assertion ← checker.resolve assertion
  return checker.evaluate authorization assertion

def can (checker : Checker) (authorization : ClaimInput .authorization)
    (assertion : ClaimInput .assertion) : Except Error Bool := do
  return (← checker.test authorization assertion).isGranted

def authorize (checker : Checker) (authorization : Authorization) (assertion : Assertion) :
    Except Error Verdict :=
  checker.test (.parsed authorization) (.parsed assertion)

end Checker

end ClaimPolicy
