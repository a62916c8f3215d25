import ClaimPolicy.Error

/-!
Tokens: an atom is one name, a composite is a parent and a child. The wildcard has a meaning on the
required side only: a required part that is the wildcard is met by any name at its place.
-/
namespace ClaimPolicy

inductive Token where
  | atom (name : String)
  | composite (parent child : String)
  deriving DecidableEq, Repr, Inhabited

namespace Token

def text : Token → String
  | .atom name => name
  | .composite parent child => parent ++ ":" ++ child

def parts : Token → List String
  | .atom name => [name]
  | .composite parent child => [parent, child]

def head : Token → String
  | .atom name => name
  | .composite parent _ => parent

def isAtom : Token → Bool
  | .atom _ => true
  | .composite _ _ => false

def isWildcard (token : Token) : Bool :=
  token.parts.contains Name.wildcard

def nameMeets (mode : CaseMode) (source target : String) : Bool :=
  target == Name.wildcard || mode.sameName source target

/-- Whether holding `source` meets `target` directly, part by part. -/
def meets (mode : CaseMode) (source target : Token) : Bool :=
  match source, target with
  | .atom held, .atom wanted => nameMeets mode held wanted
  | .composite heldParent heldChild, .composite wantedParent wantedChild =>
      nameMeets mode heldParent wantedParent && nameMeets mode heldChild wantedChild
  | _, _ => false

/-- Equality up to the case mode, with no special reading of the wildcard. -/
def equals (mode : CaseMode) (left right : Token) : Bool :=
  match left, right with
  | .atom a, .atom b => mode.sameName a b
  | .composite a b, .composite c d => mode.sameName a c && mode.sameName b d
  | _, _ => false

/-- Atoms come before composites; names go by code points, parents before children. -/
def compare (left right : Token) : Ordering :=
  match left, right with
  | .atom a, .atom b => Ord.compare a b
  | .atom _, .composite _ _ => .lt
  | .composite _ _, .atom _ => .gt
  | .composite a b, .composite c d => (Ord.compare a c).then (Ord.compare b d)

def parsePart (whole part : List Char) : Except Error String :=
  let name := String.ofList part
  match Name.fault? name with
  | none => .ok name
  | some fault => .error (.malformedClaim (String.ofList whole) (.name fault))

def parseChars (input : List Char) : Except Error Token :=
  if input.isEmpty then .error (.malformedClaim (String.ofList input) .emptyToken)
  else
    match input.splitOn ':' with
    | [name] => do return .atom (← parsePart input name)
    | [parent, child] => do
        let parent ← parsePart input parent
        let child ← parsePart input child
        return .composite parent child
    | _ => .error (.malformedClaim (String.ofList input) .tooManyParts)

def parse (input : String) : Except Error Token :=
  parseChars input.toList

end Token

end ClaimPolicy
