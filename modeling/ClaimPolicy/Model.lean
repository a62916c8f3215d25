import ClaimPolicy.Token

/-!
Models: the definitions of all legal tokens. A definition is known by its place in the model. Names
and aliases are looked up in an index of slots, a slot being a level (the root, or the composite a
member belongs to) and a folded name.
-/
namespace ClaimPolicy

inductive DefinitionKind where
  | atom
  | composite
  | member
  deriving DecidableEq, Repr, Inhabited

structure Definition where
  id : Nat
  name : String
  /-- The canonical token; a composite stands for all its members as `parent:*`. -/
  token : Token
  kind : DefinitionKind
  aliases : List String
  includes : List Nat
  children : List Nat
  parent : Option Nat
  deriving DecidableEq, Repr, Inhabited

abbrev Slot := Option Nat × String

structure Model where
  case : CaseMode
  definitions : Array Definition
  roots : List Nat
  index : List (Slot × Nat)
  deriving DecidableEq, Repr, Inhabited

/-- Whether `parent:*` finds the composite or only concrete tokens are found. -/
inductive LookupMode where
  | claim
  | strict
  deriving DecidableEq, Repr, Inhabited

namespace Model

def get? (model : Model) (id : Nat) : Option Definition :=
  model.definitions[id]?

def size (model : Model) : Nat := model.definitions.size

def rootsOf (model : Model) (kind : DefinitionKind) : List Definition :=
  (model.roots.filterMap model.get?).filter fun definition => definition.kind == kind

def atoms (model : Model) : List Definition := model.rootsOf .atom

def composites (model : Model) : List Definition := model.rootsOf .composite

def hasAtoms (model : Model) : Bool := !model.atoms.isEmpty

def lookup (model : Model) (level : Option Nat) (name : String) : Option Nat :=
  model.index.lookup (level, model.case.fold name)

def lookupRoot (model : Model) (name : String) (kind : DefinitionKind) : Option Nat :=
  (model.lookup none name).filter fun id =>
    (model.get? id).any fun definition => definition.kind == kind

def findId (model : Model) (token : Token) (mode : LookupMode) : Option Nat :=
  match token with
  | .atom name => model.lookupRoot name .atom
  | .composite parent child => do
      let composite ← model.lookupRoot parent .composite
      if child == Name.wildcard then
        match mode with
        | .claim => some composite
        | .strict => none
      else model.lookup (some composite) child

def find (model : Model) (token : Token) (mode : LookupMode) : Option Definition :=
  (model.findId token mode).bind model.get?

def canonical (model : Model) (token : Token) : Option Token :=
  (model.find token .claim).map Definition.token

def canonicalOrSelf (model : Model) (token : Token) : Token :=
  (model.canonical token).getD token

def includesOf (model : Model) (id : Nat) : List Nat :=
  match model.get? id with
  | some definition => definition.includes
  | none => []

/-- Whether a token is declared, or is the wildcard atom in a model that has an atom. -/
def knows (model : Model) (token : Token) : Bool :=
  (model.findId token .claim).isSome || (token.isAtom && token.isWildcard && model.hasAtoms)

end Model

end ClaimPolicy
