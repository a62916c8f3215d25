import ClaimPolicy.Error

/-!
Declarations: what a model is built from. Atoms and composites may come in any order and may include
tokens that are declared later. A document is the stored form, which lists all atoms first.
-/
namespace ClaimPolicy

/-- An atom, or a member of a composite; `includes` are written tokens. -/
structure TokenDeclaration where
  name : String
  aliases : List String := []
  includes : List String := []
  deriving DecidableEq, Repr, Inhabited

structure CompositeDeclaration where
  name : String
  aliases : List String := []
  members : List TokenDeclaration := []
  deriving DecidableEq, Repr, Inhabited

inductive Declaration where
  | atom (declared : TokenDeclaration)
  | composite (declared : CompositeDeclaration)
  deriving DecidableEq, Repr

def Declaration.size : Declaration → Nat
  | .atom _ => 1
  | .composite declared => declared.members.length + 1

structure Schema where
  case : CaseMode := .insensitive
  declarations : List Declaration := []
  deriving DecidableEq, Repr, Inhabited

def Schema.size (schema : Schema) : Nat :=
  schema.declarations.foldr (fun declared total => declared.size + total) 0

structure Document where
  caseSensitive : Bool := false
  tokens : List TokenDeclaration := []
  composites : List CompositeDeclaration := []
  deriving DecidableEq, Repr, Inhabited

def Document.toSchema (document : Document) : Schema where
  case := if document.caseSensitive then .sensitive else .insensitive
  declarations := document.tokens.map .atom ++ document.composites.map .composite

end ClaimPolicy
