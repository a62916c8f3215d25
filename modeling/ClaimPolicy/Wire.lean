import ClaimPolicy.Claim.Collection
import ClaimPolicy.Document.Reading
import ClaimPolicy.Model.Export

/-!
The exchange form: values without a syntax of their own. Tokens and collections are texts; single
claims and documents are structures, for which a list of the field values in order may stand. Fields
are taken in the order in which they are given, so the first bad one gives the error.
-/
namespace ClaimPolicy

inductive Wire where
  | null
  | boolean (value : Bool)
  | number
  | text (value : String)
  | list (items : List Wire)
  | record (fields : List (String × Wire))
  deriving Inhabited

/-- A value of the wrong shape, or one that stands for something illegal. -/
inductive WireError where
  | mismatch
  | refused (error : Error)
  deriving DecidableEq, Repr

namespace Wire

def refuse {Result : Type} : Except Error Result → Except WireError Result
  | .ok result => .ok result
  | .error error => .error (.refused error)

def asBoolean? : Wire → Option Bool
  | .boolean value => some value
  | _ => none

def asText? : Wire → Option String
  | .text value => some value
  | _ => none

def asItems? : Wire → Option (List Wire)
  | .list items => some items
  | _ => none

def asFields? (names : List String) : Wire → Option (List (String × Wire))
  | .record fields => some fields
  | .list items => if names.length < items.length then none else some (names.zip items)
  | _ => none

def reading : Reading Wire := ⟨asBoolean?, asText?, asItems?, asFields?⟩

/-- Takes the fields of a structure one by one. In a list the surplus is noticed after them. -/
def takeFields {State : Type} (names : List String)
    (take : State → String → Wire → Except WireError State) (start : State) :
    Wire → Except WireError State
  | .record fields => fields.foldlM (fun state field => take state field.1 field.2) start
  | .list items => do
      let state ← (names.zip items).foldlM (fun state field => take state field.1 field.2) start
      if names.length < items.length then throw .mismatch else return state
  | _ => .error .mismatch

def required {Result : Type} : Option Result → Except WireError Result
  | some result => .ok result
  | none => .error .mismatch

def toToken : Wire → Except WireError Token
  | .text value => refuse (Token.parse value)
  | _ => .error .mismatch

def toClaims (kind : Kind) : Wire → Except WireError (List (Claim kind))
  | .text value => refuse (Claims.parse kind value)
  | _ => .error .mismatch

def toCaseMode : Wire → Except WireError CaseMode
  | .text "Insensitive" | .record [("Insensitive", .null)] => .ok .insensitive
  | .text "Sensitive" | .record [("Sensitive", .null)] => .ok .sensitive
  | _ => .error .mismatch

def toPermission (value : Wire) : Except WireError Permission := do
  let (token, scope) ← takeFields ["token", "scope"]
    (fun (state : Option Token × Option Token) name value =>
      match name, value with
      | "token", value => do return (some (← toToken value), state.2)
      | "scope", .null => .ok (state.1, none)
      | "scope", value => do return (state.1, some (← toToken value))
      | _, _ => .ok state) (none, none) value
  return ⟨← required token, scope⟩

def toRequirement (value : Wire) : Except WireError Requirement := do
  let (permission, negated) ← takeFields ["claim", "negative"]
    (fun (state : Option Permission × Bool) name value =>
      match name with
      | "claim" => do return (some (← toPermission value), state.2)
      | "negative" => do return (state.1, ← required value.asBoolean?)
      | _ => .ok state) (none, false) value
  return ⟨← required permission, negated⟩

def toDelegation (value : Wire) : Except WireError Delegation := do
  let (subject, permission) ← takeFields ["subject", "claim"]
    (fun (state : Option Token × Option Permission) name value =>
      match name with
      | "subject" => do return (some (← toToken value), state.2)
      | "claim" => do return (state.1, some (← toPermission value))
      | _ => .ok state) (none, none) value
  return ⟨← required subject, ← required permission⟩

def toClaim : (kind : Kind) → Wire → Except WireError (Claim kind)
  | .authorization => toPermission
  | .assertion => toRequirement
  | .grants => toDelegation

def toDocument (value : Wire) : Except WireError Document :=
  required (reading.document value)

def toModel (value : Wire) : Except WireError Model := do
  refuse (← toDocument value).build

def ofToken (token : Token) : Wire := .text token.text

def ofClaims {kind : Kind} (claims : List (Claim kind)) : Wire := .text (Claims.text claims)

def ofCaseMode : CaseMode → Wire
  | .insensitive => .text "Insensitive"
  | .sensitive => .text "Sensitive"

def ofPermission (claim : Permission) : Wire :=
  .record (("token", ofToken claim.token) ::
    claim.scope.toList.map fun scope => ("scope", ofToken scope))

def ofClaim : (kind : Kind) → Claim kind → Wire
  | .authorization, claim => ofPermission claim
  | .assertion, claim =>
      .record [("claim", ofPermission (Requirement.permission claim)),
        ("negative", .boolean (Requirement.negated claim))]
  | .grants, claim =>
      .record [("subject", ofToken (Delegation.subject claim)),
        ("claim", ofPermission (Delegation.permission claim))]

def listField (name : String) (items : List Wire) : List (String × Wire) :=
  if items.isEmpty then [] else [(name, .list items)]

def ofTokenDeclaration (declared : TokenDeclaration) : Wire :=
  .record (("name", .text declared.name) ::
    (listField "aliases" (declared.aliases.map .text) ++
      listField "includes" (declared.includes.map .text)))

def ofCompositeDeclaration (declared : CompositeDeclaration) : Wire :=
  .record (("name", .text declared.name) ::
    (listField "aliases" (declared.aliases.map .text) ++
      listField "tokens" (declared.members.map ofTokenDeclaration)))

def ofDocument (document : Document) : Wire :=
  .record (("case_sensitive", .boolean document.caseSensitive) ::
    (listField "tokens" (document.tokens.map ofTokenDeclaration) ++
      listField "composites" (document.composites.map ofCompositeDeclaration)))

def ofModel (model : Model) : Wire := ofDocument model.toDocument

end Wire

end ClaimPolicy
