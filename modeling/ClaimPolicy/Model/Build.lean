import ClaimPolicy.Model.Acyclic
import ClaimPolicy.Schema

/-!
From declarations to a model. Definitions are laid out in the order of declaration, a composite just
before its members. Then names are checked and registered, includes are resolved, and the includes
must not form a cycle; the first check that fails gives the error.
-/
namespace ClaimPolicy

/-- A definition before its includes are resolved. `parent` is the place and name of the
composite. -/
structure Draft where
  id : Nat
  kind : DefinitionKind
  parent : Option (Nat × String)
  name : String
  aliases : List String
  includes : List String
  children : List Nat

namespace Draft

def level (draft : Draft) : Option Nat := draft.parent.map Prod.fst

def token (draft : Draft) : Token :=
  match draft.kind, draft.parent with
  | .composite, _ => .composite draft.name Name.wildcard
  | .member, some (_, parent) => .composite parent draft.name
  | _, _ => .atom draft.name

def definition (draft : Draft) (includes : List Nat) : Definition where
  id := draft.id
  name := draft.name
  token := draft.token
  kind := draft.kind
  aliases := Name.sorted draft.aliases
  includes := includes
  children := draft.children
  parent := draft.level

def keys (draft : Draft) : List String := draft.name :: draft.aliases

def keyText (draft : Draft) (key : String) : String :=
  match draft.parent with
  | some (_, parent) => parent ++ ":" ++ key
  | none => key

def checkNames : List String → Except Error Unit
  | [] => .ok ()
  | key :: keys =>
      match Name.declarationFault? key with
      | some fault => .error (.invalidName key fault)
      | none => checkNames keys

def takeSlots (mode : CaseMode) (draft : Draft) (taken : List Slot) :
    List String → Except Error (List Slot)
  | [] => .ok taken
  | key :: keys =>
      let slot := (draft.level, mode.fold key)
      if taken.contains slot then .error (.duplicateName (draft.keyText key))
      else takeSlots mode draft (slot :: taken) keys

end Draft

def TokenDeclaration.draft (declared : TokenDeclaration) (kind : DefinitionKind)
    (parent : Option (Nat × String)) (id : Nat) : Draft where
  id := id
  kind := kind
  parent := parent
  name := declared.name
  aliases := declared.aliases
  includes := declared.includes
  children := []

/-- Members take the places after their composite, in order. -/
def CompositeDeclaration.memberDrafts (id : Nat) (name : String) :
    Nat → List TokenDeclaration → List Draft
  | _, [] => []
  | next, member :: members =>
      member.draft .member (some (id, name)) next :: memberDrafts id name (next + 1) members

def Declaration.drafts (next : Nat) : Declaration → List Draft
  | .atom declared => [declared.draft .atom none next]
  | .composite declared =>
      { id := next, kind := .composite, parent := none, name := declared.name
        aliases := declared.aliases, includes := []
        children := List.range' (next + 1) declared.members.length } ::
        CompositeDeclaration.memberDrafts next declared.name (next + 1) declared.members

def Schema.layOut : Nat → List Declaration → List Draft
  | _, [] => []
  | next, declared :: rest => declared.drafts next ++ layOut (next + declared.size) rest

def Schema.drafts (schema : Schema) : List Draft :=
  layOut 0 schema.declarations

namespace Model

def register (mode : CaseMode) (taken : List Slot) : List Draft → Except Error (List Slot)
  | [] => .ok taken
  | draft :: drafts => do
      Draft.checkNames draft.keys
      let taken ← draft.takeSlots mode taken draft.keys
      register mode taken drafts

def slotsOf (mode : CaseMode) (definition : Definition) : List (Slot × Nat) :=
  (definition.name :: definition.aliases).map fun key =>
    ((definition.parent, mode.fold key), definition.id)

def ofDefinitions (mode : CaseMode) (definitions : List Definition) : Model where
  case := mode
  definitions := definitions.toArray
  roots := (definitions.filter fun definition => definition.parent.isNone).map Definition.id
  index := definitions.flatMap (slotsOf mode)

/-- Resolves written includes to concrete definitions, each once, in order. -/
def resolveIncludes (model : Model) (owner : String) : List String → Except Error (List Nat)
  | [] => .ok []
  | included :: rest =>
      match (Token.parse included).toOption.bind (model.findId · .strict) with
      | none => .error (.unknownInclude owner included)
      | some target => do
          let targets ← resolveIncludes model owner rest
          return target :: targets.filter (· != target)

def resolveDrafts (model : Model) : List Draft → Except Error (List Definition)
  | [] => .ok []
  | draft :: drafts => do
      let includes ← model.resolveIncludes draft.token.text draft.includes
      return draft.definition includes :: (← resolveDrafts model drafts)

end Model

namespace Schema

def build (schema : Schema) : Except Error Model := do
  if maxModelTokens < schema.size then throw (.tooManyTokens schema.size)
  let _ ← Model.register schema.case [] schema.drafts
  let unresolved := Model.ofDefinitions schema.case (schema.drafts.map (·.definition []))
  let definitions ← unresolved.resolveDrafts schema.drafts
  let model := Model.ofDefinitions schema.case definitions
  model.checkAcyclic
  return model

end Schema

def Document.build (document : Document) : Except Error Model :=
  document.toSchema.build

end ClaimPolicy
