import ClaimPolicy.Schema

/-!
Documents out of structured data. Each stored format has values of its own; a reading says which of
them count as a boolean, a text, a list or a structure, and the document is taken from there.
Unknown fields are passed over, and a field that is given twice, has the wrong shape, or is missing
though it has no default makes the whole document unreadable.
-/
namespace ClaimPolicy

structure Reading (Value : Type) where
  boolean : Value → Option Bool
  text : Value → Option String
  items : Value → Option (List Value)
  /-- The fields of a structure; the names are the fields that it may have, in order. -/
  fields : List String → Value → Option (List (String × Value))

namespace Reading

variable {Value : Type}

def field {Result : Type} (fields : List (String × Value)) (name : String)
    (read : Value → Option Result) (default : Option Result) : Option Result :=
  match fields.filter fun entry => entry.1 == name with
  | [] => default
  | [entry] => read entry.2
  | _ => none

def listOf {Result : Type} (reading : Reading Value) (read : Value → Option Result)
    (value : Value) : Option (List Result) := do
  (← reading.items value).mapM read

def tokenDeclaration (reading : Reading Value) (value : Value) : Option TokenDeclaration := do
  let fields ← reading.fields ["name", "aliases", "includes"] value
  let name ← field fields "name" reading.text none
  let aliases ← field fields "aliases" (reading.listOf reading.text) (some [])
  let includes ← field fields "includes" (reading.listOf reading.text) (some [])
  return ⟨name, aliases, includes⟩

def compositeDeclaration (reading : Reading Value) (value : Value) :
    Option CompositeDeclaration := do
  let fields ← reading.fields ["name", "aliases", "tokens"] value
  let name ← field fields "name" reading.text none
  let aliases ← field fields "aliases" (reading.listOf reading.text) (some [])
  let members ← field fields "tokens" (reading.listOf reading.tokenDeclaration) (some [])
  return ⟨name, aliases, members⟩

def document (reading : Reading Value) (value : Value) : Option Document := do
  let fields ← reading.fields ["case_sensitive", "tokens", "composites"] value
  let caseSensitive ← field fields "case_sensitive" reading.boolean (some false)
  let tokens ← field fields "tokens" (reading.listOf reading.tokenDeclaration) (some [])
  let composites ← field fields "composites" (reading.listOf reading.compositeDeclaration)
    (some [])
  return ⟨caseSensitive, tokens, composites⟩

end Reading

end ClaimPolicy
