import ClaimPolicy.Document.Reading
import ClaimPolicy.Yaml.Node

/-!
YAML text to a document. An alias reads as the node that it stands for. How many aliases are
followed is limited by the size of the text, so a short text cannot stand for an enormous document.
-/
namespace ClaimPolicy.Yaml.Node

def resolve (anchored : List (Nat × Node)) : Node → Option Node
  | .alias anchor => anchored.lookup anchor
  | node => some node

/-- Only a plain text, or a block text that is tagged as a boolean, is one. -/
def asBoolean? : Node → Option Bool
  | .scalar style tag text =>
      if style = .plain ∨ (style = .literal ∧ tag = some "tag:yaml.org,2002:bool") then
        if ["true", "True", "TRUE"].contains text then some true
        else if ["false", "False", "FALSE"].contains text then some false
        else none
      else none
  | _ => none

def asText? : Node → Option String
  | .scalar _ _ text => some text
  | _ => none

def asItems? : Node → Option (List Node)
  | .sequence items => some items
  | .scalar .plain _ "" => some []
  | _ => none

def keyText? (anchored : List (Nat × Node)) (key : Node) : Option String := do
  (← key.resolve anchored).asText?

/-- The fields of a mapping, all of whose keys are scalars. An absent node has no fields. -/
def asFields? (anchored : List (Nat × Node)) : Node → Option (List (String × Node))
  | .mapping pairs => pairs.mapM fun pair => do return (← pair.1.keyText? anchored, pair.2)
  | .scalar .plain _ "" => some []
  | _ => none

def reading (anchored : List (Nat × Node)) : Reading Node where
  boolean node := (node.resolve anchored).bind asBoolean?
  text node := (node.resolve anchored).bind asText?
  items node := (node.resolve anchored).bind asItems?
  fields _ node := (node.resolve anchored).bind (asFields? anchored)

mutual

def size : Node → Nat
  | .scalar _ _ _ => 1
  | .alias _ => 1
  | .sequence items => sizeOfItems items + 2
  | .mapping pairs => sizeOfPairs pairs + 2

def sizeOfItems : List Node → Nat
  | [] => 0
  | item :: rest => size item + sizeOfItems rest

def sizeOfPairs : List (Node × Node) → Nat
  | [] => 0
  | (key, value) :: rest => size key + size value + sizeOfPairs rest

end

/-- What is left of a number of aliases after a node was taken, if it was large enough. -/
def spend (node : Node) (allowed : Nat) : Option Nat :=
  match node with
  | .alias _ => if allowed = 0 then none else some (allowed - 1)
  | _ => some allowed

def spendItems (anchored : List (Nat × Node)) (each : Node → Nat → Option Nat) (node : Node)
    (allowed : Nat) : Option Nat := do
  let allowed ← node.spend allowed
  match (node.resolve anchored).bind asItems? with
  | some items => items.foldlM (fun allowed item => each item allowed) allowed
  | none => return allowed

def spendFields (anchored : List (Nat × Node)) (each : String → Node → Nat → Option Nat)
    (node : Node) (allowed : Nat) : Option Nat := do
  let allowed ← node.spend allowed
  match node.resolve anchored with
  | some (.mapping pairs) =>
      pairs.foldlM (fun allowed pair => do
        let allowed ← pair.1.spend allowed
        match pair.1.keyText? anchored with
        | some name => each name pair.2 allowed
        | none => return allowed) allowed
  | _ => return allowed

def spendToken (anchored : List (Nat × Node)) : Node → Nat → Option Nat :=
  spendFields anchored fun name value =>
    match name with
    | "name" => value.spend
    | "aliases" | "includes" => spendItems anchored spend value
    | _ => some

def spendComposite (anchored : List (Nat × Node)) : Node → Nat → Option Nat :=
  spendFields anchored fun name value =>
    match name with
    | "name" => value.spend
    | "aliases" => spendItems anchored spend value
    | "tokens" => spendItems anchored (spendToken anchored) value
    | _ => some

def spendDocument (anchored : List (Nat × Node)) : Node → Nat → Option Nat :=
  spendFields anchored fun name value =>
    match name with
    | "case_sensitive" => value.spend
    | "tokens" => spendItems anchored (spendToken anchored) value
    | "composites" => spendItems anchored (spendComposite anchored) value
    | _ => some

def aliasesPerUnit : Nat := 100

end ClaimPolicy.Yaml.Node

namespace ClaimPolicy.Yaml

/-- The document of a text. A text without any node is the empty document. -/
def document? (text : String) : Option Document := do
  let tree ← Tree.ofLexemes? (← Lexeme.scan text)
  match tree.root with
  | none => return {}
  | some root =>
      let _ ← root.spendDocument tree.anchored (Node.aliasesPerUnit * root.size)
      (Node.reading tree.anchored).document root

end ClaimPolicy.Yaml
