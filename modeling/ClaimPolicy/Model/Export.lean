import ClaimPolicy.Model.Build

/-!
The document of a model, and the includes of a definition that say nothing new. A document lists
atoms before composites, aliases in code point order and includes by their canonical tokens, so
reading it back gives the same permissions, though perhaps other places.
-/
namespace ClaimPolicy.Model

def includeTokens (model : Model) (definition : Definition) : List Token :=
  (definition.includes.filterMap model.get?).map Definition.token

def declarationOf (model : Model) (definition : Definition) : TokenDeclaration where
  name := definition.name
  aliases := definition.aliases
  includes := (model.includeTokens definition).map Token.text

def compositeOf (model : Model) (definition : Definition) : CompositeDeclaration where
  name := definition.name
  aliases := definition.aliases
  members := (definition.children.filterMap model.get?).map model.declarationOf

def toDocument (model : Model) : Document where
  caseSensitive := model.case == .sensitive
  tokens := model.atoms.map model.declarationOf
  composites := model.composites.map model.compositeOf

/-- Includes of a definition that another of its includes already brings along. -/
def redundantIncludes (model : Model) (definition : Definition) : List Definition :=
  let targets := definition.includes.filterMap model.get?
  targets.filter fun target =>
    targets.any fun other => other.id != target.id && model.tokenMatch other.token target.token

end ClaimPolicy.Model
