import ClaimPolicy.Schema
import ClaimPolicy.Toml.Quoted

/-!
TOML text of a document: the case mode, then every entry under a repeated header of its own. Lists
stand on one line, and empty lists are left out.
-/
namespace ClaimPolicy.Toml

def listLine (key : String) (items : List String) : String :=
  if items.isEmpty then ""
  else key ++ " = [" ++ ", ".intercalate (items.map quoted) ++ "]\n"

def nameLine (name : String) : String := "name = " ++ quoted name ++ "\n"

def tokenText (header : String) (declared : TokenDeclaration) : String :=
  "\n[[" ++ header ++ "]]\n" ++ nameLine declared.name ++ listLine "aliases" declared.aliases
    ++ listLine "includes" declared.includes

def compositeText (declared : CompositeDeclaration) : String :=
  "\n[[composites]]\n" ++ nameLine declared.name ++ listLine "aliases" declared.aliases
    ++ String.join (declared.members.map (tokenText "composites.tokens"))

def write (document : Document) : String :=
  "case_sensitive = " ++ (if document.caseSensitive then "true" else "false") ++ "\n"
    ++ String.join (document.tokens.map (tokenText "tokens"))
    ++ String.join (document.composites.map compositeText)

end ClaimPolicy.Toml
