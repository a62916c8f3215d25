import ClaimPolicy.Folder
import ClaimPolicy.Model.Export
import ClaimPolicy.Toml.Reader
import ClaimPolicy.Toml.Writer
import ClaimPolicy.Yaml.Reader
import ClaimPolicy.Yaml.Writer

/-!
Models in files. The extension of a path chooses the format before the file is read, and a model
that is read passes the same checks as one that is declared.
-/
namespace ClaimPolicy

inductive Format where
  | toml
  | yaml
  deriving DecidableEq, Repr

inductive LoadError where
  | unreadable (path : String) (fault : ReadFault)
  | unsupported (path : String)
  | malformed (format : Format)
  | refused (error : Error)
  deriving DecidableEq, Repr

def LoadError.message : LoadError → String
  | .unreadable path fault => "Failed to read '" ++ path ++ "': " ++ fault.message
  | .unsupported path =>
      "Unsupported model format: '" ++ path ++ "' (expected .toml, .yaml or .yml)"
  | .malformed .toml => "TOML parsing error"
  | .malformed .yaml => "YAML parsing failed"
  | .refused error => error.message

namespace Format

/-- Letters are compared without regard to case, among ASCII letters only. -/
def ofPath? (path : String) : Option Format :=
  match (Path.extension? path).map fun extension => String.ofList (extension.map Char.toLower) with
  | some "toml" => some .toml
  | some "yaml" | some "yml" => some .yaml
  | _ => none

def ofPath (path : String) : Except LoadError Format :=
  match ofPath? path with
  | some format => .ok format
  | none => .error (.unsupported path)

def document? : Format → String → Option Document
  | .toml => Toml.document?
  | .yaml => Yaml.document?

def write : Format → Document → String
  | .toml => Toml.write
  | .yaml => Yaml.write

def parse (format : Format) (text : String) : Except LoadError Model :=
  match format.document? text with
  | none => .error (.malformed format)
  | some document =>
      match document.build with
      | .ok model => .ok model
      | .error error => .error (.refused error)

end Format

def Model.export (model : Model) (format : Format) : String :=
  format.write model.toDocument

def loadModel (read : String → Except ReadFault String) (path : String) :
    Except LoadError Model := do
  let format ← Format.ofPath path
  match read path with
  | .error fault => .error (.unreadable path fault)
  | .ok text => format.parse text

end ClaimPolicy
