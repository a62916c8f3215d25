import ClaimPolicy.Checker
import ClaimPolicy.Loader

/-!
The commands of the program, each as a function from a way to read files to what is printed and the
exit code. A denial, an unsupported claim and every error end with code 1. The model is loaded
before claims are read.
-/
namespace ClaimPolicy

inductive Command where
  | check (path : String)
  | test (model : Option String) (authorization assertion : String)
  | consolidate (model : Option String) (asAssertion : Bool) (claims : String)
  | supports (model claims : String)
  | inspect (claim : String)
  deriving DecidableEq, Repr

structure Outcome where
  exit : Nat := 0
  stdout : String := ""
  stderr : String := ""
  deriving DecidableEq, Repr

namespace Outcome

def printed (lines : List String) : Outcome :=
  ⟨0, String.join (lines.map (· ++ "\n")), ""⟩

/-- Lines that were printed before an error, and the error. -/
def failed (lines : List String) (message : String) : Outcome :=
  ⟨1, String.join (lines.map (· ++ "\n")), "Error: " ++ message ++ "\n"⟩

def ofResult (result : Except String Outcome) : Outcome :=
  match result with
  | .ok outcome => outcome
  | .error message => failed [] message

end Outcome

namespace Command

def path? : Command → Option String
  | .check path => some path
  | .test model _ _ => model
  | .consolidate model _ _ => model
  | .supports model _ => some model
  | .inspect _ => none

def definitionLine (model : Model) (definition : Definition) : String :=
  let indent := if definition.kind = .member then "      " else "    "
  let aliases :=
    if definition.aliases.isEmpty then ""
    else " (aliases: " ++ ", ".intercalate definition.aliases ++ ")"
  let includes :=
    if definition.includes.isEmpty then ""
    else " -> " ++ ", ".intercalate ((model.includeTokens definition).map Token.text)
  indent ++ definition.token.text ++ aliases ++ includes

def warningLines (model : Model) (definition : Definition) : List String :=
  (model.redundantIncludes definition).map fun included =>
    "  ⚠ " ++ definition.token.text ++ " includes " ++ included.token.text
      ++ " more than once (directly and transitively)"

def summaryLines (model : Model) : List String :=
  ["  ✓ Case sensitivity: " ++ (match model.case with
      | .insensitive => "Insensitive"
      | .sensitive => "Sensitive"),
    "  ✓ Atoms: " ++ toString model.atoms.length,
    "  ✓ Composites: " ++ toString model.composites.length,
    "  ✓ Definitions: " ++ toString model.size]

def checkLines (model : Model) : List String :=
  let warnings := model.definitions.toList.flatMap (warningLines model)
  let conclusion :=
    if warnings.isEmpty then "✓ Model is valid!"
    else "⚠ Model is valid with " ++ toString warnings.length ++ " warning(s)"
  summaryLines model ++ model.definitions.toList.map (definitionLine model) ++ warnings
    ++ ["", conclusion]

def invalidModel (error : LoadError) : String := "Invalid model: " ++ error.message

def loadChecker (read : String → Except ReadFault String) (model : Option String) :
    Except String Checker :=
  match model with
  | none => .ok ⟨none⟩
  | some path =>
      match loadModel read path with
      | .ok model => .ok ⟨some model⟩
      | .error error => .error (invalidModel error)

def orMessage {Result : Type} : Except Error Result → Except String Result
  | .ok result => .ok result
  | .error error => .error error.message

def reducedText (checker : Checker) (kind : Kind) (claims : String) : Except Error String := do
  let parsed ← Claims.parse kind claims
  return Claims.text (← checker.validate parsed).claims

def inspectLines (any : AnyClaim) : List String :=
  let details :=
    match any with
    | ⟨.assertion, claim⟩ => if Requirement.negated claim then ["  negated"] else []
    | ⟨.grants, claim⟩ => ["  subject: " ++ (Delegation.subject claim).text]
    | ⟨.authorization, _⟩ => []
  ["Claim: " ++ any.text, "  kind:  " ++ any.label, "  token: " ++ any.permission.token.text]
    ++ (any.permission.scope.toList.map fun scope => "  scope: " ++ scope.text) ++ details

def run (read : String → Except ReadFault String) : Command → Outcome
  | .check path =>
      let opening := "Checking model: " ++ path
      match loadModel read path with
      | .ok model => .printed (opening :: checkLines model)
      | .error error => .failed [opening] (invalidModel error)
  | .test model authorization assertion => .ofResult do
      let checker ← loadChecker read model
      match ← orMessage (checker.test (.raw authorization) (.raw assertion)) with
      | .granted => return .printed ["✓ granted"]
      | .denied failed =>
          return { Outcome.printed ["✗ denied by " ++ @Claim.text .assertion failed] with
            exit := 1 }
  | .consolidate model asAssertion claims => .ofResult do
      let checker ← loadChecker read model
      let kind := if asAssertion then Kind.assertion else .authorization
      return .printed [← orMessage (reducedText checker kind claims)]
  | .supports model claims => .ofResult do
      let checker ← loadChecker read (some model)
      if checker.supports claims then return .printed ["✓ supported"]
      else return { Outcome.printed ["✗ not supported by " ++ model] with exit := 1 }
  | .inspect claim => .ofResult do
      return .printed (inspectLines (← orMessage (AnyClaim.parse claim)))

def usage : String :=
  "Usage: [-v] COMMAND\n\n" ++
  "  model check FILE\n" ++
  "  test [--model FILE] AUTHORIZATION ASSERTION\n" ++
  "  consolidate [--model FILE] [--assertion] CLAIMS\n" ++
  "  supports --model FILE CLAIMS\n" ++
  "  inspect CLAIM\n"

/-- What the arguments say: words in order, the model file and the two flags. -/
structure Arguments where
  words : List String := []
  model : Option String := none
  asAssertion : Bool := false

/-- After two dashes every argument is a word. -/
def gather : Arguments → List String → Option Arguments
  | gathered, [] => some gathered
  | gathered, "--" :: rest => some { gathered with words := gathered.words ++ rest }
  | gathered, "-v" :: rest => gather gathered rest
  | gathered, "--verbose" :: rest => gather gathered rest
  | gathered, "--assertion" :: rest => gather { gathered with asAssertion := true } rest
  | gathered, "-m" :: path :: rest => gather { gathered with model := some path } rest
  | gathered, "--model" :: path :: rest => gather { gathered with model := some path } rest
  | gathered, word :: rest =>
      if word.startsWith "-" && word != "-" then none
      else gather { gathered with words := gathered.words ++ [word] } rest

def ofArguments (arguments : List String) : Option Command := do
  let gathered ← gather {} arguments
  match gathered.words, gathered.model with
  | ["model", "check", path], none => some (.check path)
  | ["test", authorization, assertion], model => some (.test model authorization assertion)
  | ["consolidate", claims], model => some (.consolidate model gathered.asAssertion claims)
  | ["supports", claims], some model => some (.supports model claims)
  | ["inspect", claim], none => some (.inspect claim)
  | _, _ => none

end Command

end ClaimPolicy
