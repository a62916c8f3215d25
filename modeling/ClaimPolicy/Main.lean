import ClaimPolicy.Command

/-!
The program: reads the model file of the command, if it has one, and prints what the command
answers.
-/
open ClaimPolicy

def readFault : IO.Error → ReadFault
  | .noFileOrDirectory .. => .notFound
  | .permissionDenied .. => .denied
  | .inappropriateType _ 20 _ => .notDirectory
  | .inappropriateType .. => .isDirectory
  | .invalidArgument _ 36 _ => .nameTooLong
  | _ => .notText

def readModelFile (path : String) : IO (Except ReadFault String) := do
  try
    return .ok (← IO.FS.readFile path)
  catch error => return .error (readFault error)

def main (arguments : List String) : IO UInt32 := do
  match Command.ofArguments arguments with
  | none =>
      IO.eprint Command.usage
      return 2
  | some command =>
      let file ←
        match command.path? with
        | some path => readModelFile path
        | none => pure (.error .notFound)
      let outcome := command.run fun _ => file
      IO.print outcome.stdout
      IO.eprint outcome.stderr
      return outcome.exit.toUInt32
