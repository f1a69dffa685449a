import Gherkin.Command.Run

/-!
# The program

Reads the environment and the files that a command line asks for, and prints
the outcome.
-/

namespace Gherkin

/-- The text of a file of the system, or why there is none. -/
def readSystemFile (path : Text) : IO (Except ReadFailure Text) := do
  try
    let content ← IO.FS.readBinFile ⟨String.ofList path⟩
    match String.fromUTF8? content with
    | some s => return .ok s.toList
    | none => return .error .notText
  catch
    | .noFileOrDirectory .. => return .error .notFound
    | .inappropriateType .. => return .error .isDirectory
    | e => return .error (.other (toString e).toList)

/-- The variables that the program looks at. -/
def readEnvironment : IO Environment := do
  let values ← Environment.variableNames.mapM fun name => do
    return (name, (← IO.getEnv name).map String.toList)
  return Environment.ofLookup fun name => (values.lookup name).join

/-- What is printed about a failure. -/
def Failure.message : Failure → Text
  | usage => "usage: furrow [--log-level L] [--keywords FILE] [--base-locale CODE] "
      ++ "(tokens FILE | tree FILE [--json])"
  | configuration e => e.message
  | run f => f.message

end Gherkin

open Gherkin in
def main (args : List String) : IO UInt32 := do
  let args := args.map String.toList
  let env ← readEnvironment
  let paths :=
    match Arguments.read args with
    | some (.run i) => i.files env
    | _ => []
  let contents ← paths.mapM fun path => do return (path, ← readSystemFile path)
  let read : FileReader := fun path => (contents.lookup path).getD (.error .notFound)
  let o := outcome args env read .limited
  IO.print (String.ofList o.output)
  match o.failure with
  | some f => IO.eprintln (String.ofList f.message)
  | none => pure ()
  return o.status.toUInt32
