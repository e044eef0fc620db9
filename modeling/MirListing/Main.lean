import MirListing.Command.Run

/-!
# The program

Runs the command on real files.  What is printed goes to the output, a message to the error stream,
and the number it ends with to whoever started it.  The ordinary level of logging comes from the
environment.
-/

namespace MirListing

/-- What a failed access to a file means. -/
def faultOf : IO.Error → FileFault
  | .noFileOrDirectory .. | .noSuchThing .. => .notFound
  | .inappropriateType .. => .isDirectory
  | .alreadyExists .. => .exists
  | _ => .notDirectory

/-- Carries out an access to a file. -/
def attempt {α : Type} (access : IO α) : IO (Except FileFault α) := do
  try
    return .ok (← access)
  catch error =>
    return .error (faultOf error)

/-- The fault of an access that gives nothing. -/
def faultOnly (access : IO Unit) : IO (Option FileFault) := do
  match ← attempt access with
  | .ok _ => return none
  | .error fault => return some fault

/-- Access to real files; none has a path with a null character. -/
def realDisk : Disk IO where
  read path :=
    if path.hasNull then return .error .nullCharacter else attempt (IO.FS.readFile path.text)
  write path contents :=
    if path.hasNull then return some .nullCharacter
    else faultOnly (IO.FS.writeFile path.text contents)
  create path contents :=
    if path.hasNull then return some .nullCharacter
    else faultOnly do
      IO.FS.createDirAll path.parent.text
      IO.FS.writeFile path.text contents

/-- What is as the environment says where the command line does not say it. -/
def environmentDefaults : IO Arguments := do
  match ← IO.getEnv "MIR_DUMP_LOG" with
  | some level => return { logLevel := .string level }
  | none => return {}

/-- The wording of a failure that ends the command. -/
def failureText (failure : Failure) : String := (failure.message?).getD "the program failed"

/-- Runs the command and reports how it ended. -/
def runProgram (arguments : List String) : IO UInt32 := do
  let report ← runCommand realDisk arguments (← environmentDefaults)
  IO.print report.output
  match report.exit with
  | .code n => return UInt32.ofNat n
  | .message text =>
      IO.eprintln text
      return 1
  | .failed failure =>
      IO.eprintln (failureText failure)
      return 1

end MirListing

/-- The entry point. -/
def main (arguments : List String) : IO UInt32 := MirListing.runProgram arguments
