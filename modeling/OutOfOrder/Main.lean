import OutOfOrder.CommandLine.Session

/-!
# The program

Reads the arguments and the program file, and prints the response of the session.
-/

namespace OutOfOrder.CommandLine

/-- Why a file could not be read.  A name that is no argument for the system holds a NUL character
or is too long. -/
def fileError (path : String) : IO.Error → FileError
  | .inappropriateType _ 21 _ => .folder
  | .inappropriateType .. => .insideFile
  | .permissionDenied .. => .refused
  | .invalidArgument .. => if path.contains '\x00' then .nul else .nameTooLong
  | _ => .missing

def readBytes (path : String) : IO (Except FileError (List UInt8)) := do
  try
    let bytes ← IO.FS.readBinFile path
    return .ok bytes.toList
  catch error => return .error (fileError path error)

end OutOfOrder.CommandLine

open OutOfOrder.CommandLine in
/-- Runs a session and ends with its exit code. -/
def main (arguments : List String) : IO UInt32 := do
  let parsed := Arguments.parse arguments
  let file ← match parsed with
    | .ok parsed => readBytes (String.ofList (normalizePath parsed.program.toList))
    | .error _ => pure (.error .missing)
  match session parsed file with
  | .ok response =>
    IO.print (printed response.output)
    IO.eprint (printed response.errors)
    return response.exitCode
  | .error fault =>
    IO.eprint (printed [fault.message])
    return 1
