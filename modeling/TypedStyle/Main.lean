import TypedStyle.CommandLine.Run

set_option autoImplicit false

namespace TypedStyle.CommandLine

/-- Code 21 is that of a folder in the place of a file, and code 36 that of too long a name. -/
def FileError.ofSystem : IO.Error → FileError
  | .noFileOrDirectory .. => .missing
  | .inappropriateType _ code _ => if code = 21 then .folder else .notFolder
  | .invalidArgument _ 36 _ => .nameTooLong
  | .permissionDenied .. => .other "Permission denied (os error 13)"
  | error => .other (toString error)

def systemFiles : Files IO where
  read path := do
    try
      return .ok (← IO.FS.readBinFile path)
    catch error =>
      return .error (.ofSystem error)
  write path contents := do
    try
      IO.FS.writeBinFile path contents
      return .ok ()
    catch error =>
      return .error (.ofSystem error)

end TypedStyle.CommandLine

open TypedStyle.CommandLine in
def main (arguments : List String) : IO UInt32 := do
  let outcome ← run systemFiles arguments
  (← IO.getStdout).putStr outcome.output
  (← IO.getStderr).putStr outcome.log
  return outcome.exit.toUInt32
