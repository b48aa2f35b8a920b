import OutOfOrder.Assembly.Source
import OutOfOrder.Text.Utf8

/-!
# Program files

A program is read from a file of UTF-8 text, in which a carriage return, alone or before a line
feed, ends a line as a line feed does.
-/

namespace OutOfOrder.CommandLine

open Text

/-- A path without what does not count: empty parts and parts that are a single point.  The path
that has no part is a point, and exactly two slashes in front are kept. -/
def normalizePath (path : List Char) : List Char :=
  let parts := (pieces '/' path).filter fun part => part ≠ [] ∧ part ≠ ['.']
  let slashes := (path.takeWhile (· == '/')).length
  let root := if slashes = 0 then [] else if slashes = 2 then ['/', '/'] else ['/']
  let normal := root ++ ['/'].intercalate parts
  if normal.isEmpty then ['.'] else normal

/-- Why the bytes of a file cannot be had. -/
inductive FileError where
  | missing
  | folder
  | insideFile
  | refused
  | nameTooLong
  /-- The name holds a NUL character. -/
  | nul

def FileError.message (path : List Char) : FileError → String
  | .missing => "[Errno 2] No such file or directory: " ++ String.ofList (quoted path)
  | .folder => "[Errno 21] Is a directory: " ++ String.ofList (quoted path)
  | .insideFile => "[Errno 20] Not a directory: " ++ String.ofList (quoted path)
  | .refused => "[Errno 13] Permission denied: " ++ String.ofList (quoted path)
  | .nameTooLong => "[Errno 36] File name too long: " ++ String.ofList (quoted path)
  | .nul => "embedded null byte"

/-- Why a program file yields no program. -/
inductive ProgramError where
  | unreadable (path : List Char) (error : FileError)
  | notText (failure : Utf8Failure)
  | notProgram (error : Assembly.LoadError)

def ProgramError.message : ProgramError → String
  | .unreadable path error => error.message path
  | .notText failure => failure.message
  | .notProgram error => error.message

def readProgram (allowLabels : Bool) (bytes : List UInt8) :
    Except ProgramError Assembly.Assembled := do
  let text ← (ofUtf8 bytes).mapError .notText
  (Assembly.assemble allowLabels (lines (unifyBreaks text))).mapError .notProgram

end OutOfOrder.CommandLine
