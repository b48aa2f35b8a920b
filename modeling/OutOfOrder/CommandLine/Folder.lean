import OutOfOrder.CommandLine.Session

/-!
# Folders

A folder holds files by name, where a slash in a name stands between the folders within each other
and the file.  A name that ends in a slash is that of a folder.  A session may read its program from
a folder instead of the disk, which makes it a function of its arguments and the folder alone.

The folder lies in a system of which little else is known: the folders at its root, of which the
one for what is temporary holds the folder of the session, and the null device.
-/

namespace OutOfOrder.CommandLine

/-- The bytes of each file. -/
structure Folder where
  files : List (String × List UInt8)

namespace Folder

def maxPathSize : Nat := 4095

def maxNameSize : Nat := 255

def hasBelow (folder : Folder) (path : String) : Bool :=
  folder.files.any fun file => (path ++ "/").isPrefixOf file.1

/-- The bytes of the file that a path leads to, where `here` is the way from the root to the part of
the path that is next.  What leads out of the root stays there. -/
def readFrom (folder : Folder) (here : List String) : List String → Except FileError (List UInt8)
  | [] => .error .folder
  | part :: parts =>
    if part = "" ∨ part = "." then folder.readFrom here parts
    else if part = ".." then folder.readFrom here.dropLast parts
    else if maxNameSize < part.utf8ByteSize then .error .nameTooLong
    else
      let path := String.intercalate "/" (here ++ [part])
      match folder.files.lookup path with
      | some bytes => if parts.isEmpty then .ok bytes else .error .insideFile
      | none =>
        if folder.hasBelow path then folder.readFrom (here ++ [part]) parts
        else .error .missing

def rootFolders : List String :=
  ["bin", "boot", "dev", "etc", "home", "lib", "media", "mnt", "opt", "proc", "root", "run", "sbin",
    "srv", "sys", "tmp", "usr", "var"]

/-- The way from the root to the folder of the session.  No path spells the last name. -/
def place : List String :=
  ["tmp", "\x00"]

/-- The system in which the folder is that of the session. -/
def system (folder : Folder) : Folder :=
  let name (file : String) := String.intercalate "/" (place ++ [file])
  ⟨("dev/null", []) :: (name "", []) :: rootFolders.map (fun root => (root ++ "/", [])) ++
    folder.files.map fun (file, bytes) => (name file, bytes)⟩

/-- The bytes of the file that a path leads to, where a path that begins with a slash begins at the
root and any other at the folder. -/
def read (folder : Folder) (path : String) : Except FileError (List UInt8) :=
  if path.contains '\x00' then .error .nul
  else if maxPathSize < path.utf8ByteSize then .error .nameTooLong
  else
    let start := if path.startsWith "/" then [] else place
    folder.system.readFrom start ((Text.pieces '/' path.toList).map String.ofList)

def session (folder : Folder) (arguments : List String) : Except Fault Response :=
  let parsed := Arguments.parse arguments
  let path := match parsed with
    | .ok arguments => String.ofList (normalizePath arguments.program.toList)
    | .error _ => ""
  CommandLine.session parsed (folder.read path)

end Folder

end OutOfOrder.CommandLine
