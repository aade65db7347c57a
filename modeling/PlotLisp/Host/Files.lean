/-!
# Files

What reading a file gives: its text, or the reason why there is none. Everything that reads files
is a function of such readings, so that it can be run on any machine, a made-up one included.

`FileTree` is a made-up one. It finds files as a machine does: the parts of a path lead from
directory to directory, an empty part and a single dot lead nowhere else, and two dots lead back.
A path that starts with a slash starts at the root, and any other at the working directory.
-/

namespace PlotLisp

/-! ## Readings -/

inductive FileError where
  | notFound
  | notADirectory
  | isADirectory
  /-- Any other reason, in the words of the machine. -/
  | other (reason : String)
deriving DecidableEq

def FileError.message : FileError → String
  | .notFound => "No such file or directory (os error 2)"
  | .notADirectory => "Not a directory (os error 20)"
  | .isADirectory => "Is a directory (os error 21)"
  | .other reason => reason

/-- The readings of all files, by path. -/
structure Files where
  read : String → Except FileError String

/-- Files of which only some have been read. The others count as missing. -/
def Files.ofReadings (readings : List (String × Except FileError String)) : Files where
  read path := (readings.lookup path).getD (.error .notFound)

/-! ## Trees of files -/

inductive FileTree where
  | file (text : String)
  | directory (entries : List (String × FileTree))

namespace FileTree

/-- Follows the parts of a path. The directories that lead here are the nearest first. -/
def follow (above : List FileTree) (here : FileTree) : List String → Except FileError String
  | [] =>
    match here with
    | .file text => .ok text
    | .directory _ => .error .isADirectory
  | part :: rest =>
    match here with
    | .file _ => .error .notADirectory
    | .directory entries =>
      if part = "" || part = "." then follow above here rest
      else if part = ".." then
        match above with
        | [] => follow [] here rest
        | parent :: others => follow others parent rest
      else
        match entries.lookup part with
        | some next => follow (here :: above) next rest
        | none => .error .notFound

/-- The files of a tree, seen from a working directory. A path that is empty leads nowhere. -/
def files (tree : FileTree) (workingDirectory : List String) : Files where
  read path :=
    let start := if path.startsWith "/" then [] else workingDirectory
    if path = "" then .error .notFound
    else if path.contains '\x00' then
      .error (.other "file name contained an unexpected NUL byte")
    else follow [] tree (start ++ path.splitOn "/")

end FileTree

end PlotLisp
