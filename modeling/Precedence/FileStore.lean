import Precedence.Environment

/-!
# Files

The part of a file system that a program reads from: files with their text, in
directories, below the directory that the program works in.

A path is followed name by name. Each name but the last has to lead to a directory; so has
the last one when a slash or a dot follows it. Opening the path then gives the text of a
file, or the reason why there is none. Of what lies outside the directory that the program
works in, only the directories above it are known, and what every system has: the
directories at its root, and a device that is read as an empty file.
-/

namespace Precedence

/-- The files below a directory; a path without a text is a directory itself. -/
structure FileStore where
  entries : List (List String × Option String)

namespace FileStore

/-- The names of a path that lead somewhere. -/
def names (path : String) : List String :=
  (path.splitOn "/").filter fun name => name != "" && name != "."

/-- The store of some files and directories that are given by their paths. -/
def ofList (files : List (String × Option String)) : FileStore :=
  ⟨files.map fun file => (names file.1, file.2)⟩

/-- What a path leads to. -/
inductive Target where
  | file (text : String)
  | directory
  | nothing

/-- What some names lead to. A directory is also there when something is below it. -/
def target (store : FileStore) (place : List String) : Target :=
  match store.entries.find? fun entry => entry.1 == place with
  | some (_, some text) => .file text
  | some (_, none) => .directory
  | none =>
      if place.isEmpty || store.entries.any fun entry => place.isPrefixOf entry.1 then
        .directory
      else
        .nothing

/-- Whether a step of a path stays where it is. -/
def isIdle (step : String) : Bool :=
  step = "" || step = "."

/-- The bytes that a name may have. -/
def nameLength : Nat := 255

/-- The bytes that a path may have. -/
def pathLength : Nat := 4095

/-- Whether a step of a path is longer than a name may be. -/
def isTooLong (step : String) : Bool :=
  step.utf8ByteSize > nameLength

/-- Follow the steps of a path above the directory that the program works in. -/
def followOutside (steps : List String) : Except OpenError String :=
  match steps.find? fun step => !(isIdle step || step = "..") with
  | none => .error .isDirectory
  | some step => .error (if isTooLong step then .nameTooLong else .missing)

/-- Follow the steps of a path from a place, the names of which come latest first. -/
def follow (store : FileStore) : List String → List String → Except OpenError String
  | place, [] =>
      match store.target place.reverse with
      | .file text => .ok text
      | .directory => .error .isDirectory
      | .nothing => .error .missing
  | place, step :: steps =>
      match store.target place.reverse with
      | .file _ => .error .notDirectory
      | .nothing => .error .missing
      | .directory =>
          if isTooLong step then
            .error .nameTooLong
          else if isIdle step then
            follow store place steps
          else if step = ".." then
            match place with
            | [] => followOutside steps
            | _ :: place => follow store place steps
          else
            follow store (step :: place) steps

/-- What every system has at its root. -/
def root : FileStore :=
  let directories := ["bin", "dev", "etc", "home", "lib", "proc", "run", "sbin", "sys", "tmp",
    "usr", "var"]
  ofList (("dev/null", some "") :: directories.map fun name => (name, none))

/-- The text of the file at a path. A path that begins with a slash leads from the root. -/
def read (store : FileStore) (path : String) : Except OpenError String :=
  if path.utf8ByteSize > pathLength then
    .error .nameTooLong
  else
    match path.splitOn "/" with
    | [""] => .error .missing
    | "" :: steps => root.follow [] steps
    | steps => store.follow [] steps

end FileStore
end Precedence
