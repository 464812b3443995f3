import DirectivePack.Front

/-!
Files as the program sees them: a path leads to bytes, or there is a reason why it does not.

* `Files.ofEntries` is a directory that holds given files, by their paths in it.
-/

namespace DirectivePack

/-- Why a path leads to no bytes. -/
inductive FileFault where
  | missing
  | isDirectory
  | notDirectory
  /-- There is a file, but its bytes cannot be had, for a reason in the words of the system. -/
  | other (reason : String)
deriving DecidableEq, Repr

def FileFault.message : FileFault → String
  | .missing => "No such file or directory (os error 2)"
  | .isDirectory => "Is a directory (os error 21)"
  | .notDirectory => "Not a directory (os error 20)"
  | .other reason => reason

/-- What each path leads to. -/
abbrev Files := String → Except FileFault Bytes

namespace Files

/-- Whether a path leads to a file, of which it may be that nothing can be read. -/
def contains (files : Files) (path : String) : Bool :=
  match files path with
  | .ok _ | .error (.other _) => true
  | .error _ => false

/-- The names that a path goes through, without the steps that lead nowhere. -/
def steps (path : String) : List String :=
  let names := (path.splitOn "/").filter fun name => name != "" && name != "."
  (names.foldl (fun sofar name => if name == ".." then sofar.drop 1 else name :: sofar) []).reverse

/-- Whether a path says by its end that it leads to a directory. -/
def namesDirectory (path : String) : Bool :=
  path.endsWith "/" || path.endsWith "/."

/-- The files of the working directory, each with its path in it.  Nothing is known of other
directories, and they hold nothing. -/
def ofEntries (entries : List (String × Bytes)) : Files := fun path =>
  let wanted := steps path
  if path.isEmpty then .error .missing
  else if wanted.isEmpty then .error .isDirectory
  else if path.startsWith "/" then .error .missing
  else
    match entries.find? fun (name, _) => steps name == wanted with
    | some (_, bytes) => if namesDirectory path then .error .notDirectory else .ok bytes
    | none =>
      if entries.any fun (name, _) => wanted.isPrefixOf (steps name) then .error .isDirectory
      else if entries.any fun (name, _) => (steps name).isPrefixOf wanted then .error .notDirectory
      else .error .missing

end Files

/-! ### Extensions -/

/-- What stands behind the last point of a name, unless the point is its first character or there is
none. -/
def extensionOfName? (name : List Char) : Option (List Char) :=
  let reversed := name.reverse
  match reversed.dropWhile (· != '.') with
  | [] | ['.'] => none
  | _ => some (reversed.takeWhile (· != '.')).reverse

/-- The extension of the file that a path leads to. -/
def extension? (path : String) : Option String :=
  match ((path.splitOn "/").filter fun name => name != "" && name != ".").getLast? with
  | none | some ".." => none
  | some name => (extensionOfName? name.toList).map String.ofList

end DirectivePack
