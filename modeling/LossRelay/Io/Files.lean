import LossRelay.Io.Fault
import LossRelay.Text.Cut

/-!
# Files

A working directory that holds files and empty directories, and what reading a path in it gives.
-/

namespace LossRelay

/-- What a name in a directory stands for. -/
inductive FileEntry where
  | file (content : ByteArray)
  | directory

/-- The names in the working directory, and what they stand for. -/
abbrev Files := List (String × FileEntry)

namespace Files

/-- Where the walk along a path has come to. -/
inductive Spot where
  | here
  | inside
  | outside
  | file (content : ByteArray)

/-- The longest name of a file, in octets. -/
def longestName : Nat := 255

def step (files : Files) (spot : Spot) (name : List Char) : Except IoFault Spot :=
  match spot with
  | .file _ => .error .notDirectory
  | spot =>
    if name = [] ∨ name = ['.'] then .ok spot
    else if longestName < name.foldr (fun c n => c.utf8Size + n) 0 then .error .nameTooLong
    else
      match spot with
      | .here =>
        if name = ['.', '.'] then .ok .outside
        else
          match files.lookup (String.ofList name) with
          | some (.file content) => .ok (.file content)
          | some .directory => .ok .inside
          | none => .error .noSuchFile
      | .inside => if name = ['.', '.'] then .ok .here else .error .noSuchFile
      | _ => if name = ['.', '.'] then .ok .outside else .error .noSuchFile

def walk (files : Files) (spot : Spot) : List (List Char) → Except IoFault Spot
  | [] => .ok spot
  | name :: names => do
    let spot ← files.step spot name
    files.walk spot names

def readBytes (files : Files) (path : String) : Except IoFault ByteArray := do
  if path.toList.contains '\x00' then .error .nulInPath
  else if path = "" then .error .noSuchFile
  else if 4096 ≤ path.utf8ByteSize then .error .nameTooLong
  else
    let start := if path.toList.head? = some '/' then Spot.outside else .here
    match ← files.walk start (Text.cut '/' path.toList) with
    | .file content => .ok content
    | _ => .error .isDirectory

def readText (files : Files) (path : String) : Except IoFault String := do
  let content ← files.readBytes path
  match String.fromUTF8? content with
  | some text => .ok text
  | none => .error .notUtf8

end Files

end LossRelay
