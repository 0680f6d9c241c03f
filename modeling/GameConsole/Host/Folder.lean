import GameConsole.Host

/-! A folder of files held in memory, as the current directory of a session. -/

namespace GameConsole

structure Folder where
  /-- Of two files of one name the first counts. -/
  files : List (String × ByteArray) := []

namespace Folder

/-- Puts a file in the place of an earlier one of its name. -/
def write (f : Folder) (name : String) (content : ByteArray) : Folder :=
  ⟨(name, content) :: f.files⟩

/-- The folder after all of these files have been written, one after the other. -/
def ofList (files : List (String × ByteArray)) : Folder :=
  files.foldl (fun f file => f.write file.1 file.2) {}

def content? (f : Folder) (name : String) : Option ByteArray := f.files.lookup name

theorem content?_write (f : Folder) (name other : String) (content : ByteArray) :
    (f.write name content).content? other =
      if other = name then some content else f.content? other := by
  by_cases h : other = name
  · simp [write, content?, h]
  · simp [write, content?, List.lookup_cons, h, beq_false_of_ne h]

/-- The bytes that a part of a path may have at most. -/
def partLimit : Nat := 255

/-- The bytes that a path may have at most. -/
def pathLimit : Nat := 4095

/-- Follows the parts of a path. Nothing is known about the surroundings of the folder. -/
def walk (f : Folder) (inside : Bool) : List String → Except HostError ByteArray
  | [] => .error .isDirectory
  | part :: rest =>
    if part = "" ∨ part = "." then f.walk inside rest
    else if part = ".." then f.walk false rest
    else if partLimit < part.utf8ByteSize then .error .nameTooLong
    else
      match if inside then f.content? part else none with
      | none => .error .notFound
      | some content => if rest.isEmpty then .ok content else .error .notDirectory

/-- Reads the file at a path. A path that starts with a slash starts outside of the folder. -/
def read (f : Folder) : Files := fun path =>
  if path.toList.contains (Char.ofNat 0) then .error .zeroInPath
  else if path.isEmpty then .error .notFound
  else if pathLimit < path.utf8ByteSize then .error .nameTooLong
  else f.walk (!path.startsWith "/") (path.splitOn "/")

end Folder

end GameConsole
