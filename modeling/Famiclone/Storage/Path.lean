import Famiclone.Storage

/-!
# Paths of files

A file is found by the names of the folders on the way to it. The way begins in the folder of saved
memory, or in the outermost folder when the path begins with a slash, and it may lead out of a folder
as well as into one. Each name on the way is looked up before the next one, so the first fault
counts. Of the folders of the system only those matter that lead to the directory of a storage, and the one
of saved memory in there.
-/
namespace Famiclone

/-- The names on the way to a folder from the outermost one, its own name first. -/
abbrev Folder := List String

structure FilePlace where
  folder : Folder
  name : String
  deriving DecidableEq, Repr

/-- Why a path leads to no file. -/
inductive PathFault where
  | missing
  /-- A name on the way is that of a file. -/
  | notFolder
  /-- A name, or the path, has too many bytes. -/
  | tooLong
  /-- The path has a character that no path has. -/
  | zeroByte
  deriving DecidableEq, Repr

namespace PathFault

def reason : PathFault → String
  | missing => "No such file or directory (os error 2)"
  | notFolder => "Not a directory (os error 20)"
  | tooLong => "File name too long (os error 36)"
  | zeroByte => "file name contained an unexpected NUL byte"

def toStorageError (f : PathFault) : StorageError := .medium f.reason

end PathFault

namespace Path

/-- The most bytes that a name may have. -/
def nameLimit : Nat := 255

/-- The most bytes that a path may have. -/
def pathLimit : Nat := 4095

/-- The number of bytes that characters take. -/
def byteCount : List Char → Nat
  | [] => 0
  | c :: cs => c.utf8Size + byteCount cs

end Path

/-- The directory of a storage. -/
structure Root where
  folder : Folder
  /-- The path by which the storage was told of the folder. -/
  path : List Char
  /-- It has none of the characters that no path has. -/
  plain : '\x00' ∉ path
  /-- It leaves room for the names of the files that a storage makes by itself. -/
  short : Path.byteCount path + 21 ≤ Path.pathLimit

namespace Root

def saves (root : Root) : Folder := "battery" :: root.folder

/-- The path of the folder of saved memory, with a slash at its end. -/
def pathToSaves (root : Root) : List Char :=
  let slash := if root.path = [] ∨ root.path.getLast? = some '/' then [] else ['/']
  root.path ++ slash ++ "battery/".toList

end Root

namespace FilePlace

/-- The path of a file from the directory of the storage, if it lies in there. -/
def path? (p : FilePlace) (root : Root) : Option String :=
  if p.folder = root.folder then some p.name
  else if p.folder = root.saves then some ("battery/" ++ p.name)
  else none

/-- The names that slashes part, of which there is one at least. -/
def names : List Char → List Char × List (List Char)
  | [] => ([], [])
  | c :: cs =>
    let (name, rest) := names cs
    if c = '/' then ([], name :: rest) else (c :: name, rest)

/-- A path without slashes is one name. -/
theorem names_of_not_mem {cs : List Char} (h : '/' ∉ cs) : names cs = (cs, []) := by
  induction cs with
  | nil => rfl
  | cons c cs ih =>
    have hc : c ≠ '/' := fun e => h (by simp [e])
    simp [names, ih (fun m => h (List.mem_cons_of_mem c m)), hc]

example : names "a/../b".toList = (['a'], [['.', '.'], ['b']]) := by decide +kernel

structure Tree where
  holds : FilePlace → Bool
  hasFolder : Folder → Bool

/-- Follow one name out of a folder. One point stays there, and two points lead outwards. -/
def enter (t : Tree) (folder : Folder) (name : List Char) : Except PathFault Folder :=
  if name = [] ∨ name = ['.'] then .ok folder
  else if name = ['.', '.'] then .ok folder.tail
  else if Path.nameLimit < Path.byteCount name then .error .tooLong
  else if t.holds ⟨folder, String.ofList name⟩ then .error .notFolder
  else if t.hasFolder (String.ofList name :: folder) then .ok (String.ofList name :: folder)
  else .error .missing

/-- Follow names out of a folder, the last of which is that of a file. -/
def follow (t : Tree) (folder : Folder) :
    (name : List Char) → (rest : List (List Char)) → Except PathFault FilePlace
  | name, [] =>
    if Path.nameLimit < Path.byteCount name then .error .tooLong else .ok ⟨folder, String.ofList name⟩
  | name, next :: rest => do follow t (← enter t folder name) next rest

/-- The characters of the path that an identifier stands for. -/
def path (id : String) : List Char := id.toList ++ ".sav".toList

/-- Whether a path begins in the outermost folder. -/
def isAbsolute (path : List Char) : Bool := path.head? = some '/'

/-- A path from the folder of saved memory on, unless it begins in the outermost folder. -/
def fullPath (root : Root) (path : List Char) : List Char :=
  if isAbsolute path then path else root.pathToSaves ++ path

/-- The place of the file for an identifier. -/
def locate (root : Root) (t : Tree) (id : String) : Except PathFault FilePlace :=
  let path := path id
  let full := fullPath root path
  let (name, rest) := names path
  if full.contains '\x00' then .error .zeroByte
  else if Path.pathLimit < Path.byteCount full then .error .tooLong
  else if isAbsolute path then follow t [] name rest
  else if t.hasFolder root.saves then follow t root.saves name rest
  else .error .missing

end FilePlace

end Famiclone
