import ExprLang.Batch

/-!
# Folders

A snapshot of a folder, in which paths are looked up as an operating system looks them up:
part by part, each part a name in the directory reached so far. A dot stays in a directory and
two dots leave it. What lies outside of the folder counts as empty.
-/

namespace ExprLang

/-- What a folder holds at a path. -/
inductive FolderItem where
  /-- A file with its bytes. -/
  | file (bytes : List UInt8)
  /-- A directory. -/
  | directory

/-- The items of a folder, at any depth. -/
structure Folder where
  /-- Items with the names that lead to them, outermost directory first. -/
  items : List (List String × FolderItem)

namespace Folder

/-- Where a path has led to so far. -/
inductive Place where
  /-- A directory of the folder, by the names that lead to it. The folder itself has none. -/
  | inside (names : List String)
  /-- Outside of the folder. -/
  | outside
  /-- A file in the folder. -/
  | file (bytes : List UInt8)

/-- The most bytes that a name may have. -/
def maxNameBytes : Nat := 255

/-- The most bytes that a path may have. -/
def maxPathBytes : Nat := 4095

/-- The parts of a path, without the empty ones. -/
def parts (path : String) : List String :=
  ((path.toList.splitOn '/').filter (· ≠ [])).map String.ofList

/-- The folder with items at paths. -/
def ofPaths (items : List (String × FolderItem)) : Folder :=
  ⟨items.map fun (path, item) => ((parts path).filter (· ≠ "."), item)⟩

/-- The item that names lead to. Where other items lie below, there is a directory. -/
def item? (folder : Folder) (names : List String) : Option FolderItem :=
  match folder.items.lookup names with
  | some item => some item
  | none =>
    if folder.items.any (fun (longer, _) => names.isPrefixOf longer) then some .directory else none

/-- The place that names lead to from the folder. -/
def enter (folder : Folder) (names : List String) : Except FileProblem Place :=
  match folder.item? names with
  | some (.file bytes) => .ok (.file bytes)
  | some .directory => .ok (.inside names)
  | none => .error .missing

/-- Follow one part of a path. -/
def follow (folder : Folder) (place : Place) (part : String) : Except FileProblem Place :=
  match place with
  | .file _ => .error .notDirectory
  | .inside names =>
    if part = "." then .ok (.inside names)
    else if part = ".." then .ok (if names = [] then .outside else .inside names.dropLast)
    else if maxNameBytes < part.utf8ByteSize then .error .nameTooLong
    else folder.enter (names ++ [part])
  | .outside =>
    if part = "." ∨ part = ".." then .ok .outside
    else if maxNameBytes < part.utf8ByteSize then .error .nameTooLong
    else .error .missing

/-- Read the file that a path leads to. -/
def read (folder : Folder) : FileReader := fun path =>
  if path = "" then .error .missing
  else if maxPathBytes < path.utf8ByteSize then .error .nameTooLong
  else
    let start := if path.toList.head? = some '/' then Place.outside else .inside []
    match (parts path).foldlM folder.follow start with
    | .error problem => .error problem
    | .ok (.file bytes) => .ok bytes
    | .ok _ => .error .directory

end Folder

end ExprLang
