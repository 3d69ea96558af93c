/-!
Paths, and a small tree of folders and files in which they are looked up. A path is taken
relative to the root of the tree; what lies outside of the tree is not known, except that
the folders on the way out exist.
-/

namespace ScriptDisassembler

namespace Path

private def segments (path : String) : List String :=
  (path.toList.splitOn '/').map String.ofList

private def isIdle (segment : String) : Bool :=
  segment == "" || segment == "."

/-- Drops separators and dots that say nothing from the end of a path. -/
private def trimBack (body : List String) : List String :=
  (body.reverse.dropWhile isIdle).reverse

private def join (segments : List String) : String :=
  "/".intercalate segments

/-- The path without its last segment. A root has no parent and neither has the empty path.
A leading dot counts as a segment, and double separators inside the path are kept. -/
def parent? (path : String) : Option String :=
  let withRoot (lead : String) (body : List String) : String :=
    if body.isEmpty then lead else join (lead :: body)
  match segments path with
  | "" :: body@(_ :: _) =>
    match trimBack body with
    | [] => none
    | body =>
      match trimBack body.dropLast with
      | [] => some "/"
      | body => some ("/" ++ join body)
  | "." :: body =>
    match trimBack body with
    | [] => some ""
    | body => some (withRoot "." (trimBack body.dropLast))
  | body =>
    match trimBack body with
    | [] => none
    | body => some (join (trimBack body.dropLast))

/-- A path with one more segment. -/
def append (path segment : String) : String :=
  if path.isEmpty || path.endsWith "/" then path ++ segment else path ++ "/" ++ segment

end Path

/-- Why a file could not be read. -/
inductive FileFault where
  | missing
  /-- A file stands where the path needs a folder. -/
  | notFolder
  | isFolder
  | nameTooLong
  | notText
  | other (text : String)
deriving DecidableEq

namespace FileFault

def message : FileFault → String
  | missing => "No such file or directory (os error 2)"
  | notFolder => "Not a directory (os error 20)"
  | isFolder => "Is a directory (os error 21)"
  | nameTooLong => "File name too long (os error 36)"
  | notText => "stream did not contain valid UTF-8"
  | other text => text

end FileFault

/-- The text of a file. -/
def textOfBytes (bytes : List UInt8) : Except FileFault String :=
  match String.fromUTF8? ⟨bytes.toArray⟩ with
  | some text => .ok text
  | none => .error .notText

/-- Folders and files by the segments of their paths. Folders that hold something need not be
listed. -/
structure Directory where
  folders : List (List String)
  files : List (List String × List UInt8)

namespace Directory

/-- Where a walk along a path stands. -/
inductive Place where
  | folder (path : List String)
  | file (content : List UInt8)
  /-- In a folder outside of the tree. -/
  | outside

/-- A name has at most so many bytes in UTF-8. -/
def nameLimit : Nat := 255

/-- A path has at most so many bytes in UTF-8. -/
def pathLimit : Nat := 4095

private def folderAt (directory : Directory) (path : List String) : Bool :=
  (directory.folders ++ directory.files.map fun file => file.1.dropLast).any path.isPrefixOf

private def enter (directory : Directory) (place : Place) (segment : String) :
    Except FileFault Place :=
  match place, segment with
  | .file _, _ => .error .notFolder
  | place, "" | place, "." => .ok place
  | .outside, ".." => .ok .outside
  | .outside, name => .error (if nameLimit < name.utf8ByteSize then .nameTooLong else .missing)
  | .folder [], ".." => .ok .outside
  | .folder path, ".." => .ok (.folder path.dropLast)
  | .folder path, name =>
    let path := path ++ [name]
    match directory.files.lookup path with
    | some content => .ok (.file content)
    | none =>
      if directory.folderAt path then .ok (.folder path)
      else .error (if nameLimit < name.utf8ByteSize then .nameTooLong else .missing)

/-- Walks along a path. -/
def find (directory : Directory) (path : String) : Except FileFault Place :=
  match path.toList with
  | [] => .error .missing
  | first :: _ =>
    if pathLimit < path.utf8ByteSize then .error .nameTooLong
    else (Path.segments path).foldlM directory.enter (if first = '/' then .outside else .folder [])

def read (directory : Directory) (path : String) : Except FileFault (List UInt8) :=
  match directory.find path with
  | .ok (.file content) => .ok content
  | .ok _ => .error .isFolder
  | .error fault => .error fault

def readText (directory : Directory) (path : String) : Except FileFault String :=
  directory.read path >>= textOfBytes

def hasFolder (directory : Directory) (path : String) : Bool :=
  match directory.find path with
  | .ok (.file _) | .error _ => false
  | .ok _ => true

end Directory

end ScriptDisassembler
