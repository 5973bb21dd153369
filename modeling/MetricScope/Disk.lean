/-!
# A directory tree

The part of a disk that a rendering sees: ordinary files and folders under one working
directory. A folder is there if it was made or if something stands in it.
-/

set_option autoImplicit false

namespace MetricScope

inductive DiskFault where
  | fileExists
  | notFolder
  | isFolder
  deriving DecidableEq, Repr

def DiskFault.message : DiskFault → String
  | fileExists => "File exists (os error 17)"
  | notFolder => "Not a directory (os error 20)"
  | isFolder => "Is a directory (os error 21)"

abbrev Path := List String

namespace Path

def segments (current : List Char) : List Char → List (List Char)
  | [] => [current]
  | c :: rest =>
      if c == '/' then current :: segments [] rest else segments (current ++ [c]) rest

/-- Leaves out what stays in place and goes up where two dots stand. Only the text counts, not
what is on the disk: two dots take back the name in front of them though it be no folder's,
a slash at the end asks for no folder, and nothing leads out of the working directory. -/
def ofText (text : String) : Path :=
  (segments [] text.toList).foldl (fun path segment =>
    match segment with
    | [] | ['.'] => path
    | ['.', '.'] => path.dropLast
    | name => path ++ [String.ofList name]) []

def text (path : Path) : String :=
  match path with
  | [] => ""
  | [name] => name
  | name :: rest => name ++ "/" ++ text rest

end Path

structure Disk (Content : Type) where
  files : List (Path × Content)
  folders : List Path
  deriving Repr

namespace Disk

variable {Content : Type}

def empty : Disk Content := ⟨[], []⟩

def file? (d : Disk Content) (path : Path) : Option Content :=
  (d.files.find? fun file => file.1 == path).map Prod.snd

def isFile (d : Disk Content) (path : Path) : Bool :=
  (d.file? path).isSome

def isFolder (d : Disk Content) (path : Path) : Bool :=
  path.isEmpty || d.folders.any path.isPrefixOf ||
    d.files.any fun file => path.isPrefixOf file.1 && path != file.1

def ancestors (path : Path) : List Path :=
  (List.range path.length).map path.take

def makeFolder (d : Disk Content) (path : Path) : Except DiskFault (Disk Content) :=
  if d.isFile path then .error .fileExists
  else if (ancestors path).any d.isFile then .error .notFolder
  else .ok { d with folders := path :: d.folders }

def writeFile (d : Disk Content) (path : Path) (content : Content) :
    Except DiskFault (Disk Content) :=
  if d.isFolder path then .error .isFolder
  else .ok { d with files := (path, content) :: d.files.filter fun file => file.1 != path }

theorem file?_writeFile {d d' : Disk Content} {path : Path} {content : Content}
    (h : d.writeFile path content = .ok d') : d'.file? path = some content := by
  unfold writeFile at h
  split at h
  · cases h
  · cases h
    simp [file?]

end Disk

end MetricScope
