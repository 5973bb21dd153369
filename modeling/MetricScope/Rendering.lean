import MetricScope.Catalog.Build
import MetricScope.Dashboard.Json
import MetricScope.Disk

/-!
# Rendering the catalog into files

A rendering loads the configuration, builds all enabled dashboards and only then
writes them, one file each. It stops at the first step that fails or crashes; what is
reported of a crash is not the program's own and is left out.
-/

set_option autoImplicit false

namespace MetricScope.Rendering

inductive Failure where
  | load (path : String) (cause : Error)
  | overrides (cause : Error)
  | build (cause : Error)
  | createFolder (path : String) (cause : String)
  | write (path : String) (cause : String)
  deriving DecidableEq, Repr

namespace Failure

def parts : Failure → String × Option String
  | load path cause =>
      (String.join ["failed to load config from ", path], some cause.message)
  | overrides cause => ("invalid query overrides", some cause.message)
  | build cause => (cause.message, none)
  | createFolder path cause => (String.join ["failed to create ", path], some cause)
  | write path cause => (String.join ["failed to write ", path], some cause)

def linesOf (current : List Char) : List Char → List (List Char)
  | [] => if current.isEmpty then [] else [current]
  | c :: rest =>
      if c == '\n' then current :: linesOf [] rest else linesOf (current ++ [c]) rest

def lines (text : String) : List String :=
  (linesOf [] text.toList).map String.ofList

def report (f : Failure) : List String :=
  match f.parts with
  | (message, none) => lines ("Error: " ++ message)
  | (message, some cause) =>
    lines ("Error: " ++ message) ++ ["", "Caused by:"] ++
      (lines cause).map fun line => "    " ++ line

end Failure

structure OutputFile where
  name : String
  content : String
  deriving DecidableEq, Repr

def OutputFile.ofDashboard (d : Dashboard) : OutputFile :=
  ⟨d.name ++ ".json", d.encode.pretty⟩

def dashboards (path : String) (content : FileContent) :
    Except (Halt Failure) (List Dashboard) :=
  match Config.load content with
  | .error cause => .error (.failed (.load path cause))
  | .ok config =>
    match Catalog.Context.ofConfig config with
    | .error cause => .error (.failed (.overrides cause))
    | .ok ctx =>
      match Catalog.build ctx config.dashboards with
      | .error halt => .error (halt.map .build)
      | .ok built => .ok built

def joinPath (folder name : String) : String :=
  if folder.isEmpty || folder.toList.getLast? == some '/' then folder ++ name
  else folder ++ "/" ++ name

def defaultConfigPath : String := "./promdash.toml"

def defaultOutputFolder : String := "./build/dashboards"

def contentAt (disk : Disk ByteArray) (path : String) : FileContent :=
  if path.isEmpty then .missing
  else
    match disk.file? (Path.ofText path) with
    | some bytes => .bytes bytes
    | none => if disk.isFolder (Path.ofText path) then .directory else .missing

/-- What a rendering asks of a disk, in the monad `m`. A step that cannot be done answers
why. -/
structure Host (m : Type → Type) where
  read : String → m FileContent
  makeFolder : String → m (Except String Unit)
  writeFile : String → String → m (Except String Unit)

section

variable {m : Type → Type} [Monad m]

def writeAll (host : Host m) (folder : String) :
    List OutputFile → m (Option (Halt Failure))
  | [] => pure none
  | file :: rest => do
    let path := joinPath folder file.name
    match ← host.writeFile path file.content with
    | .ok () => writeAll host folder rest
    | .error cause => pure (some (.failed (.write path cause)))

def render (host : Host m) (configPath folder : String) : m (Option (Halt Failure)) := do
  match dashboards configPath (← host.read configPath) with
  | .error halt => pure (some halt)
  | .ok built =>
    match ← host.makeFolder folder with
    | .ok () => writeAll host folder (built.map OutputFile.ofDashboard)
    | .error cause => pure (some (.failed (.createFolder folder cause)))

end

def change (f : Disk ByteArray → Except DiskFault (Disk ByteArray)) :
    StateM (Disk ByteArray) (Except String Unit) := fun disk =>
  match f disk with
  | .ok disk => (.ok (), disk)
  | .error fault => (.error fault.message, disk)

def onDisk : Host (StateM (Disk ByteArray)) where
  read path := do return contentAt (← get) path
  makeFolder path := change fun disk => disk.makeFolder (Path.ofText path)
  writeFile path content := change fun disk =>
    disk.writeFile (Path.ofText path) content.toUTF8

def run (configPath folder : String) (disk : Disk ByteArray) :
    Disk ByteArray × Option (Halt Failure) :=
  let (halt, after) := Id.run ((render onDisk configPath folder).run disk)
  (after, halt)

def exitCode : Option (Halt Failure) → Nat
  | none => 0
  | some (.failed _) => 1
  | some .crashed => 101

end MetricScope.Rendering
