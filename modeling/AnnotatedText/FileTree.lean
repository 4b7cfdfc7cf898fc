import AnnotatedText.Bytes
import AnnotatedText.Text.Split

/-!
# File trees

A tree of files and directories seen from a working directory, as a value. A path is followed
component by component: each component but the last must be a directory, an empty component and a
single dot stay where they are, and two dots lead back. The working directory itself has the place
`[]`; the directories above it have places that consist of two dots, once for each step up, and a
path that begins with a slash leads from the place `["/"]`. All these are always there, but of what
else is in the directories above nothing is known that has not been put there.
-/

namespace AnnotatedText

/-- Why a file operation fails. -/
inductive FileFault where
  | notFound
  | alreadyExists
  | notDirectory
  | isDirectory
  deriving DecidableEq

/-- The wording of the fault. -/
def FileFault.message : FileFault → String
  | notFound => "No such file or directory (os error 2)"
  | alreadyExists => "File exists (os error 17)"
  | notDirectory => "Not a directory (os error 20)"
  | isDirectory => "Is a directory (os error 21)"

/-- What stands at a place of a tree. -/
inductive FileNode where
  | file (content : Bytes)
  | directory
  deriving DecidableEq

/-- The files and directories, by their places. -/
structure FileTree where
  nodes : List (List String × FileNode)
  deriving DecidableEq

namespace FileTree

/-- The tree of an empty working directory. -/
def empty : FileTree := ⟨[]⟩

/-- Whether a place is the working directory or one above it. -/
def isAbove (place : List String) : Bool := place.all (· == "..")

/-- What stands at a place. -/
def node? (t : FileTree) (place : List String) : Option FileNode :=
  if isAbove place ∨ place = ["/"] then some .directory
  else (t.nodes.find? (·.1 == place)).map Prod.snd

/-- The tree with something at a place. -/
def put (t : FileTree) (place : List String) (n : FileNode) : FileTree :=
  ⟨(place, n) :: t.nodes.filter (·.1 != place)⟩

/-- The components of a path, those between its slashes. A slash at its beginning is one itself. -/
def components (path : String) : List String :=
  match (Text.splitAll '/' path.toList).map String.ofList with
  | "" :: c :: rest => "/" :: c :: rest
  | cs => cs

/-- The components of a path that lead somewhere. -/
def namedComponents (path : String) : List String :=
  (components path).filter fun c => c ≠ "" ∧ c ≠ "."

/-- The place a component leads to from a directory. -/
def enter (place : List String) (component : String) : List String :=
  if component = "" ∨ component = "." then place
  else if component = "/" then ["/"]
  else if component = ".." then
    if isAbove place then place ++ [".."] else if place = ["/"] then place else place.dropLast
  else place ++ [component]

/-- Succeeds if there is a directory at the place. -/
def requireDirectory (t : FileTree) (place : List String) : Except FileFault Unit :=
  match t.node? place with
  | none => .error .notFound
  | some (.file _) => .error .notDirectory
  | some .directory => .ok ()

/-- The place that components lead to from a place. What stands there is not looked at. -/
def follow (t : FileTree) : List String → List String → Except FileFault (List String)
  | place, [] => .ok place
  | place, c :: rest =>
    match t.requireDirectory place with
    | .error e => .error e
    | .ok _ => t.follow (enter place c) rest

/-- What stands at the end of a path. -/
def lookup (t : FileTree) (path : String) : Except FileFault FileNode :=
  if path = "" then .error .notFound
  else match t.follow [] (components path) with
    | .error e => .error e
    | .ok place =>
      match t.node? place with
      | none => .error .notFound
      | some n => .ok n

/-- Whether a path leads to a directory. -/
def isDirectory (t : FileTree) (path : String) : Bool :=
  match t.lookup path with
  | .ok .directory => true
  | _ => false

/-- The content of the file at the end of a path. -/
def read (t : FileTree) (path : String) : Except FileFault Bytes :=
  match t.lookup path with
  | .error e => .error e
  | .ok .directory => .error .isDirectory
  | .ok (.file content) => .ok content

/-- The directory that components lead to. -/
def directoryAt (t : FileTree) (cs : List String) : Except FileFault (List String) :=
  match t.follow [] cs with
  | .error e => .error e
  | .ok place =>
    match t.requireDirectory place with
    | .error e => .error e
    | .ok _ => .ok place

/-- Whether a component may be the name of something new. -/
def isName (c : String) : Bool := c ≠ "" ∧ c ≠ "." ∧ c ≠ ".." ∧ c ≠ "/"

/-- Components without the empty ones that slashes at the end of a path leave. -/
def withoutSlashes (cs : List String) : List String := (cs.reverse.dropWhile (· == "")).reverse

/-- The components before the last one, and that one. Slashes at the end do not count. -/
def splitComponents (cs : List String) : List String × String :=
  ((withoutSlashes cs).dropLast, (withoutSlashes cs).getLastD "")

/-- Writes a file, in the stead of one that is there. Its directory must be there, and no slash may
follow its name. -/
def write (t : FileTree) (path : String) (content : Bytes) : Except FileFault FileTree :=
  let cs := components path
  let (before, name) := splitComponents cs
  if path = "" then .error .notFound
  else match t.directoryAt before with
    | .error e => .error e
    | .ok place =>
      if !isName name ∨ withoutSlashes cs ≠ cs then .error .isDirectory
      else if t.node? (place ++ [name]) = some .directory then .error .isDirectory
      else .ok (t.put (place ++ [name]) (.file content))

/-- Makes the directory that components lead to. -/
def makeDirectory (t : FileTree) (cs : List String) : Except FileFault FileTree :=
  let (before, name) := splitComponents cs
  match t.directoryAt before with
  | .error e => .error e
  | .ok place =>
    if !isName name ∨ (t.node? (place ++ [name])).isSome then .error .alreadyExists
    else .ok (t.put (place ++ [name]) .directory)

/-- Makes a directory, where one that is there already will do. -/
def ensureDirectory (t : FileTree) (cs : List String) : Except FileFault FileTree :=
  match t.makeDirectory cs with
  | .ok t => .ok t
  | .error e =>
    match t.directoryAt cs with
    | .ok _ => .ok t
    | .error _ => .error e

/-- Makes a directory; if one above it is missing, after `above` has made those. -/
def makeBelow (t : FileTree) (cs : List String)
    (above : FileTree → FileTree × Except FileFault Unit) : FileTree × Except FileFault Unit :=
  match t.ensureDirectory cs with
  | .ok t => (t, .ok ())
  | .error .notFound =>
    match above t with
    | (t, .error e) => (t, .error e)
    | (t, .ok _) =>
      match t.ensureDirectory cs with
      | .ok t => (t, .ok ())
      | .error e => (t, .error e)
  | .error e => (t, .error e)

/-- Makes a directory with the directories above it that are missing. The components are given from
the last one on. Directories that were made before a failure stay. -/
def makeChain : List String → FileTree → FileTree × Except FileFault Unit
  | [], t => (t, .ok ())
  | c :: above, t => t.makeBelow (c :: above).reverse (makeChain above)

/-- Makes a directory with the directories above it that are missing. -/
def makeDirectories (t : FileTree) (path : String) : FileTree × Except FileFault Unit :=
  if path = "" then (t, .ok ())
  else t.makeBelow (components path) (makeChain (namedComponents path).dropLast.reverse)

/-- Makes the directories above a path that are missing. -/
def makeParents (t : FileTree) (path : String) : FileTree × Except FileFault Unit :=
  makeChain (namedComponents path).dropLast.reverse t

/-- The last component of a path, if it is a name. -/
def fileName? (path : String) : Option String :=
  (namedComponents path).getLast?.filter isName

end FileTree

end AnnotatedText
