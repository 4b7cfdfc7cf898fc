import AnnotatedText.Command.Build
import AnnotatedText.Command.Inspect

/-!
# The command line

`build` makes a dictionary of lexicon files, `inspect` prints a summary of one. Only the reading and
writing of files and the printing happen here, and the codec is chosen.
-/

namespace AnnotatedText.CommandLine

/-- The formats in which dictionaries are written and read. -/
def codec : Container.Codec := .standard

/-- The failures that the commands report; others end the program. -/
def fileFault : IO.Error → IO FileFault
  | .noFileOrDirectory .. => return .notFound
  | .alreadyExists .. => return .alreadyExists
  | .inappropriateType _ code _ => return if code = 21 then .isDirectory else .notDirectory
  | e => throw e

/-- Does something that may fail. -/
def attempt {α : Type} (action : IO α) : IO (Except FileFault α) := do
  try
    return .ok (← action)
  catch e => return .error (← fileFault e)

/-- Reads the file at a path. -/
def readFile (path : String) : IO (Except FileFault Bytes) :=
  attempt do return (← IO.FS.readBinFile path).toList

/-- Reads the files at paths, each with its path. -/
def readFiles (paths : List String) : IO (List (String × Except FileFault Bytes)) :=
  paths.mapM fun path => do return (path, ← readFile path)

/-- What was read at a path. -/
def source (files : List (String × Except FileFault Bytes)) (path : String) :
    Except PathError Bytes :=
  match files.find? (·.1 == path) with
  | some (_, .ok bytes) => .ok bytes
  | some (_, .error .isDirectory) => .error (.directory path)
  | some (_, .error e) => .error (.fault e)
  | none => .error (.fault .notFound)

/-- Makes a directory, where one that is there already will do. -/
def ensureDirectory (path : String) : IO (Except FileFault Unit) := do
  match ← attempt (IO.FS.createDir path) with
  | .ok _ => return .ok ()
  | .error e =>
    match ← readFile path with
    | .error .isDirectory => return .ok ()
    | _ => return .error e

/-- Makes a directory with the directories above it that are missing. The components are given from
the last one on. -/
def makeChain : List String → IO (Except FileFault Unit)
  | [] => return .ok ()
  | c :: above => do
    let path := "/".intercalate (c :: above).reverse
    match ← ensureDirectory path with
    | .error .notFound =>
      match ← makeChain above with
      | .error e => return .error e
      | .ok _ => ensureDirectory path
    | result => return result

/-- Writes a file, with the directories above it. -/
def writeFile (path : String) (bytes : Bytes) : IO (Except FileFault Unit) := do
  match ← makeChain (FileTree.namedComponents path).dropLast.reverse with
  | .error e => return .error e
  | .ok _ => attempt (IO.FS.writeBinFile path ⟨bytes.toArray⟩)

/-- The name of a level. -/
def levelName : EventLevel → String
  | .debug => "DEBUG"
  | .warning => "WARN"
  | .error => "ERROR"

/-- Prints the events that matter to a user. -/
def report (events : List Event) : IO Unit :=
  (events.filter (·.level ≠ .debug)).forM fun e =>
    IO.eprintln (levelName e.level ++ " " ++ e.message)

/-- Ends the program with a message. -/
def fail (message : String) : IO UInt32 := do
  IO.eprintln ("Error: " ++ message)
  return 1

/-- Ends the program where it is broken off. -/
def abort (message : String) : IO UInt32 := do
  IO.eprintln message
  return 101

/-- The answer to arguments that are refused. -/
def refuse (usage : String) : Arguments.Fault → IO UInt32
  | .helpRequested => do
    IO.println usage
    return 0
  | .badValue detail => do
    IO.eprintln ("error: " ++ detail)
    return 2
  | .noValue | .excessValue | .repeated | .unknown | .missing => do
    IO.eprintln usage
    return 2

/-- Runs the build command. -/
def build (args : List String) : IO UInt32 := do
  match Build.readArgs args with
  | .error e => refuse "usage: build PATH=TYPE... -o OUTPUT" e
  | .ok a =>
    let files ← readFiles (a.lists.map ListSpec.path)
    let prepared := Build.prepare a (source files)
    prepared.printed.forM IO.println
    report prepared.events
    match prepared.result with
    | .error .brokenOff => abort Build.Fault.brokenOff.message
    | .error e => fail e.message
    | .ok d =>
      match ← writeFile a.output (codec.write d) with
      | .error e => fail (Build.Fault.file e).message
      | .ok _ =>
        IO.println (Build.success a)
        return 0

/-- Runs the inspect command. -/
def inspect (args : List String) : IO UInt32 := do
  match Inspect.readArgs args with
  | .error e => refuse "usage: inspect -i INPUT" e
  | .ok path =>
    let outcome := Inspect.summarize codec path (← readFile path)
    outcome.printed.forM IO.println
    match outcome.fault? with
    | some e => fail e.message
    | none => return 0

end AnnotatedText.CommandLine

/-- Runs the command that the first argument names. -/
def main (args : List String) : IO UInt32 :=
  match args with
  | "build" :: _ => AnnotatedText.CommandLine.build args
  | "inspect" :: _ => AnnotatedText.CommandLine.inspect args
  | _ => do
    IO.eprintln "usage: (build | inspect) ARGUMENT..."
    return 2
