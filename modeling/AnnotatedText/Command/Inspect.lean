import AnnotatedText.Command.Arguments
import AnnotatedText.Command.ListSpec
import AnnotatedText.Dictionary.Loading

/-!
# The inspect command

Prints a summary of a container: what its header says, and then, if its body is in order, what is in
its dictionary.
-/

namespace AnnotatedText.Inspect

/-- The parameters of the command. -/
inductive Parameter where
  | input
  | help
  deriving DecidableEq

/-- Stores a value. -/
def store (parameter : Parameter) (value : String) (input : String) :
    Except Arguments.Fault String :=
  match parameter with
  | .input => if value = "" then .error .noValue else .ok value
  | .help => .ok input

/-- The parameters and their options. -/
def grammar : Arguments.Grammar Parameter String where
  options := [⟨.input, "input", some 'i', .valued⟩, ⟨.help, "help", some 'h', .help⟩]
  positional? := none
  store := store

/-- Reads the arguments: the path of the container, which must be given. -/
def readArgs (args : List String) : Except Arguments.Fault String :=
  match Arguments.read grammar "" args with
  | .error e => .error e
  | .ok input => if input = "" then .error .missing else .ok input

/-- Why the command fails. -/
inductive Fault where
  | file (cause : FileFault)
  | malformed (cause : Container.Fault)
  deriving DecidableEq

/-- The wording of the fault. -/
def Fault.message : Fault → String
  | file cause => "I/O error: " ++ cause.message
  | malformed cause => "Dictionary loading failed: " ++ (LoadError.malformed cause).message

/-- What the command has done: the lines printed, and the fault that ended it. -/
structure Outcome where
  printed : List String
  fault? : Option Fault

/-- A truth value in a summary. -/
def truth (b : Bool) : String := if b then "true" else "false"

/-- The lines on a header. -/
def headerLines (path : String) (h : Container.Header) : List String :=
  ["file:           " ++ path, "version:        " ++ toString h.version,
   "compressed:     " ++ truth h.compressed, "sha256:         " ++ Bytes.hex h.digest]

/-- The line on the list at a place. -/
def listLine (place : Nat) (l : SourceList) : String :=
  "  [" ++ toString place ++ "] " ++ l.name ++ " -> " ++ l.typeName ++
    "(" ++ ListSpec.columnsText l.columns ++ ")"

/-- The lines on a dictionary. -/
def dictionaryLines (d : Dictionary) : List String :=
  ["case sensitive: " ++ truth d.caseSensitive, "nodes:          " ++ toString d.trie.size,
   "entries:        " ++ toString d.entryCount, "lists:"] ++ d.lists.mapIdx listLine

/-- The summary of the container at a path, given what can be read there. -/
def summarize (k : Container.Codec) (path : String) (source : Except FileFault Bytes) : Outcome :=
  match source with
  | .error e => ⟨[], some (.file e)⟩
  | .ok bytes =>
    match Container.Header.read bytes with
    | .error e => ⟨[], some (.malformed e)⟩
    | .ok header =>
      match k.read bytes with
      | .error e => ⟨headerLines path header, some (.malformed e)⟩
      | .ok d => ⟨headerLines path header ++ dictionaryLines d, none⟩

/-- Runs the command on a file tree. -/
def run (k : Container.Codec) (path : String) (t : FileTree) : Outcome :=
  summarize k path (t.read path)

end AnnotatedText.Inspect
