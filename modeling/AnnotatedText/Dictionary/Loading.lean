import AnnotatedText.Container.Basic
import AnnotatedText.Dictionary.Builder

/-!
# Dictionaries in files

Dictionaries are saved to and loaded from the files of a tree, in the formats of a codec. Of several
files those that cannot be loaded are reported, and the others are loaded all the same.
-/

namespace AnnotatedText

/-- Why a dictionary cannot be loaded. -/
inductive LoadError where
  | unreadable (error : PathError)
  | malformed (fault : Container.Fault)
  deriving DecidableEq

/-- The wording of the error. -/
def LoadError.message : LoadError → String
  | unreadable error => error.message
  | malformed fault => "DictionaryFormatError: " ++ fault.message

namespace Dictionary

/-- Loads the dictionary in the file at a path. -/
def load (k : Container.Codec) (t : FileTree) (path : String) : Except LoadError Dictionary :=
  match t.contentAt path with
  | .error e => .error (.unreadable e)
  | .ok bytes => (k.read bytes).mapError .malformed

/-- Saves a dictionary to the file at a path. -/
def save (d : Dictionary) (k : Container.Codec) (t : FileTree) (path : String) :
    Except FileFault FileTree :=
  t.write path (k.write d)

/-- The dictionaries that were loaded and the errors of the others, each with its path and in the
order of the paths. -/
structure LoadReport where
  loaded : List (String × Dictionary)
  failed : List (String × LoadError)

/-- Loads the dictionaries in the files at paths. -/
def loadAll (k : Container.Codec) (t : FileTree) : List String → LoadReport
  | [] => ⟨[], []⟩
  | path :: rest =>
    let more := loadAll k t rest
    match load k t path with
    | .ok d => { more with loaded := (path, d) :: more.loaded }
    | .error e => { more with failed := (path, e) :: more.failed }

/-- What is reported of the files that could not be loaded. -/
def LoadReport.events (r : LoadReport) : List Event :=
  r.failed.map fun (path, e) => .dictionaryUnreadable path e.message

end Dictionary

end AnnotatedText
