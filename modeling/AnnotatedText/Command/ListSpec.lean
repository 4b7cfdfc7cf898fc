import AnnotatedText.FileTree
import AnnotatedText.Lexicon.Basic
import AnnotatedText.Text.Blank
import AnnotatedText.Text.Quoted
import AnnotatedText.Text.Split

/-!
# List specifications

On the command line a list is given as `PATH=TYPE` or `PATH=TYPE(NAME:KIND,...)`. The last equals
sign ends the path, so a path may hold others; the first parenthesis behind it begins the columns,
which must end with the specification. Blank columns do not count.
-/

namespace AnnotatedText

/-- A list on the command line: the path of its lexicon, its type and its columns. -/
structure ListSpec where
  path : String
  typeName : String
  columns : List Column
  deriving DecidableEq

/-- Why a text is no list specification. -/
inductive ListSpecFault where
  | noTarget (spec : String)
  | noPath (spec : String)
  | unclosedColumns (spec : String)
  | noKind (column : String)
  | unknownKind (kind : String)
  | noTypeName (spec : String)
  deriving DecidableEq

/-- The wording of the fault. -/
def ListSpecFault.message : ListSpecFault → String
  | noTarget spec => "expected PATH=TYPE, got " ++ Text.quoted spec
  | noPath spec => "missing path in " ++ Text.quoted spec
  | unclosedColumns spec => "unclosed column list in " ++ Text.quoted spec
  | noKind column => "expected NAME:KIND, got " ++ Text.quoted column
  | unknownKind kind => "unknown column kind " ++ Text.quoted kind
  | noTypeName spec => "missing type name in " ++ Text.quoted spec

namespace ListSpec

/-- Reads a column. -/
def readColumn (cs : List Char) : Except ListSpecFault Column :=
  match Text.splitFirst ':' cs with
  | none => .error (.noKind (String.ofList cs))
  | some (name, kind) =>
    match Kind.ofName? (String.ofList (Text.trim kind)) with
    | none => .error (.unknownKind (String.ofList kind))
    | some k => .ok ⟨String.ofList (Text.trim name), k⟩

/-- Reads columns, up to the first one that is none. -/
def readColumns : List (List Char) → Except ListSpecFault (List Column)
  | [] => .ok []
  | cs :: rest =>
    if Text.allBlank cs then readColumns rest
    else match readColumn cs with
      | .error e => .error e
      | .ok c => (readColumns rest).map (c :: ·)

/-- Reads the part behind the path: the untrimmed name of the type and the columns. -/
def readTarget (spec : String) (target : List Char) :
    Except ListSpecFault (List Char × List Column) :=
  match Text.splitFirst '(' target with
  | none => .ok (target, [])
  | some (typeName, rest) =>
    if rest.getLast? = some ')' then
      (readColumns (Text.splitAll ',' rest.dropLast)).map fun columns => (typeName, columns)
    else .error (.unclosedColumns spec)

/-- Reads a list specification. -/
def read (spec : String) : Except ListSpecFault ListSpec :=
  match Text.splitLast '=' spec.toList with
  | none => .error (.noTarget spec)
  | some (path, target) =>
    if path = [] then .error (.noPath spec)
    else match readTarget spec target with
      | .error e => .error e
      | .ok (typeName, columns) =>
        let name := Text.trim typeName
        if name = [] then .error (.noTypeName spec)
        else .ok ⟨String.ofList path, String.ofList name, columns⟩

/-- The declaration of the list, which has its name from the last component of the path. -/
def toSourceList (s : ListSpec) : SourceList :=
  ⟨(FileTree.fileName? s.path).getD s.path, s.typeName, s.columns⟩

/-- The columns as they are shown with a list. -/
def columnsText (columns : List Column) : String :=
  ",".intercalate (columns.map fun c => c.name ++ ":" ++ c.kind.name)

/-- The specification as it is shown in a diagnostic. -/
def inspect (s : ListSpec) : String :=
  "ListSpec \x7b path: " ++ Text.quoted s.path ++ ", type_name: " ++ Text.quoted s.typeName ++
    ", columns: [" ++ ", ".intercalate (s.columns.map fun c =>
      "(" ++ Text.quoted c.name ++ ", " ++ c.kind.name ++ ")") ++ "] \x7d"

end ListSpec

end AnnotatedText
