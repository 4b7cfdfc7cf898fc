import AnnotatedText.Command.Arguments
import AnnotatedText.Command.ListSpec
import AnnotatedText.Dictionary.Loading

/-!
# The build command

Builds a dictionary from lexicon files and writes it. Files that cannot be read are reported and
left out; the command fails if no list is left. All reading and building is in `prepare`, which gets
the contents of the files from a function, and only what it has prepared is written, in the formats
of a codec. Where the reading of a lexicon is broken off, so is the command.
-/

namespace AnnotatedText.Build

/-- The parameters of the command. -/
inductive Parameter where
  | lists
  | output
  | delimiter
  | keyFields
  | encoding
  | ignoreCase
  | noCompress
  | help
  deriving DecidableEq

/-- The arguments of the command. -/
structure Args where
  lists : List ListSpec
  output : String
  delimiter : Char
  keyFields : Nat
  encoding : Encoding
  ignoreCase : Bool
  noCompress : Bool
  deriving DecidableEq

/-- The arguments before any is given. An output is never empty once it is given. -/
def Args.initial : Args := ⟨[], "", ';', 1, .utf8, false, false⟩

/-- Reads a text that is a single character. -/
def readCharacter (value : String) : Except Arguments.Fault Char :=
  match value.toList with
  | [c] => .ok c
  | [] => .error (.badValue "cannot parse char from empty string")
  | _ => .error (.badValue "too many characters in string")

/-- Stores a value. -/
def store (parameter : Parameter) (value : String) (a : Args) : Except Arguments.Fault Args :=
  match parameter with
  | .lists =>
    match ListSpec.read value with
    | .error e => .error (.badValue e.message)
    | .ok spec => .ok { a with lists := a.lists ++ [spec] }
  | .output => if value = "" then .error .noValue else .ok { a with output := value }
  | .delimiter => (readCharacter value).map fun c => { a with delimiter := c }
  | .keyFields =>
    match Text.readNatural Text.wordLimit value.toList with
    | .error e => .error (.badValue e.message)
    | .ok n => .ok { a with keyFields := n }
  | .encoding =>
    match Encoding.ofName? value with
    | none => .error (.badValue Encoding.unknownMessage)
    | some e => .ok { a with encoding := e }
  | .ignoreCase => .ok { a with ignoreCase := true }
  | .noCompress => .ok { a with noCompress := true }
  | .help => .ok a

/-- The parameters and their options. -/
def grammar : Arguments.Grammar Parameter Args where
  options :=
    [⟨.output, "output", some 'o', .valued⟩, ⟨.delimiter, "delimiter", some 'd', .valued⟩,
     ⟨.keyFields, "key-fields", some 'k', .valued⟩, ⟨.encoding, "encoding", some 'e', .valued⟩,
     ⟨.ignoreCase, "ignore-case", none, .flag⟩, ⟨.noCompress, "no-compress", none, .flag⟩,
     ⟨.help, "help", some 'h', .help⟩]
  positional? := some .lists
  store := store

/-- Reads the arguments. There must be a list and an output. -/
def readArgs (args : List String) : Except Arguments.Fault Args :=
  match Arguments.read grammar .initial args with
  | .error e => .error e
  | .ok a => if a.lists = [] ∨ a.output = "" then .error .missing else .ok a

/-- Why the command fails. -/
inductive Fault where
  | invalidDelimiter (c : Char)
  | noListLoaded (count : Nat)
  | unbuildable (cause : PlaceError)
  | file (cause : FileFault)
  /-- The reading of a lexicon was broken off, and the program with it. -/
  | brokenOff
  deriving DecidableEq

/-- The wording of the fault. -/
def Fault.message : Fault → String
  | invalidDelimiter c =>
    "The delimiter must be a single ASCII character: " ++ Text.quotedAlone c
  | noListLoaded count => s!"None of the {count} source lists could be read"
  | unbuildable cause => "Dictionary building failed: " ++ cause.message
  | file cause => "I/O error: " ++ cause.message
  | brokenOff => ListError.brokenOff.message

/-- What the command has done: the lines printed, the events reported and a result. -/
structure Outcome (α : Type) where
  printed : List String
  events : List Event
  result : Except Fault α

/-- The format of the lexicons. -/
def Args.format (a : Args) : LexiconFormat :=
  ⟨UInt8.ofNat a.delimiter.toNat, a.keyFields, a.encoding⟩

/-- The options of the dictionary. -/
def Args.options (a : Args) : DictionaryOptions := ⟨!a.ignoreCase, !a.noCompress⟩

/-- What adding lists has come to: the builder afterwards, what was reported, and whether a lexicon
was met whose reading is broken off. -/
structure ListsAdded where
  builder : DictionaryBuilder
  events : List Event
  brokenOff : Bool

/-- Adds the lists that can be read, and reports on the others. -/
def addLists (format : LexiconFormat) (read : String → Except PathError Bytes) :
    List ListSpec → DictionaryBuilder → ListsAdded
  | [], b => ⟨b, [], false⟩
  | spec :: rest, b =>
    let addition := b.addSource spec.toSourceList format (read spec.path)
    if addition.error? = some .brokenOff then ⟨addition.builder, addition.events, true⟩
    else
      let failure := addition.error?.toList.map fun e => Event.listUnreadable spec.path e.message
      let more := addLists format read rest addition.builder
      { more with events := addition.events ++ failure ++ more.events }

/-- What is reported of entries that were left out. -/
def omissions (b : DictionaryBuilder) : List Event :=
  if b.diagnostics = [] then [] else [.entriesOmitted b.diagnostics.length]

/-- Reads the lists and builds their dictionary. -/
def prepare (a : Args) (read : String → Except PathError Bytes) : Outcome Dictionary :=
  if a.delimiter.toNat ≥ 128 then ⟨[], [], .error (.invalidDelimiter a.delimiter)⟩
  else
    let opening := s!"Compiling {a.lists.length} source lists..."
    let added := addLists a.format read a.lists (.empty a.options)
    let b := added.builder
    if added.brokenOff then ⟨[opening], added.events, .error .brokenOff⟩
    else if b.lists = [] then
      ⟨[opening], added.events, .error (.noListLoaded a.lists.length)⟩
    else match b.finish with
      | .error e => ⟨[opening], added.events ++ omissions b, .error (.unbuildable e)⟩
      | .ok d =>
        ⟨[opening, s!"Writing {d.entryCount} entries of {d.lists.length} lists..."],
          added.events ++ omissions b ++ b.buildEvents, .ok d⟩

/-- What is printed when the dictionary is written. -/
def success (a : Args) : String := "Successfully built the dictionary to " ++ a.output

/-- Runs the command on a file tree. What was made of it before a failure stays. -/
def run (k : Container.Codec) (a : Args) (t : FileTree) : Outcome Unit × FileTree :=
  let prepared := prepare a t.contentAt
  match prepared.result with
  | .error e => (⟨prepared.printed, prepared.events, .error e⟩, t)
  | .ok d =>
    match t.makeParents a.output with
    | (t, .error e) => (⟨prepared.printed, prepared.events, .error (.file e)⟩, t)
    | (t, .ok _) =>
      match d.save k t a.output with
      | .error e => (⟨prepared.printed, prepared.events, .error (.file e)⟩, t)
      | .ok t => (⟨prepared.printed ++ [success a], prepared.events, .ok ()⟩, t)

end AnnotatedText.Build
