import AnnotatedText.Dictionary.Basic
import AnnotatedText.Event
import AnnotatedText.FileTree
import AnnotatedText.Lexicon.Reading
import AnnotatedText.Place
import AnnotatedText.Trie.KeyTree

/-!
# Building dictionaries

A builder gathers lists. A list is added from the bytes of a lexicon or from entries given as such;
either way its faulty entries are left out with a diagnostic, and of two entries with one key the
later one counts. A list whose bytes cannot be read, that has no type for its annotations or no place
among the lists, is not added. Diagnostics are taken down while a lexicon is read, before the type
is looked at, so those of a list that is not added stay too.

Keys are gathered as a tree. A `TrieBuilder` with the same insertions builds the same trie, see
`DictionaryBuilder.exists_gather_finish`.
-/

namespace AnnotatedText

/-- Why a file cannot be read that is expected at a path. -/
inductive PathError where
  | directory (path : String)
  | fault (cause : FileFault)
  deriving DecidableEq

/-- The wording of the error. -/
def PathError.message : PathError → String
  | directory path => "The path '" ++ path ++ "' is a directory, but a file was expected."
  | fault cause => cause.message

/-- The content of the file at a path. -/
def FileTree.contentAt (t : FileTree) (path : String) : Except PathError Bytes :=
  if t.isDirectory path then .error (.directory path) else (t.read path).mapError .fault

/-- Why a list is not added. -/
inductive ListError where
  | unreadable (error : PathError)
  | noKeyFields
  | undecodable (list : String) (encoding : Encoding) (fault : Text.Utf8Error)
  | noTargetType (list : String)
  | noPlace
  /-- The reading of the lexicon was broken off, by which the program ends. -/
  | brokenOff
  deriving DecidableEq

/-- The wording of the error. -/
def ListError.message : ListError → String
  | unreadable error => error.message
  | noKeyFields => "InvalidArgumentError: format: key_fields must be at least 1"
  | undecodable list encoding fault =>
    "InvalidFormatError: " ++ list ++ ": not valid " ++ encoding.name ++ ": " ++ fault.message
  | noTargetType list => "InvalidArgumentError: list: " ++ list ++ " has no target type"
  | noPlace => PlaceError.noPlace.message
  | brokenOff => "mid > len"

/-- The lists added so far. -/
structure DictionaryBuilder where
  options : DictionaryOptions
  lists : List SourceList
  keys : KeyTree
  diagnostics : List Diagnostic
  deriving DecidableEq

namespace DictionaryBuilder

/-- A builder without lists. -/
def empty (options : DictionaryOptions) : DictionaryBuilder := ⟨options, [], .empty, []⟩

/-- The outcome of adding a list: the builder afterwards, what was reported and, if the list was not
added, why. -/
structure Addition where
  builder : DictionaryBuilder
  events : List Event
  error? : Option ListError

/-- Adds the entries of the list at the place `list` to the keys, and reports the replacements. -/
def insertEntries (caseSensitive : Bool) (name : String) (list : Nat) :
    KeyTree → List Entry → KeyTree × List Event
  | keys, [] => (keys, [])
  | keys, entry :: rest =>
    let key := entry.tokens.map (foldCase caseSensitive)
    let replaced := keys.holds key list
    let (keys', events) :=
      insertEntries caseSensitive name list (keys.insert key ⟨list, entry.attributes⟩) rest
    (keys', if replaced then .entryReplaced name key :: events else events)

/-- Takes diagnostics down. -/
def note (b : DictionaryBuilder) (diagnostics : List Diagnostic) : DictionaryBuilder :=
  { b with diagnostics := b.diagnostics ++ diagnostics }

/-- Does not add a list, whose diagnostics are taken down all the same. -/
def refuse (b : DictionaryBuilder) (diagnostics : List Diagnostic) (e : ListError) : Addition :=
  ⟨b.note diagnostics, diagnostics.map Event.entrySkipped, some e⟩

/-- Adds a list with what was harvested for it. -/
def addHarvest (b : DictionaryBuilder) (list : SourceList) (found : Harvest) : Addition :=
  if list.typeName = "" then b.refuse found.diagnostics (.noTargetType list.name)
  else if placeLimit ≤ b.lists.length then b.refuse found.diagnostics .noPlace
  else
    let (keys, events) :=
      insertEntries b.options.caseSensitive list.name b.lists.length b.keys found.entries
    ⟨{ b.note found.diagnostics with lists := b.lists ++ [list], keys := keys },
      found.diagnostics.map Event.entrySkipped ++ events, none⟩

/-- Adds a list from the bytes of a lexicon. -/
def addList (b : DictionaryBuilder) (list : SourceList) (format : LexiconFormat) (bytes : Bytes) :
    Addition :=
  if format.keyFields = 0 then ⟨b, [], some .noKeyFields⟩
  else match decodeLexicon format.encoding bytes with
    | .error fault => ⟨b, [], some (.undecodable list.name format.encoding fault)⟩
    | .ok text =>
      match readLexicon list format text with
      | .error diagnostics => b.refuse diagnostics .brokenOff
      | .ok found => b.addHarvest list found

/-- Adds a list from a lexicon that may be unreadable. -/
def addSource (b : DictionaryBuilder) (list : SourceList) (format : LexiconFormat)
    (source : Except PathError Bytes) : Addition :=
  match source with
  | .error e => ⟨b, [], some (.unreadable e)⟩
  | .ok bytes => b.addList list format bytes

/-- Adds a list of entries given as such. -/
def addEntries (b : DictionaryBuilder) (list : SourceList) (entries : List Entry) : Addition :=
  b.addHarvest list (checkEntries list entries)

/-- The dictionary of the lists added. -/
def build (b : DictionaryBuilder) : Dictionary :=
  ⟨b.options.caseSensitive, b.lists, b.keys.toTrie, b.options.compress⟩

/-- The dictionary of the lists added, if there is a place for each node of its trie. -/
def finish (b : DictionaryBuilder) : Except PlaceError Dictionary :=
  if b.keys.toTrie.size ≤ placeLimit then .ok b.build else .error .noPlace

/-- What is reported when the dictionary is built. -/
def buildEvents (b : DictionaryBuilder) : List Event :=
  [.dictionaryBuilt b.lists.length b.keys.toTrie.size]

end DictionaryBuilder

end AnnotatedText
