import AnnotatedText.Lexicon.Basic

/-!
# Events

What the operations report on the side: entries that were passed over or replaced, files that could
not be read. Events never decide anything.
-/

namespace AnnotatedText

/-- How much an event matters. -/
inductive EventLevel where
  | debug
  | warning
  | error
  deriving DecidableEq

/-- Something that happened on the side. -/
inductive Event where
  | entrySkipped (diagnostic : Diagnostic)
  /-- A later entry of the list took the place of one with the same key. -/
  | entryReplaced (list : String) (key : List String)
  | dictionaryBuilt (lists nodes : Nat)
  | dictionaryUnreadable (path reason : String)
  | listUnreadable (path reason : String)
  | entriesOmitted (count : Nat)
  deriving DecidableEq

namespace Event

/-- The level of the event. -/
def level : Event → EventLevel
  | entryReplaced _ _ | dictionaryBuilt _ _ => .debug
  | entrySkipped _ | dictionaryUnreadable _ _ | entriesOmitted _ => .warning
  | listUnreadable _ _ => .error

/-- The wording of the event. -/
def message : Event → String
  | entrySkipped diagnostic => "Skipped an entry, " ++ diagnostic.message
  | entryReplaced list key =>
    list ++ ": a later entry replaced " ++ Text.quoted (" ".intercalate key)
  | dictionaryBuilt lists nodes => s!"Built a dictionary of {lists} lists and {nodes} nodes"
  | dictionaryUnreadable path reason => "Failed to load a dictionary " ++ path ++ ": " ++ reason
  | listUnreadable path reason => "Failed to read " ++ path ++ ": " ++ reason
  | entriesOmitted count => s!"{count} entries were skipped"

end Event

end AnnotatedText
