import AnnotatedText.Dictionary.Basic

/-!
# Scans

A scan finds the keys of a dictionary in a sequence of tokens. One walk through the trie from each
token finds all keys that begin there, the shortest first, and takes the longest of each list. In
the scope of each list the lists do not know of each other: a match of one does not keep another
from matching. In the merged scope there is at most one match at a token, the longest of all, and of
two lists with that key the first one has it.

Unless overlaps are allowed, a match that begins inside an earlier one is passed over; whether it
does is asked of the matches of the same list, or of all matches in the merged scope. `free` is
where the last match ends: for each list, or for all of them.
-/

namespace AnnotatedText

/-- Which matches know of each other. -/
inductive MatchScope where
  | perList
  | merged
  deriving DecidableEq

/-- A match: the first token, the one behind the last, the list and the node of the key. -/
structure Match where
  start : Nat
  stop : Nat
  list : Nat
  node : Nat
  deriving DecidableEq

namespace Scan

/-- What was found at a token, for each list the longest of its keys so far. -/
abbrev Slots := List (Option Trie.Hit)

/-- Notes a key for each list that has it, over a shorter one. -/
def note (t : Trie) (slots : Slots) (h : Trie.Hit) : Slots :=
  (t.markersAt h.node).foldl (fun slots m => slots.set m.list (some h)) slots

/-- The longest key of each list, of `count` in number, among those found at a token. -/
def longest (t : Trie) (count : Nat) (hits : List Trie.Hit) : Slots :=
  hits.foldl (note t) (List.replicate count none)

/-- The match at a token for one list, whose longest key there is `slot` and whose last match ends at
`free`, and where its last match ends then. -/
def matchList (overlap : Bool) (start list : Nat) (slot : Option Trie.Hit) (free : Nat) :
    Option Match × Nat :=
  match slot with
  | none => (none, free)
  | some h =>
    if overlap ∨ free ≤ start then (some ⟨start, start + h.depth, list, h.node⟩, start + h.depth)
    else (none, free)

/-- The matches at a token for the lists from the place `list` on, and where their last matches end
then. -/
def matchLists (overlap : Bool) (start : Nat) : Nat → Slots → List Nat → List Match × List Nat
  | list, slot :: slots, free :: rest =>
    let (found?, free) := matchList overlap start list slot free
    let (ms, rest) := matchLists overlap start (list + 1) slots rest
    (found?.toList ++ ms, free :: rest)
  | _, _, _ => ([], [])

/-- The matches of each list in the tokens from the place `start` on. -/
def perList (t : Trie) (overlap : Bool) : Nat → List Nat → List String → List Match
  | _, _, [] => []
  | start, free, token :: rest =>
    let slots := longest t free.length (t.hits (token :: rest))
    let (ms, free') := matchLists overlap start 0 slots free
    ms ++ perList t overlap (start + 1) free' rest

/-- The match at a token for all lists. -/
def mergedMatch? (t : Trie) (start : Nat) (hits : List Trie.Hit) : Option Match :=
  match hits.getLast? with
  | none => none
  | some h =>
    match t.markersAt h.node with
    | [] => none
    | m :: _ => some ⟨start, start + h.depth, m.list, h.node⟩

/-- The matches for all lists in the tokens from the place `start` on. -/
def merged (t : Trie) (overlap : Bool) : Nat → Nat → List String → List Match
  | _, _, [] => []
  | start, free, token :: rest =>
    if overlap ∨ free ≤ start then
      match mergedMatch? t start (t.hits (token :: rest)) with
      | none => merged t overlap (start + 1) free rest
      | some m => m :: merged t overlap (start + 1) m.stop rest
    else merged t overlap (start + 1) free rest

/-- The matches of a dictionary in tokens, given by the keys under which they are looked up. -/
def run (d : Dictionary) (scope : MatchScope) (overlap : Bool) (keys : List String) :
    List Match :=
  match scope with
  | .perList => perList d.trie overlap 0 (List.replicate d.lists.length 0) keys
  | .merged => merged d.trie overlap 0 0 keys

end Scan

end AnnotatedText
