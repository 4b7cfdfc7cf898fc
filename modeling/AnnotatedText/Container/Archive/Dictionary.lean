import AnnotatedText.Container.Archive.Layout
import AnnotatedText.Trie.Basic

/-!
# The archive of a dictionary

What is stored of a dictionary: whether case matters, its lists and the nodes of its trie.
-/

namespace AnnotatedText.Archive

open Layout

/-- The content of a dictionary's archive. -/
structure Content where
  caseSensitive : Bool
  lists : List SourceList
  nodes : List Node
  deriving DecidableEq

/-- The number that stands for a kind. -/
def kindCode : Kind → UInt8
  | .string => 0
  | .integer => 1
  | .boolean => 2
  | .double => 3

/-- The kind that a number stands for. -/
def kindOfCode? (code : UInt8) : Option Kind :=
  if code = 0 then some .string
  else if code = 1 then some .integer
  else if code = 2 then some .boolean
  else if code = 3 then some .double
  else none

/-- A kind with the zeros behind it. -/
def kindLayout : Layout Kind :=
  plain 4 1 (fun k => [kindCode k, 0, 0, 0]) fun bytes => kindOfCode? (bytes.headD 0xFF)

/-- A column: its name and its kind. -/
def columnLayout : Layout Column :=
  (text.pair kindLayout).via (fun c => (c.name, c.kind)) fun p => ⟨p.1, p.2⟩

/-- A list: its name, its type and its columns. -/
def listLayout : Layout SourceList :=
  (text.pair (text.pair (sequence columnLayout))).via (fun l => (l.name, l.typeName, l.columns))
    fun p => ⟨p.1, p.2.1, p.2.2⟩

/-- An edge: its token and the place of its child. -/
def edgeLayout : Layout Edge :=
  (text.pair word).via (fun e => (e.token, e.child)) fun p => ⟨p.1, p.2⟩

/-- The bytes of a whole number. -/
def integerBytes (i : Int32) : Bytes := Bytes.littleEndian 4 i.toUInt32.toNat

/-- Reads the value of a kind from the sixteen bytes of its fixed part. -/
def plainScalar (kind : Kind) (bytes : Bytes) : Option Scalar :=
  match kind with
  | .string => none
  | .integer => some (.integer (UInt32.ofNat (Bytes.toNat ((bytes.drop 4).take 4))).toInt32)
  | .boolean =>
    match bytes.drop 1 with
    | 0 :: _ => some (.boolean false)
    | 1 :: _ => some (.boolean true)
    | _ => none
  | .double => some (.double ⟨UInt64.ofNat (Bytes.toNat (bytes.drop 8))⟩)

/-- An attribute: its kind in the first byte, its value behind it where its own alignment lets it
stand. -/
def scalarLayout : Layout Scalar where
  size := 16
  align := 8
  parts
    | start, .string s => text.parts start s
    | _, _ => []
  fixed place start
    | .string s => [0, 0, 0, 0] ++ text.fixed (place + 4) start s ++ [0, 0, 0, 0]
    | .integer i => [1, 0, 0, 0] ++ integerBytes i ++ List.replicate 8 0
    | .boolean b => [2, if b then 1 else 0] ++ List.replicate 14 0
    | .double d => 3 :: List.replicate 7 0 ++ Bytes.littleEndian 8 d.bits.toNat
  read buffer place w := do
    let bytes ← bytesAt buffer place 16
    let kind ← kindOfCode? (bytes.headD 0xFF)
    match kind with
    | .string => (text.read buffer (place + 4) w).map fun (s, w) => (.string s, w)
    | _ => (plainScalar kind bytes).map fun v => (v, w)

/-- A marker: its list and its attributes. -/
def markerLayout : Layout Marker :=
  (word.pair (sequence scalarLayout)).via (fun m => (m.list, m.attributes)) fun p => ⟨p.1, p.2⟩

/-- A node: its edges and its markers. -/
def nodeLayout : Layout Node :=
  ((sequence edgeLayout).pair (sequence markerLayout)).via (fun n => (n.edges, n.markers))
    fun p => ⟨p.1, p.2⟩

/-- The whole content. -/
def contentLayout : Layout Content :=
  ((flag 4).pair ((sequence listLayout).pair (sequence nodeLayout))).via
    (fun c => (c.caseSensitive, c.lists, c.nodes)) fun p => ⟨p.1, p.2.1, p.2.2⟩

end AnnotatedText.Archive
