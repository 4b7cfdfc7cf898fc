import AnnotatedText.Proofs.Path.Cached
import AnnotatedText.Proofs.Path.Spelling
import AnnotatedText.Proofs.Path.Typing

/-!
# Displayed paths

The displayed form of a path is its canonical spelling: resolved from the same type it is the same
path, however the path was written. Each segment is displayed as the reference that it was bound
from, but for the covered text: its full name is displayed, which stands for it wherever a path can
go on. So each segment is bound to itself again, and what is known behind it stays the same.

## Main results

* `Segment.bind_reference`: a segment is bound to itself again.
* `FeaturePath.resolveFrom_display`: so are the segments of a path.
* `FeaturePath.resolvePath_display`: the whole path, directly and through a cache.
-/

namespace AnnotatedText

namespace Segment

/-- The reference that a segment is displayed as. -/
def reference (s : Segment) : Reference := ⟨s.name, s.index?⟩

theorem display_reference (s : Segment) : s.reference.display = s.display := rfl

variable {ts : TypeSystem} {cursor : Cursor} {s : Segment} {r : Reference}

/-- The name of the covered text may be written. -/
theorem isWritable_coveredText : coveredText.reference.IsWritable := by
  have htrimmed : Text.IsTrimmed coveredTextName.toList := by
    constructor
    · intro c hc
      obtain rfl : 'c' = c := Option.some.inj hc
      decide
    · intro c hc
      obtain rfl : 't' = c := Option.some.inj hc
      decide
  exact ⟨⟨by decide, htrimmed, by decide⟩, by decide, by decide, nofun⟩

/-- **A segment is bound to itself again** from the reference that it is displayed as. -/
theorem bind_reference {w : String} (h : bind ts cursor w r = .ok s) (hr : r.IsWritable) :
    s.reference.IsWritable ∧ ∀ w', bind ts cursor w' s.reference = .ok s := by
  obtain ⟨type?, rfl⟩ : ∃ type?, cursor = .ofStart type? := by
    cases cursor with
    | known t => exact ⟨some t, rfl⟩
    | unknown => exact ⟨none, rfl⟩
    | text => simp [bind] at h
  rcases bind_eq_ok_iff.mp h with hnames | ⟨rfl, -, -⟩
  · obtain ⟨hname, hindex⟩ := hnames.name_eq_and_index_eq
    have hsame : s.reference = r := by rw [reference, hname, hindex]
    exact ⟨hsame ▸ hr, fun w' => hsame ▸ hnames.bind_eq⟩
  · exact ⟨isWritable_coveredText, fun w' => bind_eq_ok_iff.mpr (.inr ⟨rfl, .inl rfl, rfl⟩)⟩

end Segment

namespace FeaturePath

variable {ts : TypeSystem}

/-- **The segments of a path are bound to themselves again** when they are read from their displayed
forms. -/
theorem resolveFrom_display {cursor : Cursor} {raw : List String} {segments : List Segment}
    (h : resolveFrom ts cursor raw = .ok segments) (hraw : ∀ w ∈ raw, IsPathPart w.toList) :
    (∀ s ∈ segments, IsPathPart s.display.toList) ∧
      resolveFrom ts cursor (segments.map Segment.display) = .ok segments := by
  induction raw generalizing cursor segments with
  | nil =>
      obtain rfl := Except.ok.inj h
      exact ⟨nofun, rfl⟩
  | cons w rest ih =>
      obtain ⟨s, tail, rfl, hs, htail⟩ := resolveFrom_cons_eq_ok_iff.mp h
      obtain ⟨r, hr, hbind⟩ := Segment.resolve_eq_ok_iff.mp hs
      obtain ⟨hw, hrest⟩ := List.forall_mem_cons.mp hraw
      obtain ⟨hwritable, hagain⟩ :=
        Segment.bind_reference hbind (Reference.isWritable_of_read hw hr)
      obtain ⟨hparts, hsame⟩ := ih htail hrest
      have hpart : IsPathPart s.display.toList :=
        s.display_reference ▸ hwritable.isPathPart_display
      have hread : Reference.read s.display = .ok s.reference :=
        s.display_reference ▸ hwritable.read_display
      have hbound : Segment.resolve ts cursor s.display = .ok s :=
        Segment.resolve_eq_ok_iff.mpr ⟨s.reference, hread, hagain s.display⟩
      refine ⟨List.forall_mem_cons.mpr ⟨hpart, hparts⟩, ?_⟩
      rw [List.map_cons, resolveFrom_cons_eq_ok_iff]
      exact ⟨s, tail, rfl, hbound, hsame⟩

/-- **The displayed form of a path is its canonical spelling.** Whatever text a path is resolved
from, its displayed form is resolved to the same path from the same type, also through a cache that
any calls have left behind. -/
theorem resolvePath_display {start? : Option TypeId} {text : String} {path : FeaturePath}
    (h : resolvePath ts start? text = .ok path) :
    resolvePath ts start? path.display = .ok path ∧
      ∀ calls, ((PathCache.empty.resolveAll ts calls).2.resolve ts ⟨start?, path.display⟩).1 =
        .ok path := by
  have hdisplay : resolvePath ts start? path.display = .ok path := by
    rw [resolvePath] at h
    cases hraw : splitPath text with
    | error e => simp [hraw] at h
    | ok raw =>
        simp only [hraw] at h
        obtain ⟨hne, hparts⟩ := isPathPart_of_splitPath hraw
        obtain ⟨rfl, hsegments⟩ := resolve_eq_ok_iff.mp h
        obtain ⟨hdisplayed, hsame⟩ := resolveFrom_display hsegments hparts
        have hsome : path.segments.map Segment.display ≠ [] := by
          obtain ⟨w, rest, rfl⟩ := List.exists_cons_of_ne_nil hne
          obtain ⟨s, tail, hcons, -⟩ := resolveFrom_cons_eq_ok_iff.mp hsegments
          simp [hcons]
        have hsplit : splitPath path.display = .ok (path.segments.map Segment.display) :=
          splitPath_intercalate hsome (List.forall_mem_map.mpr hdisplayed)
        rw [resolvePath, hsplit]
        exact resolve_eq_ok_iff.mpr ⟨rfl, hsame⟩
  refine ⟨hdisplay, fun calls => ?_⟩
  rw [← PathCache.ofCalls_nil, PathCache.ofCalls_resolveAll, PathCache.ofCalls_resolve]
  exact hdisplay

/-- Blanks, a sign, leading zeros and the short name of the covered text are not displayed. -/
theorem resolvePath_display_people :
    resolvePath (.declared Sample.mentions) (some ⟨1⟩) "next.others[2].coveredText" =
        .ok ⟨some ⟨1⟩, [.named "next" ⟨0⟩, .indexed "others" ⟨1⟩ 2, .coveredText]⟩ ∧
      ∀ calls, ((PathCache.empty.resolveAll (.declared Sample.mentions) calls).2.resolve
          (.declared Sample.mentions) ⟨some ⟨1⟩, "next.others[2].coveredText"⟩).1 =
        .ok ⟨some ⟨1⟩, [.named "next" ⟨0⟩, .indexed "others" ⟨1⟩ 2, .coveredText]⟩ := by
  have hpath : resolvePath (.declared Sample.mentions) (some ⟨1⟩) " next .others [ +002 ]. ct" =
      .ok ⟨some ⟨1⟩, [.named "next" ⟨0⟩, .indexed "others" ⟨1⟩ 2, .coveredText]⟩ := by
    decide +kernel
  exact resolvePath_display hpath

end FeaturePath

end AnnotatedText
