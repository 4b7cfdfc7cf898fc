import AnnotatedText.Path.Resolution
import AnnotatedText.Proofs.Path.Spelling

/-!
# Names as paths

The name of a feature can be written as a path if nothing in it is a mark of the notation: it is not
empty and has no blanks around it, no point, no bracket, and is not the name of the covered text. Such
a name is a path of one segment, which is bound to the feature of that name that the type sees.

## Main results

* `FeaturePath.resolvePath_name`: the path that a name is.
-/

namespace AnnotatedText

/-- A name that **can be written as a path**. -/
structure IsPathName (name : String) : Prop where
  ne_empty : name ≠ ""
  trimmed_eq : Text.trimmed name = name
  no_point : '.' ∉ name.toList
  no_opening : '[' ∉ name.toList
  no_closing : ']' ∉ name.toList
  ne_coveredText : name ≠ coveredTextName

instance (name : String) : Decidable (IsPathName name) :=
  decidable_of_iff
    (name ≠ "" ∧ Text.trimmed name = name ∧ '.' ∉ name.toList ∧ '[' ∉ name.toList ∧
      ']' ∉ name.toList ∧ name ≠ coveredTextName)
    ⟨fun ⟨h1, h2, h3, h4, h5, h6⟩ => ⟨h1, h2, h3, h4, h5, h6⟩,
      fun ⟨h1, h2, h3, h4, h5, h6⟩ => ⟨h1, h2, h3, h4, h5, h6⟩⟩

namespace IsPathName

variable {name : String}

/-- Without an index it is a reference that can be written. -/
theorem isWritable (h : IsPathName name) : Reference.IsWritable ⟨name, none⟩ := by
  have htrim : Text.trim name.toList = name.toList := by
    rw [← String.toList_ofList (l := Text.trim name.toList)]
    exact congrArg String.toList h.trimmed_eq
  have htrimmed : Text.IsTrimmed name.toList := by
    rw [← htrim]
    exact Text.isTrimmed_trim name.toList
  have hne : name.toList ≠ [] := fun hnil => h.ne_empty (String.toList_eq_nil_iff.mp hnil)
  exact ⟨⟨hne, htrimmed, h.no_point⟩, h.no_opening, fun _ => h.no_closing, nofun⟩

/-- The name is the only segment. -/
theorem splitPath_eq (h : IsPathName name) : splitPath name = .ok [name] := by
  have hsplit : splitPath (".".intercalate [name]) = .ok [name] :=
    splitPath_intercalate (List.cons_ne_nil name [])
      (List.forall_mem_singleton.mpr h.isWritable.isPathPart_name)
  rwa [String.intercalate_singleton] at hsplit

/-- It has no index. -/
theorem read_eq (h : IsPathName name) : Reference.read name = .ok ⟨name, none⟩ :=
  h.isWritable.read_display

end IsPathName

/-- **The path that a name is**: the segment of the feature that the type sees under it. -/
theorem FeaturePath.resolvePath_name {ts : TypeSystem} {t : TypeId} {name : String} {f : Feature}
    (hname : IsPathName name) (hf : ts.featureNamed? t name = some f) :
    resolvePath ts (some t) name = .ok ⟨some t, [.named name f.id]⟩ := by
  have hsegment : Segment.resolve ts (.known t) name = .ok (.named name f.id) := by
    rw [Segment.resolve, hname.read_eq]
    simp [Segment.bind, hname.ne_coveredText, Segment.onType, hf, Segment.ofFeature]
  rw [resolvePath, hname.splitPath_eq]
  simp [resolve, Cursor.ofStart, resolveFrom, hsegment]

end AnnotatedText
