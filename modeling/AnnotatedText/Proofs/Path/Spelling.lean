import AnnotatedText.Proofs.Path.Grammar

/-!
# The spelling of references

A path is cut into parts that are trimmed, not empty and without points, and such parts are got back
from the path that they make up. A reference that is read from a part `IsWritable`: there is nothing
in its name that would be read as something else, and the index is within its limit. It has a
displayed form, with neither blanks nor a sign nor leading zeros, and is read back from it.

## Main results

* `isPathPart_of_splitPath`, `splitPath_intercalate`: what a path is cut into.
* `Reference.isWritable_of_read`: what is read can be written.
* `Reference.IsWritable.read_display`: a reference is read back from its displayed form.
-/

namespace AnnotatedText

/-! ### Parts of a path -/

/-- A text that can stand **between the points** of a path. -/
structure IsPathPart (cs : List Char) : Prop where
  ne_nil : cs ≠ []
  isTrimmed : Text.IsTrimmed cs
  no_point : '.' ∉ cs

/-- A trimmed beginning of a part is one, unless it is empty. -/
theorem IsPathPart.left {before behind : List Char} (h : IsPathPart (before ++ behind))
    (hne : before ≠ []) (htrimmed : Text.IsTrimmed before) : IsPathPart before :=
  ⟨hne, htrimmed, fun hpoint => h.no_point (List.mem_append_left behind hpoint)⟩

/-- A path is cut into parts, and into one at least. -/
theorem isPathPart_of_splitPath {path : String} {raw : List String} (h : splitPath path = .ok raw) :
    raw ≠ [] ∧ ∀ w ∈ raw, IsPathPart w.toList := by
  simp only [splitPath] at h
  split at h
  · exact nomatch h
  · rename_i hempty
    obtain rfl := Except.ok.inj h
    refine ⟨by simpa using Text.splitAll_ne_nil '.' path.toList, fun w hw => ?_⟩
    obtain ⟨cs, hcs, rfl⟩ := List.mem_map.mp hw
    obtain ⟨part, hpart, rfl⟩ := List.mem_map.mp hcs
    rw [String.toList_ofList]
    refine ⟨fun hnil => hempty ?_, Text.isTrimmed_trim part, fun hpoint => ?_⟩
    · exact List.any_eq_true.mpr ⟨_, hcs, by rw [hnil]; rfl⟩
    · exact Text.notMem_of_mem_splitAll hpart (Text.mem_of_mem_trim hpoint)

/-- **Parts are got back** from the path that they make up. -/
theorem splitPath_intercalate {raw : List String} (hne : raw ≠ [])
    (h : ∀ w ∈ raw, IsPathPart w.toList) : splitPath (".".intercalate raw) = .ok raw := by
  have hparts : Text.splitAll '.' (".".intercalate raw).toList = raw.map String.toList := by
    rw [String.toList_intercalate]
    refine Text.splitAll_intercalate (by simpa using hne) fun part hpart => ?_
    obtain ⟨w, hw, rfl⟩ := List.mem_map.mp hpart
    exact (h w hw).no_point
  have htrim : (raw.map String.toList).map Text.trim = raw.map String.toList := by
    rw [List.map_map]
    exact List.map_congr_left fun w hw => (h w hw).isTrimmed.trim_eq
  have hfull : (raw.map String.toList).any List.isEmpty = false := by
    rw [List.any_map, List.any_eq_false]
    intro w hw hnil
    exact (h w hw).ne_nil (List.isEmpty_iff.mp hnil)
  simp only [splitPath, hparts, htrim, hfull]
  simp

namespace Reference

/-- The written form of a reference. -/
def display (r : Reference) : String :=
  match r.index? with
  | none => r.name
  | some i => r.name ++ "[" ++ toString i ++ "]"

/-- A reference **can be written** if nothing in it is read as something else. A closing bracket is
part of a name where an index stands behind it. -/
structure IsWritable (r : Reference) : Prop where
  isPathPart_name : IsPathPart r.name.toList
  no_opening : '[' ∉ r.name.toList
  no_closing : r.index? = none → ']' ∉ r.name.toList
  index_le : ∀ i ∈ r.index?, i ≤ Text.wordLimit

variable {r : Reference} {w : String}

/-- A reference with an index is displayed as its name and the index in brackets. -/
theorem toList_display_of_index {i : Nat} (h : r.index? = some i) :
    r.display.toList = r.name.toList ++ '[' :: (Nat.toDigits 10 i ++ [']']) := by
  rw [display, h]
  simp

/-- The displayed form stands between the points of a path. -/
theorem IsWritable.isPathPart_display (h : r.IsWritable) : IsPathPart r.display.toList := by
  cases hindex : r.index? with
  | none =>
      rw [display, hindex]
      exact h.isPathPart_name
  | some i =>
      rw [toList_display_of_index hindex]
      -- it begins as the name does and ends with the bracket
      obtain ⟨c, rest, hname⟩ := List.exists_cons_of_ne_nil h.isPathPart_name.ne_nil
      refine ⟨by simp, ⟨fun d hd => ?_, fun d hd => ?_⟩, fun hpoint => ?_⟩
      · refine h.isPathPart_name.isTrimmed.head d ?_
        rw [hname] at hd ⊢
        exact hd
      · rw [← List.cons_append, ← List.append_assoc, List.getLast?_concat] at hd
        obtain rfl := Option.some.inj hd
        decide
      · have hnone : '.' ∉ Nat.toDigits 10 i := by
          intro hmem
          exact absurd (Text.isDigit_of_mem_toDigits hmem) (by decide)
        simp [h.isPathPart_name.no_point, hnone] at hpoint

/-- A text without blanks around it is read as it stands. -/
theorem read_eq_ok_iff (hw : Text.IsTrimmed w.toList) :
    read w = .ok r ↔ readTrimmed w.toList = .ok r := by
  rw [read_eq_ok_iff_readTrimmed, hw.trim_eq]

/-- **A reference is read back** from its displayed form. -/
theorem IsWritable.read_display (h : r.IsWritable) : read r.display = .ok r := by
  rw [read_eq_ok_iff h.isPathPart_display.isTrimmed]
  cases hindex : r.index? with
  | none =>
      have hname : r.display = r.name := by rw [display, hindex]
      rw [hname, readTrimmed, Text.splitFirst_of_notMem h.no_opening]
      simp [h.no_closing hindex, ← hindex]
  | some i =>
      have hgap : ∀ c ∈ ([] : List Char), Text.isBlank c = true := fun c hc =>
        absurd hc List.not_mem_nil
      have hnumeral : IsIndex ([] ++ '[' :: ([] ++ Nat.toDigits 10 i ++ [] ++ [']'])) i :=
        .intro hgap hgap hgap (Text.isNumeral_toDigits i) (h.index_le i hindex)
      rw [List.nil_append, List.nil_append, List.append_nil] at hnumeral
      rw [toList_display_of_index hindex, readTrimmed_append_index h.isPathPart_name.ne_nil
        h.isPathPart_name.isTrimmed h.no_opening hnumeral, String.ofList_toList, ← hindex]

/-- What an index stands behind in a part of a path can be written with it. -/
theorem isWritable_of_isIndex {name index : List Char} {i : Nat} (hw : IsPathPart (name ++ index))
    (hne : name ≠ []) (htrimmed : Text.IsTrimmed name) (hopening : '[' ∉ name)
    (hi : IsIndex index i) : IsWritable ⟨String.ofList name, some i⟩ := by
  obtain ⟨-, -, -, -, hle⟩ := hi
  have hname : (String.ofList name).toList = name := String.toList_ofList
  refine ⟨hname.symm ▸ hw.left hne htrimmed, hname.symm ▸ hopening, nofun, fun j hj => ?_⟩
  exact Option.some.inj hj ▸ hle

/-- **What is read can be written.** -/
theorem isWritable_of_read (hw : IsPathPart w.toList) (h : read w = .ok r) : r.IsWritable := by
  have hread := (readTrimmed_eq_ok_iff hw.isTrimmed).mp ((read_eq_ok_iff hw.isTrimmed).mp h)
  clear h
  generalize w.toList = cs at hw hread
  rcases hread with hspelling | hmisspelling
  · cases hspelling with
    | name h =>
        have hname : (String.ofList cs).toList = cs := String.toList_ofList
        exact ⟨hname.symm ▸ hw, hname.symm ▸ h.no_opening, fun _ => hname.symm ▸ h.no_closing,
          nofun⟩
    | indexed h hi => exact isWritable_of_isIndex hw h.ne_nil h.isTrimmed h.no_opening hi
  · cases hmisspelling with
    | unnamed => exact absurd rfl hw.ne_nil
    | closing htrimmed hopening hclosing hi =>
        exact isWritable_of_isIndex hw (List.ne_nil_of_mem hclosing) htrimmed hopening hi

end Reference

end AnnotatedText
