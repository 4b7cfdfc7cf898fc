import AnnotatedText.Text.Utf8

/-!
# Slices and boundaries

A byte offset is a **boundary** of a text if it is the length of one of its beginnings. Taking,
dropping and slicing by byte offsets succeed exactly at boundaries, and what they give is what
stands between them. So a slice between two boundaries in order is always there, wherever the
boundaries come from; that two beginnings of one text are in the order of their lengths is the
reason.

## Main results

* `Text.sliceChars?_eq_some_iff`: what a slice is.
* `Text.exists_slice?_iff`: there is a slice exactly between two boundaries in order.
-/

namespace AnnotatedText.Text

/-- Only the empty text takes no bytes. -/
@[simp] theorem byteLength_eq_zero_iff {cs : List Char} : byteLength cs = 0 ↔ cs = [] := by
  cases cs with
  | nil => simp
  | cons c cs =>
      have hpos := utf8Size_pos c
      simp only [byteLength_cons, reduceCtorEq, iff_false]
      omega

/-- What is taken from the front is a beginning of the given length in bytes. -/
theorem takeBytes_eq_some_iff {n : Nat} {cs ds : List Char} :
    takeBytes n cs = some ds ↔ ∃ rest, cs = ds ++ rest ∧ byteLength ds = n := by
  constructor
  · intro h
    fun_induction takeBytes n cs generalizing ds with
    | case1 cs =>
        obtain rfl : [] = ds := Option.some.inj h
        exact ⟨cs, rfl, rfl⟩
    | case2 n => cases h
    | case3 n c rest hle ih =>
        obtain ⟨front, hfront, rfl⟩ := Option.map_eq_some_iff.mp h
        obtain ⟨behind, rfl, hlength⟩ := ih hfront
        refine ⟨behind, rfl, ?_⟩
        rw [byteLength_cons, hlength]
        omega
    | case4 n c rest hle => cases h
  · rintro ⟨rest, rfl, rfl⟩
    exact takeBytes_append ds rest

/-- What is left is behind a beginning of the given length in bytes. -/
theorem dropBytes_eq_some_iff {n : Nat} {cs ds : List Char} :
    dropBytes n cs = some ds ↔ ∃ front, cs = front ++ ds ∧ byteLength front = n := by
  constructor
  · intro h
    fun_induction dropBytes n cs generalizing ds with
    | case1 cs =>
        obtain rfl : cs = ds := Option.some.inj h
        exact ⟨[], rfl, rfl⟩
    | case2 n => cases h
    | case3 n c rest hle ih =>
        obtain ⟨front, rfl, hlength⟩ := ih h
        refine ⟨c :: front, rfl, ?_⟩
        rw [byteLength_cons, hlength]
        omega
    | case4 n c rest hle => cases h
  · rintro ⟨front, rfl, rfl⟩
    exact dropBytes_append front ds

/-- **What a slice is**: what stands between a beginning and an end of the text, each as long as the
offsets say. -/
theorem sliceChars?_eq_some_iff {cs ds : List Char} {start stop : Nat} :
    sliceChars? cs start stop = some ds ↔
      ∃ front rest, cs = front ++ ds ++ rest ∧ byteLength front = start ∧
        start + byteLength ds = stop := by
  constructor
  · intro h
    unfold sliceChars? at h
    split at h
    · rename_i hle
      obtain ⟨behind, hdrop, htake⟩ := Option.bind_eq_some_iff.mp h
      obtain ⟨front, rfl, hfront⟩ := dropBytes_eq_some_iff.mp hdrop
      obtain ⟨rest, rfl, hlength⟩ := takeBytes_eq_some_iff.mp htake
      refine ⟨front, rest, by rw [List.append_assoc], hfront, ?_⟩
      omega
    · cases h
  · rintro ⟨front, rest, rfl, rfl, rfl⟩
    exact sliceChars?_append front ds rest

/-- Of two beginnings of a text the shorter one begins the other. -/
theorem prefix_of_byteLength_le {cs front front' : List Char} (h : front <+: cs)
    (h' : front' <+: cs) (hle : byteLength front ≤ byteLength front') : front <+: front' := by
  rcases List.prefix_or_prefix_of_prefix h h' with hprefix | ⟨more, rfl⟩
  · exact hprefix
  · rw [byteLength_append] at hle
    have hmore : byteLength more = 0 := by omega
    obtain rfl := byteLength_eq_zero_iff.mp hmore
    exact ⟨[], by simp only [List.append_nil]⟩

/-- A byte offset is a **boundary** if a beginning of the text is as long. -/
def IsBoundary (cs : List Char) (n : Nat) : Prop := ∃ front, front <+: cs ∧ byteLength front = n

/-- **Between two boundaries in order there is a slice.** -/
theorem exists_sliceChars? {cs : List Char} {start stop : Nat} (hstart : IsBoundary cs start)
    (hstop : IsBoundary cs stop) (hle : start ≤ stop) :
    ∃ ds, sliceChars? cs start stop = some ds := by
  obtain ⟨front, hfront, rfl⟩ := hstart
  obtain ⟨front', hfront', rfl⟩ := hstop
  obtain ⟨ds, rfl⟩ := prefix_of_byteLength_le hfront hfront' hle
  obtain ⟨rest, rfl⟩ := hfront'
  refine ⟨ds, sliceChars?_eq_some_iff.mpr ⟨front, rest, rfl, rfl, ?_⟩⟩
  rw [byteLength_append]

/-- No boundary lies behind the end of the text. -/
theorem IsBoundary.le_byteLength {cs : List Char} {n : Nat} (h : IsBoundary cs n) :
    n ≤ byteLength cs := by
  obtain ⟨front, ⟨rest, rfl⟩, rfl⟩ := h
  rw [byteLength_append]
  exact Nat.le_add_right _ _

/-- **There is a slice exactly between two boundaries in order.** -/
theorem exists_slice?_iff {s : String} {start stop : Nat} :
    (∃ surface, slice? s start stop = some surface) ↔
      start ≤ stop ∧ IsBoundary s.toList start ∧ IsBoundary s.toList stop := by
  constructor
  · rintro ⟨surface, h⟩
    obtain ⟨ds, hds, -⟩ := Option.map_eq_some_iff.mp h
    obtain ⟨front, rest, hsplit, hstart, hstop⟩ := sliceChars?_eq_some_iff.mp hds
    refine ⟨by omega, ⟨front, ?_, hstart⟩, ⟨front ++ ds, ?_, ?_⟩⟩
    · rw [hsplit, List.append_assoc]
      exact List.prefix_append ..
    · rw [hsplit]
      exact List.prefix_append ..
    · rw [byteLength_append, hstart, hstop]
  · rintro ⟨hle, hstart, hstop⟩
    obtain ⟨ds, hds⟩ := exists_sliceChars? hstart hstop hle
    exact ⟨String.ofList ds, congrArg (Option.map String.ofList) hds⟩

end AnnotatedText.Text
