import Mathlib.Data.List.Sort

/-!
# Lists that increase

In a list that increases by a key no two elements have the same one. So an element is found by its
key, and the list is determined by its elements.
-/

namespace AnnotatedText

/-- In a list that increases by a key, each element is the first with its key. -/
theorem find?_of_mem_increasing {α β : Type} [BEq β] [LawfulBEq β] {lt : β → β → Prop}
    [Std.Irrefl lt] (key : α → β) {xs : List α} (h : xs.Pairwise fun a b => lt (key a) (key b))
    {a : α} (ha : a ∈ xs) : xs.find? (fun x => key x == key a) = some a := by
  induction xs with
  | nil => cases ha
  | cons x rest ih =>
      obtain ⟨hx, hrest⟩ := List.pairwise_cons.mp h
      rcases List.mem_cons.mp ha with rfl | ha
      · exact List.find?_cons_of_pos (by simp)
      · have hne : ¬ key x = key a := fun heq => Std.Irrefl.irrefl (key a) (heq ▸ hx a ha)
        rw [List.find?_cons_of_neg (by simpa using hne), ih hrest ha]

/-- Lists that increase by a key and have the same elements are equal. -/
theorem eq_of_increasing {α β : Type} {lt : β → β → Prop} [Std.Asymm lt] (key : α → β)
    {xs ys : List α} (hx : xs.Pairwise fun a b => lt (key a) (key b))
    (hy : ys.Pairwise fun a b => lt (key a) (key b)) (h : ∀ a, a ∈ xs ↔ a ∈ ys) : xs = ys := by
  have hirrefl : Std.Irrefl fun a b => lt (key a) (key b) := ⟨fun a => irrefl (key a)⟩
  have hantisymm : Std.Antisymm fun a b => lt (key a) (key b) :=
    ⟨fun a b hab hba => absurd hba (asymm hab)⟩
  exact hx.eq_of_mem_iff hy h

end AnnotatedText
