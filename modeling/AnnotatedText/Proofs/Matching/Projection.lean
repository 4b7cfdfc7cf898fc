import AnnotatedText.Matching.Worker
import AnnotatedText.Proofs.Dictionary.History
import AnnotatedText.Proofs.Matching.Longest

/-!
# The scan of one list

A scan in the scope of each list handles all lists in one pass: the lists take turns at the slots of
a token, and each has its own place at which its last match ends. `scanList` scans for one list
alone. What the common pass finds for a list is what `scanList` finds, `filter_perList`, so the
lists do not know of each other.

## Main results

* `Scan.filter_perList`: the matches of a list are those of its own scan.
* `Scan.pairwise_perList`: all matches are in the order of their beginnings and lists.
-/

namespace AnnotatedText

namespace Scan

variable {t : Trie} {overlap : Bool}

/-! ### One token -/

/-- A match for one list is at the token and of the list. -/
theorem start_and_list_of_matchList {start list free : Nat} {slot : Option Trie.Hit} {m : Match}
    (h : m ∈ (matchList overlap start list slot free).1) : m.start = start ∧ m.list = list := by
  unfold matchList at h
  split at h
  · simp at h
  · split at h
    · obtain rfl := Option.some.inj h
      exact ⟨rfl, rfl⟩
    · simp at h

/-- The matches at a token begin there and belong to the lists that are gone through. -/
theorem start_and_list_of_matchLists {start list : Nat} {slots : Slots} {frees : List Nat}
    {m : Match} (h : m ∈ (matchLists overlap start list slots frees).1) :
    m.start = start ∧ list ≤ m.list ∧ m.list < list + frees.length := by
  induction slots generalizing list frees with
  | nil => simp [matchLists] at h
  | cons slot slots ih =>
      cases frees with
      | nil => simp [matchLists] at h
      | cons free frees =>
          simp only [matchLists, List.mem_append, Option.mem_toList] at h
          rw [List.length_cons]
          rcases h with h | h
          · obtain ⟨hstart, hlist⟩ := start_and_list_of_matchList h
            omega
          · obtain ⟨hstart, hlower, hupper⟩ := ih h
            omega

/-- The matches at a token come in the order of their lists. -/
theorem pairwise_matchLists (start list : Nat) (slots : Slots) (frees : List Nat) :
    (matchLists overlap start list slots frees).1.Pairwise fun a b => a.list < b.list := by
  induction slots generalizing list frees with
  | nil => simp [matchLists]
  | cons slot slots ih =>
      cases frees with
      | nil => simp [matchLists]
      | cons free frees =>
          simp only [matchLists, List.pairwise_append]
          refine ⟨?_, ih (list + 1) frees, ?_⟩
          · cases (matchList overlap start list slot free).1 <;> simp
          · intro a ha b hb
            obtain ⟨-, hlist⟩ := start_and_list_of_matchList (Option.mem_toList.mp ha)
            obtain ⟨-, hlower, -⟩ := start_and_list_of_matchLists hb
            omega

/-- Each list keeps its last end. -/
theorem length_matchLists (start list : Nat) {slots : Slots} {frees : List Nat}
    (h : slots.length = frees.length) :
    (matchLists overlap start list slots frees).2.length = frees.length := by
  induction slots generalizing list frees with
  | nil =>
      obtain rfl : frees = [] := List.length_eq_zero_iff.mp h.symm
      rfl
  | cons slot slots ih =>
      cases frees with
      | nil => simp at h
      | cons free frees =>
          rw [matchLists, List.length_cons, ih (list + 1) (Nat.succ.inj h), List.length_cons]

/-- **The lists take turns without touching each other**: a list finds what it finds alone. -/
theorem matchLists_at (start list : Nat) {i : Nat} {slots : Slots} {frees : List Nat}
    {slot : Option Trie.Hit} {free : Nat} (hslot : slots[i]? = some slot)
    (hfree : frees[i]? = some free) :
    (matchLists overlap start list slots frees).1.filter (fun m => m.list = list + i) =
        (matchList overlap start (list + i) slot free).1.toList ∧
      (matchLists overlap start list slots frees).2[i]? =
        some (matchList overlap start (list + i) slot free).2 := by
  induction i generalizing list slots frees with
  | zero =>
      cases slots with
      | nil => simp at hslot
      | cons slot' slots =>
          cases frees with
          | nil => simp at hfree
          | cons free' frees =>
              obtain rfl : slot' = slot := by simpa using hslot
              obtain rfl : free' = free := by simpa using hfree
              have hhere : ∀ m ∈ (matchList overlap start list slot' free').1.toList,
                  m.list = list :=
                fun m hm => (start_and_list_of_matchList (Option.mem_toList.mp hm)).2
              have hthere : ∀ m ∈ (matchLists overlap start (list + 1) slots frees).1,
                  ¬ m.list = list := by
                intro m hm
                obtain ⟨-, hlower, -⟩ := start_and_list_of_matchLists hm
                omega
              simp only [matchLists, Nat.add_zero, List.filter_append]
              rw [List.filter_eq_self.mpr (by simpa using hhere),
                List.filter_eq_nil_iff.mpr (by simpa using hthere)]
              simp
  | succ i ih =>
      cases slots with
      | nil => simp at hslot
      | cons slot' slots =>
          cases frees with
          | nil => simp at hfree
          | cons free' frees =>
              have hslot' : slots[i]? = some slot := by simpa using hslot
              have hfree' : frees[i]? = some free := by simpa using hfree
              obtain ⟨hfound, hends⟩ := ih (list + 1) hslot' hfree'
              rw [show list + 1 + i = list + (i + 1) by omega] at hfound hends
              have hhere : ∀ m ∈ (matchList overlap start list slot' free').1.toList,
                  ¬ m.list = list + (i + 1) := by
                intro m hm
                have := (start_and_list_of_matchList (Option.mem_toList.mp hm)).2
                omega
              refine ⟨?_, by simpa [matchLists] using hends⟩
              simp only [matchLists, List.filter_append]
              rw [List.filter_eq_nil_iff.mpr (by simpa using hhere), List.nil_append, hfound]

/-! ### All tokens -/

/-- **The scan of one list** in the tokens from the place `start` on, if its last match ends at
`free`. -/
def scanList (t : Trie) (overlap : Bool) (list : Nat) : Nat → Nat → List String → List Match
  | _, _, [] => []
  | start, free, token :: rest =>
    let slot := longest? t (t.hits (token :: rest)) list
    let (found?, free) := matchList overlap start list slot free
    found?.toList ++ scanList t overlap list (start + 1) free rest

/-- **The matches of a list are those of its own scan.** -/
theorem filter_perList {start free list : Nat} {frees : List Nat} (h : frees[list]? = some free)
    (tokens : List String) :
    (perList t overlap start frees tokens).filter (fun m => m.list = list) =
      scanList t overlap list start free tokens := by
  induction tokens generalizing start free frees with
  | nil => rfl
  | cons token rest ih =>
      have hlt : list < frees.length := (List.getElem?_eq_some_iff.mp h).1
      have hslot := getElem?_longest t (t.hits (token :: rest)) hlt
      obtain ⟨hfound, hends⟩ := matchLists_at start 0 hslot h
      rw [Nat.zero_add] at hfound hends
      rw [perList, scanList, List.filter_append, hfound, ih hends]

/-- Matches begin at the tokens that are scanned and belong to the lists that are scanned for. -/
theorem bounds_of_mem_perList {start : Nat} {frees : List Nat} {tokens : List String} {m : Match}
    (h : m ∈ perList t overlap start frees tokens) : start ≤ m.start ∧ m.list < frees.length := by
  induction tokens generalizing start frees with
  | nil => simp [perList] at h
  | cons token rest ih =>
      rw [perList] at h
      rcases List.mem_append.mp h with h | h
      · obtain ⟨hstart, -, hupper⟩ := start_and_list_of_matchLists h
        omega
      · obtain ⟨hstart, hlist⟩ := ih h
        rw [length_matchLists start 0 (length_longest t _ _)] at hlist
        omega

/-- **All matches are in the order of their beginnings**, at one token in the order of their
lists. -/
theorem pairwise_perList (start : Nat) (frees : List Nat) (tokens : List String) :
    (perList t overlap start frees tokens).Pairwise fun a b =>
      a.start < b.start ∨ a.start = b.start ∧ a.list < b.list := by
  induction tokens generalizing start frees with
  | nil => exact List.Pairwise.nil
  | cons token rest ih =>
      rw [perList]
      refine List.pairwise_append.mpr ⟨?_, ih _ _, ?_⟩
      · refine (pairwise_matchLists start 0 _ frees).imp_of_mem ?_
        intro a b ha hb hab
        have hstart := (start_and_list_of_matchLists ha).1
        have hstart' := (start_and_list_of_matchLists hb).1
        exact Or.inr ⟨hstart.trans hstart'.symm, hab⟩
      · intro a ha b hb
        have hstart := (start_and_list_of_matchLists ha).1
        have hlower := (bounds_of_mem_perList hb).1
        omega

/-- A list scans from the given token on, and for itself. -/
theorem bounds_of_mem_scanList {start free list : Nat} {tokens : List String} {m : Match}
    (h : m ∈ scanList t overlap list start free tokens) : start ≤ m.start ∧ m.list = list := by
  induction tokens generalizing start free with
  | nil => simp [scanList] at h
  | cons token rest ih =>
      rw [scanList] at h
      rcases List.mem_append.mp h with h | h
      · obtain ⟨hstart, hlist⟩ := start_and_list_of_matchList (Option.mem_toList.mp h)
        omega
      · obtain ⟨hstart, hlist⟩ := ih h
        omega

end Scan

/-! ### Workers -/

/-- The forms under which the tokens of a text are looked up. -/
def Dictionary.keysOf (d : Dictionary) (tokens : List String) : List String :=
  tokens.map (foldCase d.caseSensitive)

/-- What a worker finds in the scope of each list is found in the folded tokens of the text. -/
theorem Worker.found_reset_scan {w : Worker} (hscope : w.matcher.scope = .perList) (text : String) :
    (w.reset text).scan.found =
      Scan.perList w.matcher.dictionary.trie w.matcher.overlap 0
        (List.replicate w.matcher.dictionary.lists.length 0)
        (w.matcher.dictionary.keysOf (tokenize text)) := by
  rw [Dictionary.keysOf, tokenize, List.map_map, scan, reset]
  simp only [Scan.run, hscope]
  rfl

/-- A worker that scans in the scope of each list, without overlaps and without regard to case. -/
def Sample.worker (calls : List Call) : Worker :=
  .ofMatcher ⟨DictionaryBuilder.dictionary ⟨false, true⟩ calls, false, .perList⟩

end AnnotatedText
