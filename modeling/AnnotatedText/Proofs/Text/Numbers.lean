import AnnotatedText.Text.Blank
import AnnotatedText.Text.Number

/-!
# Numbers in decimal

Digits are read from left to right, each making ten times the number so far and itself, and no digit
makes the number smaller; so a limit is exceeded on the way only if the whole number exceeds it. What
is read is therefore told without the reading: a numeral (`Text.IsNumeral`) of a number within the
limit. The decimal text of a number is one of its numerals.

## Main results

* `Text.readNatural_eq_ok_iff`: what is read as a number.
* `Text.isNumeral_toDigits`: the digits of a number are one of its numerals.
* `Text.readInteger_toString`: a whole number is read back.
-/

namespace AnnotatedText.Text

/-- The digits are the characters from zero to nine, with their distance from zero as value. -/
theorem digit?_eq_some_iff {c : Char} {d : Nat} :
    digit? c = some d ↔ c.isDigit = true ∧ c.toNat - '0'.toNat = d := by
  rw [digit?]
  cases c.isDigit <;> simp

/-- What one digit does: it is read, and the number stays within the limit. -/
theorem readDigits_cons_eq_ok_iff {limit acc n : Nat} {c : Char} {rest : List Char} :
    readDigits limit acc (c :: rest) = .ok n ↔
      ∃ d, digit? c = some d ∧ acc * 10 + d ≤ limit ∧
        readDigits limit (acc * 10 + d) rest = .ok n := by
  rw [readDigits]
  cases hd : digit? c with
  | none => simp
  | some d => by_cases hle : acc * 10 + d ≤ limit <;> simp [hle]

/-- More digits make no number smaller. -/
theorem le_ofDigitChars (acc : Nat) (cs : List Char) : acc ≤ Nat.ofDigitChars 10 cs acc := by
  induction cs generalizing acc with
  | nil => exact Nat.le_refl acc
  | cons c rest ih =>
      rw [Nat.ofDigitChars_cons]
      exact Nat.le_trans (by omega) (ih _)

/-- **Digits are read as the number that they are the digits of**, if that is within the limit. -/
theorem readDigits_eq_ok_iff {limit acc n : Nat} {cs : List Char} (hacc : acc ≤ limit) :
    readDigits limit acc cs = .ok n ↔
      (∀ c ∈ cs, c.isDigit = true) ∧ Nat.ofDigitChars 10 cs acc = n ∧ n ≤ limit := by
  induction cs generalizing acc with
  | nil =>
      constructor
      · intro h
        obtain rfl := Except.ok.inj h
        exact ⟨fun c hc => absurd hc List.not_mem_nil, rfl, hacc⟩
      · rintro ⟨-, rfl, -⟩
        rfl
  | cons c rest ih =>
      rw [readDigits_cons_eq_ok_iff, Nat.ofDigitChars_cons, List.forall_mem_cons,
        Nat.mul_comm 10 acc]
      constructor
      · rintro ⟨d, hd, hle, hrest⟩
        obtain ⟨hc, rfl⟩ := digit?_eq_some_iff.mp hd
        obtain ⟨hdigits, hn⟩ := (ih hle).mp hrest
        exact ⟨⟨hc, hdigits⟩, hn⟩
      · rintro ⟨⟨hc, hdigits⟩, rfl, hle⟩
        -- the number so far is no greater than the one that it comes to
        have hsofar := Nat.le_trans (le_ofDigitChars _ rest) hle
        exact ⟨_, digit?_eq_some_iff.mpr ⟨hc, rfl⟩, hsofar, (ih hsofar).mpr ⟨hdigits, rfl, hle⟩⟩

/-- The digits of a number are digits. -/
theorem isDigit_of_mem_toDigits {n : Nat} {c : Char} (h : c ∈ Nat.toDigits 10 n) :
    c.isDigit = true :=
  Nat.isDigit_of_mem_toDigits (by decide) (by decide) h

/-- **A number is read back from its digits.** -/
theorem readDigits_toDigits {limit : Nat} (n : Nat) (h : n ≤ limit) :
    readDigits limit 0 (Nat.toDigits 10 n) = .ok n :=
  (readDigits_eq_ok_iff (Nat.zero_le limit)).mpr
    ⟨fun _ => isDigit_of_mem_toDigits, Nat.ofDigitChars_toDigits (by decide) (by decide), h⟩

/-- A text **is a numeral** of a number: it has the digits of the number, zeros in front of them
included, and may have a plus sign before them. -/
inductive IsNumeral : List Char → Nat → Prop
  | digits {ds : List Char} (hne : ds ≠ []) (h : ∀ c ∈ ds, c.isDigit = true) :
      IsNumeral ds (Nat.ofDigitChars 10 ds 0)
  | signed {ds : List Char} (hne : ds ≠ []) (h : ∀ c ∈ ds, c.isDigit = true) :
      IsNumeral ('+' :: ds) (Nat.ofDigitChars 10 ds 0)

/-- **What is read as a number is a numeral**, and of a number within the limit. -/
theorem readNatural_eq_ok_iff {limit n : Nat} {cs : List Char} :
    readNatural limit cs = .ok n ↔ IsNumeral cs n ∧ n ≤ limit := by
  have hread (ds : List Char) : readDigits limit 0 ds = .ok n ↔
      (∀ c ∈ ds, c.isDigit = true) ∧ Nat.ofDigitChars 10 ds 0 = n ∧ n ≤ limit :=
    readDigits_eq_ok_iff (Nat.zero_le limit)
  have hplus : ¬ '+'.isDigit = true := by decide
  constructor
  · intro h
    unfold readNatural at h
    split at h
    · exact nomatch h
    · exact nomatch h
    · rename_i rest hne
      obtain ⟨hdigits, rfl, hle⟩ := (hread rest).mp h
      exact ⟨.signed hne hdigits, hle⟩
    · rename_i hne _ _
      obtain ⟨hdigits, rfl, hle⟩ := (hread cs).mp h
      exact ⟨.digits hne hdigits, hle⟩
  · rintro ⟨hnumeral, hle⟩
    cases hnumeral with
    | digits hne hdigits =>
        obtain ⟨c, rest, rfl⟩ := List.exists_cons_of_ne_nil hne
        have hc : c ≠ '+' := fun heq => hplus (heq ▸ hdigits c List.mem_cons_self)
        rw [readNatural]
        · exact (hread (c :: rest)).mpr ⟨hdigits, rfl, hle⟩
        all_goals simp [hc]
    | @signed ds hne hdigits =>
        rw [readNatural]
        · exact (hread ds).mpr ⟨hdigits, rfl, hle⟩
        · exact hne

/-- The digits of a number begin with a digit, not with a sign. -/
theorem exists_toDigits (n : Nat) :
    ∃ c rest, Nat.toDigits 10 n = c :: rest ∧ c ≠ '-' ∧ c ≠ '+' := by
  obtain ⟨c, rest, hdigits⟩ := List.exists_cons_of_ne_nil (Nat.toDigits_ne_nil (n := n) (b := 10))
  have hc : c.isDigit = true := isDigit_of_mem_toDigits (n := n) (hdigits ▸ List.mem_cons_self)
  refine ⟨c, rest, hdigits, ?_, ?_⟩
  · rintro rfl
    exact absurd hc (by decide)
  · rintro rfl
    exact absurd hc (by decide)

/-- The digits of a number are a numeral of it. -/
theorem isNumeral_toDigits (n : Nat) : IsNumeral (Nat.toDigits 10 n) n := by
  have hnumeral : IsNumeral (Nat.toDigits 10 n) (Nat.ofDigitChars 10 (Nat.toDigits 10 n) 0) :=
    .digits Nat.toDigits_ne_nil fun _ => isDigit_of_mem_toDigits
  rwa [Nat.ofDigitChars_toDigits (by decide) (by decide)] at hnumeral

/-- A natural number is written with its digits. -/
theorem toList_toString_ofNat (n : Nat) :
    (toString (Int.ofNat n)).toList = Nat.toDigits 10 n :=
  Nat.toList_repr

/-- A negative number is written with a sign in front of its digits. -/
theorem toList_toString_negSucc (n : Nat) :
    (toString (Int.negSucc n)).toList = '-' :: Nat.toDigits 10 (n + 1) := by
  have hrepr : toString (Int.negSucc n) = "-" ++ (n + 1).repr := rfl
  rw [hrepr, String.toList_append, Nat.toList_repr]
  rfl

/-- **A whole number is read back from its text**, if its word can hold it. -/
theorem readInteger_toString {bits : Nat} {i : Int} (hlow : -((1 <<< bits : Nat) : Int) ≤ i)
    (hhigh : i < ((1 <<< bits : Nat) : Int)) : readInteger bits (toString i).toList = some i := by
  cases i with
  | ofNat n =>
      obtain ⟨c, rest, hdigits, hminus, hplus⟩ := exists_toDigits n
      have hbound : n < 1 <<< bits := Int.ofNat_lt.mp hhigh
      have hread : readDigits (1 <<< bits - 1) 0 (Nat.toDigits 10 n) = .ok n :=
        readDigits_toDigits n (by omega)
      rw [hdigits] at hread
      rw [toList_toString_ofNat, hdigits, readInteger]
      · rw [hread]
        rfl
      all_goals simp_all
  | negSucc n =>
      obtain ⟨c, rest, hdigits, -, -⟩ := exists_toDigits (n + 1)
      have hread : readDigits (1 <<< bits) 0 (Nat.toDigits 10 (n + 1)) = .ok (n + 1) :=
        readDigits_toDigits (n + 1) (by omega)
      rw [hdigits] at hread
      rw [toList_toString_negSucc, hdigits, readInteger, hread]
      · rfl
      · simp

/-- No digit is blank. -/
theorem isBlank_of_isDigit {c : Char} (h : c.isDigit = true) : isBlank c = false := by
  have hblank : ∀ n < 10, inRanges blankRanges (n + 48) = false := by decide
  have hbounds : 48 ≤ c.toNat ∧ c.toNat ≤ 57 := by
    simpa [Char.isDigit, UInt32.le_iff_toNat_le] using h
  have hn : c.toNat - 48 + 48 = c.toNat := by omega
  rw [isBlank, ← hn]
  exact hblank _ (by omega)

/-- No blank belongs to a numeral. -/
theorem IsNumeral.isBlank_eq_false {cs : List Char} {n : Nat} (h : IsNumeral cs n) {c : Char}
    (hc : c ∈ cs) : isBlank c = false := by
  cases h with
  | digits hne hdigits => exact isBlank_of_isDigit (hdigits c hc)
  | signed hne hdigits =>
      rcases List.mem_cons.mp hc with rfl | hc
      · decide
      · exact isBlank_of_isDigit (hdigits c hc)

/-- No blank belongs to the text of a number. -/
theorem isBlank_of_mem_toString {i : Int} {c : Char} (h : c ∈ (toString i).toList) :
    isBlank c = false := by
  have hdigit {n : Nat} (hc : c ∈ Nat.toDigits 10 n) : isBlank c = false :=
    isBlank_of_isDigit (isDigit_of_mem_toDigits hc)
  cases i with
  | ofNat n =>
      rw [toList_toString_ofNat] at h
      exact hdigit h
  | negSucc n =>
      rw [toList_toString_negSucc] at h
      rcases List.mem_cons.mp h with rfl | hc
      · decide
      · exact hdigit hc

end AnnotatedText.Text
