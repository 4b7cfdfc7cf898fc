import AnnotatedText.Text.Blank
import AnnotatedText.Text.Letter
import AnnotatedText.Text.Numeral
import AnnotatedText.Text.Utf8

/-!
# Tokens

A text is cut into runs: neighbouring letters belong to one run, so do neighbouring numerals, and
every other character is a run of its own. The runs that are not blank are the tokens. Letters come
before numerals, so a character that is both, such as a roman numeral, counts as a letter.

`runs` merges from the right: a character joins the run that begins right behind it if both are of
one class that is grouped. Nothing is lost (`flatMap_runs`), no run is empty (`run_ne_nil`), and all
characters of a run are of its class (`classify_of_mem_runs`).
-/

namespace AnnotatedText

/-- What a character is to the tokenizer. -/
inductive CharClass where
  | blank
  | letter
  | numeral
  | other
  deriving DecidableEq

/-- The class of a character. -/
def CharClass.of (c : Char) : CharClass :=
  if Text.isBlank c then .blank
  else if Text.isLetter c then .letter
  else if Text.isNumeral c then .numeral
  else .other

/-- Whether neighbouring characters of the class make up one run. -/
def CharClass.isGrouped : CharClass → Bool
  | .letter | .numeral => true
  | .blank | .other => false

/-- A run of characters of one class. -/
abbrev Run := CharClass × List Char

/-- The runs of a text, in order. -/
def runs : List Char → List Run
  | [] => []
  | c :: rest =>
    match runs rest with
    | [] => [(CharClass.of c, [c])]
    | (k, cs) :: more =>
      if CharClass.of c = k ∧ k.isGrouped then (k, c :: cs) :: more
      else (CharClass.of c, [c]) :: (k, cs) :: more

/-- A token: its text and the byte offset at which it begins. -/
structure Token where
  start : Nat
  text : String
  deriving DecidableEq

/-- The byte offset behind the token. -/
def Token.stop (t : Token) : Nat := t.start + Text.byteLength t.text.toList

/-- The tokens among runs that begin at the byte offset `start`. -/
def tokensFrom (start : Nat) : List Run → List Token
  | [] => []
  | (k, cs) :: rest =>
    let behind := tokensFrom (start + Text.byteLength cs) rest
    if k = .blank then behind else ⟨start, String.ofList cs⟩ :: behind

/-- The tokens of a text, in order. -/
def tokens (s : String) : List Token := tokensFrom 0 (runs s.toList)

/-- The texts of the tokens of a text. -/
def tokenize (s : String) : List String := (tokens s).map Token.text

/-! ### Basic facts on runs -/

/-- Nothing is lost between the runs. -/
@[simp] theorem flatMap_runs (cs : List Char) : (runs cs).flatMap Prod.snd = cs := by
  induction cs with
  | nil => rfl
  | cons c rest ih =>
    simp only [runs]
    split
    · rename_i h; simp_all
    · rename_i k ds more h
      split
      · rename_i hk; rw [h] at ih; simp_all
      · rw [h] at ih; simp_all

/-- No run is empty. -/
theorem run_ne_nil {cs : List Char} {r : Run} (h : r ∈ runs cs) : r.2 ≠ [] := by
  induction cs generalizing r with
  | nil => simp [runs] at h
  | cons c rest ih =>
    simp only [runs] at h
    split at h
    · simp_all
    · rename_i k ds more hr
      split at h
      · simp only [List.mem_cons] at h
        rcases h with rfl | h
        · simp
        · exact ih (by rw [hr]; exact List.mem_cons_of_mem _ h)
      · simp only [List.mem_cons] at h
        rcases h with rfl | h
        · simp
        · exact ih (by rw [hr]; simpa using h)

/-- All characters of a run are of its class. -/
theorem classify_of_mem_runs {cs : List Char} {r : Run} (h : r ∈ runs cs) {c : Char}
    (hc : c ∈ r.2) : CharClass.of c = r.1 := by
  induction cs generalizing r with
  | nil => simp [runs] at h
  | cons d rest ih =>
    simp only [runs] at h
    split at h
    · simp_all
    · rename_i k ds more hr
      split at h
      · rename_i hk
        simp only [List.mem_cons] at h
        rcases h with rfl | h
        · simp only [List.mem_cons] at hc
          rcases hc with rfl | hc
          · exact hk.1
          · exact ih (r := (k, ds)) (by rw [hr]; simp) hc
        · exact ih (by rw [hr]; exact List.mem_cons_of_mem _ h) hc
      · simp only [List.mem_cons] at h
        rcases h with rfl | h
        · simp_all
        · exact ih (by rw [hr]; simpa using h) hc

end AnnotatedText
