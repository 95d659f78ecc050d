/-
The words of a line. A word is a longest run of characters that are not blank; which blanks stand
between two words, and how many, is not part of what a line says. All that is needed of words
follows from two facts: a blank separates (`wordsFrom_append_blank`), and what holds no blank is
one word (`wordsFrom_of_forall`).
-/
import SceneScript.Text.Blank
namespace SceneScript.Text

/-- The words of a line of which `word`, last character first, has been read without a blank. -/
def wordsFrom (word : List Char) : List Char → List (List Char)
  | [] => if word = [] then [] else [word.reverse]
  | c :: cs =>
    if isBlank c then
      if word = [] then wordsFrom [] cs else word.reverse :: wordsFrom [] cs
    else wordsFrom (c :: word) cs

/-- The words of a line, in order. -/
def words (line : String) : List String :=
  (wordsFrom [] line.toList).map String.ofList

@[simp] theorem wordsFrom_nil : wordsFrom [] [] = [] := rfl

/-- A blank ends what stands before it, and nothing else. -/
theorem wordsFrom_append_blank {b : Char} (hb : isBlank b = true) (word x y : List Char) :
    wordsFrom word (x ++ b :: y) = wordsFrom word x ++ wordsFrom [] y := by
  induction x generalizing word with
  | nil => by_cases hw : word = [] <;> simp [wordsFrom, hb, hw]
  | cons c x ih =>
    rw [List.cons_append, wordsFrom, wordsFrom]
    split
    · split
      · exact ih []
      · rw [ih [], List.cons_append]
    · exact ih (c :: word)

/-- A blank in front of a line belongs to no word. -/
theorem wordsFrom_blank_cons {b : Char} (hb : isBlank b = true) (y : List Char) :
    wordsFrom [] (b :: y) = wordsFrom [] y :=
  wordsFrom_append_blank hb [] [] y

/-- Characters that are not blank lengthen the word that is being read. -/
theorem wordsFrom_append {w : List Char} (hw : ∀ c ∈ w, isBlank c = false)
    (word rest : List Char) :
    wordsFrom word (w ++ rest) = wordsFrom (w.reverse ++ word) rest := by
  induction w generalizing word with
  | nil => rfl
  | cons c w ih =>
    have hc : isBlank c = false := hw c (by simp)
    simp [wordsFrom, hc, ih fun d hd => hw d (by simp [hd])]

/-- A line that is not empty and holds no blank is one word. -/
theorem wordsFrom_of_forall {w : List Char} (hw : ∀ c ∈ w, isBlank c = false) (hne : w ≠ []) :
    wordsFrom [] w = [w] := by
  simpa [wordsFrom, hne] using wordsFrom_append hw [] []

/-- No word is empty, and no word holds a blank. -/
theorem of_mem_wordsFrom {w word cs : List Char} (hword : ∀ c ∈ word, isBlank c = false)
    (h : w ∈ wordsFrom word cs) : w ≠ [] ∧ ∀ c ∈ w, isBlank c = false := by
  induction cs generalizing word with
  | nil =>
    by_cases hn : word = []
    · simp [wordsFrom, hn] at h
    · obtain rfl : w = word.reverse := by simpa [wordsFrom, hn] using h
      exact ⟨by simpa using hn, fun c hc => hword c (by simpa using hc)⟩
  | cons c cs ih =>
    rw [wordsFrom] at h
    split at h
    · split at h
      · exact ih (by simp) h
      · rename_i hn
        rcases List.mem_cons.1 h with rfl | h
        · exact ⟨by simpa using hn, fun c hc => hword c (by simpa using hc)⟩
        · exact ih (by simp) h
    · rename_i hc
      refine ih (fun d hd => ?_) h
      rcases List.mem_cons.1 hd with rfl | hd
      · simpa using hc
      · exact hword d hd

end SceneScript.Text
