/-
The lines of a text, and of a sequence of bytes. A line ends at a line feed, and one carriage
return directly before that feed belongs to the ending; what follows the last feed is a line of
its own unless it is empty. Nothing else ends a line. The cut is the same for characters and for
bytes, so it is made once, over any type with two marks.
-/
namespace SceneScript.Text

/-! ## Cutting at a mark -/

/-- A piece without one `ret` at its end. -/
def dropReturn {α : Type} [DecidableEq α] (ret : α) (line : List α) : List α :=
  if line.getLast? = some ret then line.dropLast else line

/-- The lines of a sequence of which `line`, last element first, has been read since the last
`feed`. -/
def cutFrom {α : Type} [DecidableEq α] (feed ret : α) (line : List α) : List α → List (List α)
  | [] => if line = [] then [] else [line.reverse]
  | a :: as =>
    if a = feed then dropReturn ret line.reverse :: cutFrom feed ret [] as
    else cutFrom feed ret (a :: line) as

/-- The lines of a sequence: each ends at a `feed`, without one `ret` before it. -/
def cut {α : Type} [DecidableEq α] (feed ret : α) (as : List α) : List (List α) :=
  cutFrom feed ret [] as

section
variable {α : Type} [DecidableEq α] {feed ret : α}

@[simp] theorem cut_nil : cut feed ret [] = [] := rfl

/-- A feed ends what stands before it, and nothing else. -/
theorem cutFrom_append_feed (line x y : List α) :
    cutFrom feed ret line (x ++ feed :: y) =
      cutFrom feed ret line (x ++ [feed]) ++ cut feed ret y := by
  induction x generalizing line with
  | nil => simp [cutFrom, cut]
  | cons a x ih =>
    rw [List.cons_append, List.cons_append, cutFrom, cutFrom]
    split
    · rw [ih [], List.cons_append]
    · exact ih (a :: line)

/-- Elements that are no feed lengthen the line that is being read. -/
theorem cutFrom_append {w : List α} (hw : feed ∉ w) (line rest : List α) :
    cutFrom feed ret line (w ++ rest) = cutFrom feed ret (w.reverse ++ line) rest := by
  induction w generalizing line with
  | nil => rfl
  | cons a w ih =>
    have ha : a ≠ feed := fun h => hw (by simp [h])
    simp [cutFrom, ha, ih fun h => hw (by simp [h])]

/-- The first line of a sequence with a feed. -/
theorem cut_feed {w : List α} (hw : feed ∉ w) (rest : List α) :
    cut feed ret (w ++ feed :: rest) = dropReturn ret w :: cut feed ret rest := by
  simp [cut, cutFrom_append hw, cutFrom]

/-- A sequence without a feed is one line as it stands, unless it is empty. -/
theorem cut_of_not_mem {w : List α} (hw : feed ∉ w) (hne : w ≠ []) : cut feed ret w = [w] := by
  have h : cutFrom feed ret [] (w ++ []) = _ := cutFrom_append hw [] []
  simpa [cut, cutFrom, hne] using h

end

/-! ## Texts and bytes -/

/-- The lines of a text. -/
def lines (text : String) : List String :=
  (cut '\n' '\r' text.toList).map String.ofList

/-- The lines of a sequence of bytes, each `none` where it is not UTF-8. -/
def linesOfBytes (bytes : List UInt8) : List (Option String) :=
  (cut 0x0A 0x0D bytes).map fun line => String.fromUTF8? ⟨line.toArray⟩

end SceneScript.Text
