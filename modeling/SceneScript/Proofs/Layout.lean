/-
Layout: the many texts that write down the same statements. A statement is spelled on a line by its
words with blanks around and between them; lines that ask for nothing may stand anywhere; every line
has one of two endings. None of these choices is seen by the words of a line
(`words_of_spells`), by the lines of a text (`forall₂_lines`), or by the reading of a script, except in
the number of the line that a fault names (`readText_layout`).
-/
import SceneScript.Proofs.Statements
namespace SceneScript.Text

/-! ## Spelling words on a line -/

/-- Blanks. -/
def Gap (g : List Char) : Prop := ∀ c ∈ g, isBlank c = true

/-- A word is not empty and holds no blank. -/
def IsWord (w : String) : Prop := w ≠ "" ∧ ∀ c ∈ w.toList, isBlank c = false

instance (g : List Char) : Decidable (Gap g) :=
  List.decidableBAll (fun c => isBlank c = true) g

instance (w : String) : Decidable (IsWord w) :=
  haveI := List.decidableBAll (fun c => isBlank c = false) w.toList
  inferInstanceAs (Decidable (w ≠ "" ∧ ∀ c ∈ w.toList, isBlank c = false))

/-- Words from the front of a line on, with a gap between any two and perhaps one behind the last. -/
inductive SpellsFrom : List String → List Char → Prop
  | last {w : String} {g : List Char} : IsWord w → Gap g → SpellsFrom [w] (w.toList ++ g)
  | cons {w : String} {g : List Char} {ws : List String} {rest : List Char} :
    IsWord w → Gap g → g ≠ [] → SpellsFrom ws rest → SpellsFrom (w :: ws) (w.toList ++ g ++ rest)

/-- A line spells words: perhaps there is a gap in front of the first. -/
def Spells (ws : List String) (line : List Char) : Prop :=
  ∃ g rest, Gap g ∧ SpellsFrom ws rest ∧ line = g ++ rest

theorem wordsFrom_gap_append {g : List Char} (hg : Gap g) (rest : List Char) :
    wordsFrom [] (g ++ rest) = wordsFrom [] rest := by
  induction g with
  | nil => rfl
  | cons b g ih =>
    rw [List.cons_append, wordsFrom_blank_cons (hg b (by simp))]
    exact ih fun c hc => hg c (by simp [hc])

theorem wordsFrom_gap {g : List Char} (hg : Gap g) : wordsFrom [] g = [] := by
  have h := wordsFrom_gap_append hg []
  rwa [List.append_nil] at h

theorem IsWord.wordsFrom {w : String} (hw : IsWord w) : Text.wordsFrom [] w.toList = [w.toList] := by
  refine wordsFrom_of_forall hw.2 fun h => hw.1 ?_
  rw [← String.ofList_toList (s := w), h]

/-- A word ends at the gap behind it. -/
theorem IsWord.wordsFrom_append {w : String} (hw : IsWord w) {g : List Char} (hg : Gap g)
    (hne : g ≠ []) (rest : List Char) :
    Text.wordsFrom [] (w.toList ++ g ++ rest) = w.toList :: Text.wordsFrom [] rest := by
  cases g with
  | nil => exact absurd rfl hne
  | cons b g =>
    have hb : isBlank b = true := hg b (by simp)
    have hgap : Gap g := fun c hc => hg c (by simp [hc])
    rw [List.append_assoc, List.cons_append, wordsFrom_append_blank hb, hw.wordsFrom,
      wordsFrom_gap_append hgap]
    rfl

theorem SpellsFrom.wordsFrom {ws : List String} {line : List Char} (h : SpellsFrom ws line) :
    Text.wordsFrom [] line = ws.map String.toList := by
  induction h with
  | @last w g hw hg =>
    -- without a gap behind it the last word ends with the line
    by_cases hne : g = []
    · subst hne
      rw [List.append_nil, hw.wordsFrom]
      rfl
    · have h := hw.wordsFrom_append hg hne []
      rw [List.append_nil] at h
      rw [h]
      rfl
  | cons hw hg hne _ ih =>
    rw [hw.wordsFrom_append hg hne, ih]
    rfl

/-- A line has the words that it spells. -/
theorem words_of_spells {ws : List String} {line : List Char} (h : Spells ws line) :
    words (String.ofList line) = ws := by
  obtain ⟨g, rest, hg, hrest, rfl⟩ := h
  rw [words, String.toList_ofList, wordsFrom_gap_append hg, hrest.wordsFrom, List.map_map]
  have hid : String.ofList ∘ String.toList = id := by
    funext w
    exact String.ofList_toList
  rw [hid, List.map_id]

/-- The first word of a line starts with the first character that is not blank. -/
theorem exists_wordsFrom_eq_cons (word cs : List Char) (hne : word ≠ []) :
    ∃ tail later, wordsFrom word cs = (word.reverse ++ tail) :: later := by
  induction cs generalizing word with
  | nil => exact ⟨[], [], by simp [wordsFrom, hne]⟩
  | cons c cs ih =>
    rw [wordsFrom]
    split
    · exact ⟨[], _, by rw [List.append_nil]⟩
    · obtain ⟨tail, later, h⟩ := ih (c :: word) (by simp)
      exact ⟨c :: tail, later, by rw [h, List.reverse_cons, List.append_assoc]; rfl⟩

/-! ## Lines and their endings -/

/-- A text is made of lines with their endings. The last line may do without one unless it is
empty: then it is not there. -/
inductive Ends : List (List Char) → List Char → Prop
  | nil : Ends [] []
  | last {line : List Char} : '\n' ∉ line → line ≠ [] → Ends [line] line
  | feed {line : List Char} {lines : List (List Char)} {rest : List Char} :
    '\n' ∉ line → Ends lines rest → Ends (line :: lines) (line ++ '\n' :: rest)
  | returnFeed {line : List Char} {lines : List (List Char)} {rest : List Char} :
    '\n' ∉ line → Ends lines rest → Ends (line :: lines) (line ++ '\r' :: '\n' :: rest)

/-- A carriage return at the end of a line belongs to no word. -/
theorem words_dropReturn (line : List Char) :
    words (String.ofList (dropReturn '\r' line)) = words (String.ofList line) := by
  unfold dropReturn
  split
  · rename_i hlast
    obtain ⟨init, rfl⟩ := List.getLast?_eq_some_iff.1 hlast
    rw [List.dropLast_concat, words, words, String.toList_ofList, String.toList_ofList,
      wordsFrom_append_blank (by decide), wordsFrom_nil, List.append_nil]
  · rfl

/-- The lines of a text are those that it is made of, but a carriage return at the end of one may be
lost. -/
theorem forall₂_lines_dropReturn {lines : List (List Char)} {text : List Char} (h : Ends lines text) :
    List.Forall₂ (fun line line' =>
        line' = String.ofList line ∨ line' = String.ofList (dropReturn '\r' line)) lines
      (Text.lines (String.ofList text)) := by
  simp only [Text.lines, String.toList_ofList]
  induction h with
  | nil => exact .nil
  | last hfeed hne =>
    rw [cut_of_not_mem hfeed hne]
    exact .cons (.inl rfl) .nil
  | feed hfeed _ ih =>
    rw [cut_feed hfeed]
    exact .cons (.inr rfl) ih
  | @returnFeed line _ rest hfeed _ ih =>
    have hfeed' : '\n' ∉ line ++ ['\r'] := by simp [hfeed]
    have hcut : cut '\n' '\r' _ = _ := cut_feed hfeed' rest
    rw [List.append_assoc, List.singleton_append] at hcut
    rw [hcut]
    refine .cons (.inl ?_) ih
    rw [dropReturn, if_pos List.getLast?_concat, List.dropLast_concat]

/-- The lines of a text are those that it is made of, up to blanks at their ends. -/
theorem forall₂_lines {lines : List (List Char)} {text : List Char} (h : Ends lines text) :
    List.Forall₂ (fun line line' => words line' = words (String.ofList line)) lines
      (Text.lines (String.ofList text)) := by
  refine (forall₂_lines_dropReturn h).imp fun line line' hline => ?_
  rcases hline with rfl | rfl
  · rfl
  · exact words_dropReturn line

end SceneScript.Text

namespace SceneScript.Script

open Space Number Text

/-! ## Scripts laid out -/

/-- Lines that ask for nothing: blank ones, comments, lines with an unknown word in front, and
textures. -/
inductive Silent : List Char → Prop
  | blank {g : List Char} : Gap g → Silent g
  | comment {g rest : List Char} : Gap g → Silent (g ++ '#' :: rest)
  | unknown {w : String} {ws : List String} {line : List Char} :
    Spells (w :: ws) line → (∀ c : Command, c.name ≠ w) → Silent line
  | texture {ws : List String} {line : List Char} : Spells (Command.texture.name :: ws) line → Silent line

/-- A line spells a statement: it is no comment. -/
def SpellsStatement (statement : Statement) (line : List Char) : Prop :=
  Spells (statement.1 :: statement.2) line ∧ statement.1.toList.head? ≠ some '#'

/-- A text writes statements down, each on the line with the number given for it. -/
def Lays (statements : List Statement) (numbers : List Nat) (text : String) : Prop :=
  ∃ lines, Rows Silent SpellsStatement 1 statements numbers lines ∧ Ends lines text.toList

theorem statement?_of_words {line line' : String} (h : words line' = words line) :
    statement? line' = statement? line := by
  rw [statement?, statement?, h]

theorem statement?_of_spells {w : String} {ws : List String} {line : List Char}
    (h : Spells (w :: ws) line) :
    statement? (String.ofList line) = if w.toList.head? = some '#' then none else some (w, ws) := by
  rw [statement?, words_of_spells h]

theorem SpellsStatement.states {statement : Statement} {line : List Char}
    (h : SpellsStatement statement line) : States statement (String.ofList line) := by
  obtain ⟨hspells, hcomment⟩ := h
  rw [States, statement?_of_spells hspells, if_neg hcomment]

theorem idle_of_spells {w : String} {ws : List String} {line : List Char} (h : Spells (w :: ws) line)
    (hw : ∀ c, Command.ofName? w = some c → c = .texture) : Idle (String.ofList line) := by
  have hstatement := statement?_of_spells h
  split at hstatement
  · exact idle_of_none hstatement
  · exact idle_of_word hstatement hw

theorem Silent.idle {line : List Char} (h : Silent line) : Idle (String.ofList line) := by
  cases h with
  | blank hg =>
    refine idle_of_none ?_
    rw [statement?, Text.words, String.toList_ofList, wordsFrom_gap hg]
    rfl
  | @comment g rest hg =>
    -- whatever follows the mark, the first word starts with it
    obtain ⟨tail, later, hwords⟩ := exists_wordsFrom_eq_cons ['#'] rest (by simp)
    refine idle_of_none ?_
    rw [statement?, Text.words, String.toList_ofList, wordsFrom_gap_append hg, wordsFrom,
      isBlank_numberSign, if_neg Bool.false_ne_true, hwords, List.map_cons]
    simp
  | unknown hspells hw => exact idle_of_spells hspells fun c hc => absurd (Command.name_of_ofName? hc) (hw c)
  | texture hspells =>
    have htexture : Command.ofName? Command.texture.name = some .texture := by decide
    refine idle_of_spells hspells fun c hc => ?_
    rw [htexture] at hc
    cases hc
    rfl

/-- The lines of a text make the statements that it writes down. -/
theorem Lays.rows {statements : List Statement} {numbers : List Nat} {text : String}
    (h : Lays statements numbers text) :
    Rows Idle States 1 statements numbers (Text.lines text) := by
  obtain ⟨lines, hrows, hends⟩ := h
  have hlines := forall₂_lines hends
  rw [String.ofList_toList] at hlines
  refine hrows.imp ?_ ?_ hlines
  · intro line line' hwords hsilent c words hc
    refine hsilent.idle c words ?_
    rw [command?, ← statement?_of_words hwords]
    exact hc
  · intro statement line line' hwords hspells
    rw [States, statement?_of_words hwords]
    exact hspells.states

/-! ## The same statements in another layout -/

section
variable {α : Type} [Scalar α] [FromWord α]

theorem Fault.line?_atLine (n : Nat) (fault : Fault) :
    (fault.atLine n).line? = fault.line?.map fun _ => n := by
  cases fault <;> rfl

/-- What comes of two texts is the same: the same scene, or faults that differ at most in their lines,
which are then those on which the texts have the same statement. -/
def SameOutcome (numbers numbers' : List Nat) :
    Except Fault (Scene α) → Except Fault (Scene α) → Prop
  | .ok scene, .ok scene' => scene' = scene
  | .error fault, .error fault' =>
    fault'.atLine 0 = fault.atLine 0 ∧
      (fault.line? = none ∧ fault'.line? = none ∨
        ∃ index n n' : Nat, numbers[index]? = some n ∧ numbers'[index]? = some n' ∧
          fault.line? = some n ∧ fault'.line? = some n')
  | _, _ => False

omit [Scalar α] [FromWord α] in
theorem sameOutcome_atLine {numbers numbers' : List Nat} {index n n' : Nat}
    (hn : numbers[index]? = some n) (hn' : numbers'[index]? = some n') (fault : Fault) :
    SameOutcome (α := α) numbers numbers' (.error (fault.atLine n)) (.error (fault.atLine n')) := by
  refine ⟨by rw [Fault.atLine_atLine, Fault.atLine_atLine], ?_⟩
  rw [Fault.line?_atLine, Fault.line?_atLine]
  cases fault.line? with
  | none => exact .inl ⟨rfl, rfl⟩
  | some _ => exact .inr ⟨index, n, n', hn, hn', rfl, rfl⟩

omit [Scalar α] [FromWord α] in
theorem sameOutcome_close (numbers numbers' : List Nat) (s : Session α) :
    SameOutcome numbers numbers' s.close.result s.close.result := by
  unfold Session.close
  simp only
  split
  · exact (rfl : s.workspace.scene = s.workspace.scene)
  · split
    · exact ⟨rfl, .inl ⟨rfl, rfl⟩⟩
    · exact (rfl : s.workspace.scene = s.workspace.scene)

/-- The layout of a script says nothing: two texts that write the same statements down are read as the
same scene, or they are refused for the same fault, each on its own line with that statement. -/
theorem readText_layout {statements : List Statement} {numbers numbers' : List Nat}
    {text text' : String} (h : Lays statements numbers text) (h' : Lays statements numbers' text')
    (policy : Policy) :
    SameOutcome numbers numbers' (readText policy text : Report α).result
      (readText policy text' : Report α).result := by
  have hrun := h.rows.runFrom (s := (Session.start policy : Session α)) rfl
  have hrun' := h'.rows.runFrom (s := (Session.start policy : Session α)) rfl
  cases hfollow : (Session.start policy : Session α).follow statements with
  | ok last =>
    rw [hfollow] at hrun hrun'
    have hresult : (readText policy text : Report α).result = last.close.result := hrun
    have hresult' : (readText policy text' : Report α).result = last.close.result := hrun'
    rw [hresult, hresult']
    exact sameOutcome_close numbers numbers' last
  | error failure =>
    obtain ⟨index, fault⟩ := failure
    rw [hfollow] at hrun hrun'
    obtain ⟨n, hn, hresult⟩ := hrun
    obtain ⟨n', hn', hresult'⟩ := hrun'
    have hleft : (readText policy text : Report α).result = .error (fault.atLine n) := hresult
    have hright : (readText policy text' : Report α).result = .error (fault.atLine n') := hresult'
    rw [hleft, hright]
    exact sameOutcome_atLine hn hn' fault

/-- An argument is missing on the second line of one text and on the fifth of the other. -/
theorem readText_layout_missingArgument :
    let statements := [("group", []), ("view", ["1"])]
    let text := "group\nview 1"
    let text' := "# a note\r\n\n\u0085group \t\r\nfrobnicate 1\nview\u20281\r\n"
    Lays statements [1, 2] text ∧ Lays statements [3, 5] text' ∧
      SameOutcome [1, 2] [3, 5] (readText {} text : Report Float).result
        (readText {} text' : Report Float).result := by
  intro statements text text'
  have hgroup : IsWord "group" := by decide
  have hview : IsWord "view" := by decide
  have hone : IsWord "1" := by decide
  have hunknown : IsWord "frobnicate" := by decide
  have hnone : Gap [] := by decide
  have hspace : Gap [' '] := by decide
  have h : Lays statements [1, 2] text := by
    refine ⟨["group".toList, "view 1".toList], ?_, ?_⟩
    · refine .write ⟨⟨[], _, hnone, .last hgroup hnone, rfl⟩, by decide⟩ ?_
      exact .write ⟨⟨[], _, hnone, .cons hview hspace (by decide) (.last hone hnone), rfl⟩, by decide⟩ .nil
    · have htext : text.toList = "group".toList ++ '\n' :: "view 1".toList := by decide +kernel
      rw [htext]
      exact .feed (by decide) (.last (by decide) (by decide))
  have hspells : Spells ["frobnicate", "1"] "frobnicate 1".toList :=
    ⟨[], _, hnone, .cons hunknown hspace (by decide) (.last hone hnone), rfl⟩
  have h' : Lays statements [3, 5] text' := by
    refine ⟨["# a note".toList, [], "\u0085group \t".toList, "frobnicate 1".toList,
      "view\u20281".toList], ?_, ?_⟩
    · refine .skip (.comment (g := []) hnone) (.skip (.blank hnone) ?_)
      refine .write ⟨⟨['\u0085'], _, by decide, .last (g := [' ', '\t']) hgroup (by decide), rfl⟩, by decide⟩ ?_
      refine .skip (.unknown hspells fun c => by cases c <;> decide) ?_
      exact .write ⟨⟨[], _, hnone, .cons (g := ['\u2028']) hview (by decide) (by decide)
          (.last hone hnone), rfl⟩, by decide⟩ .nil
    · have htext : text'.toList = "# a note".toList ++ '\r' :: '\n' :: ([] ++ '\n' ::
          ("\u0085group \t".toList ++ '\r' :: '\n' :: ("frobnicate 1".toList ++ '\n' ::
            ("view\u20281".toList ++ '\r' :: '\n' :: [])))) := by
        decide +kernel
      rw [htext]
      exact .returnFeed (by decide) (.feed (by decide) (.returnFeed (by decide) (.feed (by decide)
        (.returnFeed (by decide) .nil))))
  exact ⟨h, h', readText_layout h h' {}⟩

end

end SceneScript.Script
