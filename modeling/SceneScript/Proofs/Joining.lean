/-
The ways in which lines become a script. They are handed over as they are, or given to a session one by
one, or joined to a text that is cut into lines again. Cutting does not undo joining: a carriage return at
the end of a line is lost, and so is an empty last line. But a line says the same without it
(`readLine_of_looksLike`), and an empty last line says nothing (`run_concat_empty`); so all ways come to
the same, with the same messages (`run_join`, `runFrom_eq_calls`).
-/
import SceneScript.Proofs.Additions
import SceneScript.Proofs.Course
import SceneScript.Proofs.Layout
namespace SceneScript.Text

/-! ## Joined lines -/

/-- Lines with a feed behind each. -/
def feedEach (lines : List (List Char)) : List Char := lines.flatMap fun line => line ++ ['\n']

theorem ends_feedEach {lines : List (List Char)} (hfeed : ∀ line ∈ lines, '\n' ∉ line) :
    Ends lines (feedEach lines) := by
  induction lines with
  | nil => exact .nil
  | cons line lines ih =>
    have hrest := ih fun other hother => hfeed other (List.mem_cons_of_mem _ hother)
    have htext : feedEach (line :: lines) = line ++ '\n' :: feedEach lines := by simp [feedEach]
    rw [htext]
    exact .feed (hfeed line List.mem_cons_self) hrest

theorem ends_feedEach_append {lines : List (List Char)} {last : List Char}
    (hfeed : ∀ line ∈ lines ++ [last], '\n' ∉ line) (hne : last ≠ []) :
    Ends (lines ++ [last]) (feedEach lines ++ last) := by
  induction lines with
  | nil => exact .last (hfeed last (by simp)) hne
  | cons line lines ih =>
    have hrest := ih fun other hother => hfeed other (List.mem_cons_of_mem _ hother)
    have htext : feedEach (line :: lines) ++ last = line ++ '\n' :: (feedEach lines ++ last) := by
      simp [feedEach]
    rw [htext]
    exact .feed (hfeed line (by simp)) hrest

theorem intercalate_feed_concat (lines : List (List Char)) (last : List Char) :
    ['\n'].intercalate (lines ++ [last]) = feedEach lines ++ last := by
  induction lines with
  | nil => simp [feedEach]
  | cons line lines ih =>
    rw [List.cons_append, List.intercalate_cons_of_ne_nil (by simp), ih]
    simp [feedEach]

/-- A line as it stands and without a carriage return at its end look the same. -/
theorem trim_dropReturn (line : List Char) :
    trim (String.ofList (dropReturn '\r' line)) = trim (String.ofList line) := by
  unfold dropReturn
  split
  · rename_i hlast
    obtain ⟨init, rfl⟩ := List.getLast?_eq_some_iff.1 hlast
    have hblank : isBlank '\r' = true := by decide
    simp only [trim, String.toList_ofList, List.dropLast_concat, List.dropWhile_append]
    split
    · rename_i hinit
      rw [List.isEmpty_iff.1 hinit]
      simp [hblank]
    · simp [hblank]
  · rfl

end SceneScript.Text

namespace SceneScript.Script

open Space Number

variable {α : Type}

/-! ## Lines that look the same -/

/-- Two lines have the same words, and are the same without the blanks at their ends. -/
structure LooksLike (line line' : String) : Prop where
  words : Text.words line' = Text.words line
  trim : Text.trim line' = Text.trim line

theorem looksLike_lines {lines : List String} {text : String}
    (h : Text.Ends (lines.map String.toList) text.toList) :
    List.Forall₂ LooksLike lines (Text.lines text) := by
  have hcut := Text.forall₂_lines_dropReturn h
  rw [String.ofList_toList, List.forall₂_map_left_iff] at hcut
  refine hcut.imp fun line line' hline => ?_
  rw [String.ofList_toList] at hline
  rcases hline with rfl | rfl
  · exact ⟨rfl, rfl⟩
  · have hwords := Text.words_dropReturn line.toList
    have htrim := Text.trim_dropReturn line.toList
    rw [String.ofList_toList] at hwords htrim
    exact ⟨hwords, htrim⟩

namespace Session

theorem readLine_of_looksLike {line line' : String} (h : LooksLike line line') (s : Session α)
    (number : Nat) : s.readLine number line' = s.readLine number line := by
  unfold readLine
  rw [statement?_of_words h.words, h.trim]

theorem runFrom_of_looksLike {lines lines' : List String} (h : List.Forall₂ LooksLike lines lines')
    (number : Nat) (s : Session α) :
    s.runFrom number (lines'.map .ok) = s.runFrom number (lines.map .ok) := by
  induction h generalizing number s with
  | nil => rfl
  | @cons line line' lines lines' hline _ ih =>
    simp only [List.map_cons, runFrom, readLine_of_looksLike hline, ih]

/-- An empty line at the end has no effect. -/
theorem run_concat_empty (s : Session α) (lines : List String) :
    s.run ((lines ++ [""]).map .ok) = s.run (lines.map .ok) := by
  have hempty : ∀ (number : Nat) (t : Session α), t.runFrom number [.ok ""] = t.runFrom number [] :=
    fun number t => runFrom_of_ok (readLine_of_none rfl t number) []
  have hlines := runFrom_append [] 1 s lines
  rw [List.append_nil] at hlines
  rw [run, run, List.map_append, List.map_singleton, runFrom_append, hlines]
  simp only [hempty]

/-- Lines joined to a text, and cut out of it again, come to the same. -/
theorem run_join (s : Session α) {lines : List String} (hfeed : ∀ line ∈ lines, '\n' ∉ line.toList)
    {ending : String} (hending : ending = "" ∨ ending = "\n") :
    s.run ((Text.lines ("\n".intercalate lines ++ ending)).map .ok) = s.run (lines.map .ok) := by
  rcases List.eq_nil_or_concat lines with rfl | ⟨first, last, rfl⟩
  · -- without lines there is nothing, or one empty line
    rcases hending with rfl | rfl
    · rfl
    · exact s.run_concat_empty []
  rw [List.concat_eq_append] at *
  have hchars : ("\n".intercalate (first ++ [last])).toList =
      Text.feedEach (first.map String.toList) ++ last.toList := by
    rw [String.toList_intercalate, List.map_append]
    exact Text.intercalate_feed_concat _ _
  have hfeed' : ∀ line ∈ (first ++ [last]).map String.toList, '\n' ∉ line :=
    List.forall_mem_map.2 hfeed
  rcases hending with rfl | rfl
  · rw [String.append_empty]
    by_cases hlast : last = ""
    · -- the last line is empty, and not there when the text is cut
      subst hlast
      have hends := Text.ends_feedEach fun line hline =>
        hfeed' line (by rw [List.map_append]; exact List.mem_append_left _ hline)
      rw [String.toList_empty, List.append_nil] at hchars
      rw [← hchars] at hends
      rw [run_concat_empty]
      exact runFrom_of_looksLike (looksLike_lines hends) 1 s
    · have hsplit : ∀ line ∈ first.map String.toList ++ [last.toList], '\n' ∉ line := by
        simpa using hfeed'
      have hends := Text.ends_feedEach_append hsplit (by simpa using hlast)
      rw [← hchars, ← List.map_singleton, ← List.map_append] at hends
      exact runFrom_of_looksLike (looksLike_lines hends) 1 s
  · have hends := Text.ends_feedEach hfeed'
    have htext : Text.feedEach ((first ++ [last]).map String.toList) =
        ("\n".intercalate (first ++ [last]) ++ "\n").toList := by
      rw [String.toList_append, hchars]
      simp [Text.feedEach]
    rw [htext] at hends
    exact runFrom_of_looksLike (looksLike_lines hends) 1 s

/-! ## Lines given one by one -/

/-- The first failure among what came of some calls, with its index. -/
def firstFailure? : List (Except Fault Unit) → Option (Nat × Fault)
  | [] => none
  | .error fault :: _ => some (0, fault)
  | .ok () :: results => (firstFailure? results).map fun failure => (failure.1 + 1, failure.2)

/-- What comes of lines that are given to a session one by one: those up to the first that fails, and if
none does the session is closed. -/
def dictate (s : Session α) (lines : List String) : Report α :=
  let calls := numberedFrom 1 lines
  match firstFailure? (s.results calls) with
  | some (index, fault) => ⟨.error fault, ((s.logs calls).take (index + 1)).flatten⟩
  | none => ⟨(s.after calls).close.result, (s.logs calls).flatten ++ (s.after calls).close.log⟩

/-- A run over lines and further items is the calls up to the first that fails, or all of them and the run
over the further items. -/
theorem runFrom_eq_calls (items : List (Except Fault String)) :
    ∀ (lines : List String) (number : Nat) (s : Session α),
      let calls := numberedFrom number lines
      s.runFrom number (lines.map .ok ++ items) =
        match firstFailure? (s.results calls) with
        | some (index, fault) => ⟨.error fault, ((s.logs calls).take (index + 1)).flatten⟩
        | none =>
          let later := (s.after calls).runFrom (number + lines.length) items
          ⟨later.result, (s.logs calls).flatten ++ later.log⟩
  | [], _, _ => rfl
  | line :: lines, number, s => by
    simp only [List.map_cons, List.cons_append, numberedFrom_cons, results, logs, after_cons]
    rcases hline : s.readLine number line with ⟨fault | ⟨⟩, session, log⟩
    · rw [runFrom_of_error hline]
      simp [firstFailure?]
    · have hnumber : number + (lines.length + 1) = number + 1 + lines.length := by omega
      rw [runFrom_of_ok hline, runFrom_eq_calls items lines (number + 1) session]
      simp only [firstFailure?, List.length_cons, hnumber]
      cases firstFailure? (session.results (numberedFrom (number + 1) lines)) with
      | some failure => simp
      | none => simp

theorem run_eq_dictate (s : Session α) (lines : List String) : s.run (lines.map .ok) = s.dictate lines := by
  have hrun := runFrom_eq_calls [] lines 1 s
  rw [List.append_nil] at hrun
  exact hrun

end Session

/-! ## All ways come to the same -/

variable [Scalar α] [FromWord α]

/-- The ways into a script agree. Lines without a feed in them come to the same, with the same messages, as
they are handed over in a row, as they are joined to a text, with a feed behind the last or without one, and
as they are given to a session one by one up to the first that fails, the session being closed if none does.
A run that comes to an item which is no line fails for the first failure of the lines before it; if there is
none it fails for that item, whatever comes behind it and however many groups are open. -/
theorem run_ways (policy : Policy) :
    (∀ lines : List String, (∀ line ∈ lines, '\n' ∉ line.toList) →
      let report := (Session.start policy : Session α).run (lines.map .ok)
      readText policy ("\n".intercalate lines) = report ∧
        readText policy ("\n".intercalate lines ++ "\n") = report ∧
        (Session.start policy).dictate lines = report) ∧
    ∀ (s : Session α) (before : List String) (fault : Fault) (later : List (Except Fault String)),
      let calls := numberedFrom 1 before
      s.run (before.map .ok ++ .error fault :: later) =
        match Session.firstFailure? (s.results calls) with
        | some (index, first) => ⟨.error first, ((s.logs calls).take (index + 1)).flatten⟩
        | none => ⟨.error fault, (s.logs calls).flatten⟩ := by
  constructor
  · intro lines hfeed report
    have hjoin := (Session.start policy : Session α).run_join hfeed (.inl rfl)
    rw [String.append_empty] at hjoin
    exact ⟨hjoin, Session.run_join _ hfeed (.inr rfl), (Session.run_eq_dictate _ lines).symm⟩
  · intro s before fault later calls
    have hrun := Session.runFrom_eq_calls (.error fault :: later) before 1 s
    simp only [Session.runFrom_error, List.append_nil] at hrun
    exact hrun

/-- Lines with carriage returns and an empty last one, of which the third fails; and an item that is no line
behind a group left open. -/
theorem run_ways_carriageReturn :
    let s : Session Float := .start ⟨true⟩
    let lines := ["group\r", "", " view 4 x\r\r", ""]
    (∀ line ∈ lines, '\n' ∉ line.toList) ∧
      (readText ⟨true⟩ "group\r\n\n view 4 x\r\r\n" : Report Float) = s.run (lines.map .ok) ∧
      (readText ⟨true⟩ "group\r\n\n view 4 x\r\r\n\n" : Report Float) = s.run (lines.map .ok) ∧
      s.dictate lines = s.run (lines.map .ok) ∧
      (s.run (lines.map .ok)).log = [.reading 1 "group", .reading 3 "view 4 x"] ∧
      (s.run [.ok "group", .ok "sphere", .error (.unreadable "b" notText), .ok "groupend 1", .ok "move"]).result =
        .error (.unreadable "b" notText) := by
  intro s lines
  have hfeed : ∀ line ∈ lines, '\n' ∉ line.toList := by decide
  obtain ⟨hways, hitem⟩ := run_ways (α := Float) ⟨true⟩
  obtain ⟨hjoined, hended, hdictated⟩ := hways lines hfeed
  have hbefore : Session.firstFailure? (s.results (numberedFrom 1 ["group", "sphere"])) = none := by
    decide +kernel
  have hrun := hitem s ["group", "sphere"] (.unreadable "b" notText) [.ok "groupend 1", .ok "move"]
  simp only [hbefore] at hrun
  exact ⟨hfeed, hjoined, hended, hdictated, by decide +kernel, congrArg Report.result hrun⟩

end SceneScript.Script
