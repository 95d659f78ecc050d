/-
The course of a run: how far it comes, and what it has said by then. A run carries lines out until one
fails, until an item is no line, or until the items end, where groups left open may be refused. Nothing
else decides about its messages: they are those about the lines that were reached, the failing one
included, and those of a run that ends with a scene (`course_iff`). Each line is spoken of under its own
number (`mem_messagesFrom`), and a line that fails is spoken of last.
-/
import Mathlib.Control.Monad.Basic
import SceneScript.Proofs.Calls
namespace SceneScript.Script

open Space Number

variable {α : Type}

/-! ## Messages about lines -/

/-- What is said about a line that is carried out: that it is, unless it makes no statement, and that
its first word is unknown, if it is. -/
def messages (v : Vocabulary α) (number : Nat) (line : String) : List Message :=
  match statement? line with
  | none => []
  | some (word, _) =>
    .reading number (Text.trim line) ::
      if (v.find? word).isNone then [.unknownCommand number word] else []

def messagesFrom (v : Vocabulary α) (number : Nat) (lines : List String) : List Message :=
  (lines.zipIdx number).flatMap fun numbered => messages v numbered.2 numbered.1

theorem messagesFrom_cons (v : Vocabulary α) (number : Nat) (line : String) (lines : List String) :
    messagesFrom v number (line :: lines) =
      messages v number line ++ messagesFrom v (number + 1) lines := by
  rw [messagesFrom, List.zipIdx_cons, List.flatMap_cons]
  rfl

theorem messagesFrom_concat (v : Vocabulary α) (number : Nat) (lines : List String) (line : String) :
    messagesFrom v number (lines ++ [line]) =
      messagesFrom v number lines ++ messages v (number + lines.length) line := by
  rw [messagesFrom, List.zipIdx_append, List.flatMap_append]
  simp only [List.zipIdx_singleton, List.flatMap_singleton]
  rfl

/-- Lines as calls, numbered upwards. -/
def numberedFrom (number : Nat) (lines : List String) : List (Nat × String) :=
  (lines.zipIdx number).map Prod.swap

theorem numberedFrom_cons (number : Nat) (line : String) (lines : List String) :
    numberedFrom number (line :: lines) = (number, line) :: numberedFrom (number + 1) lines := rfl

namespace Session

theorem log_readLine (s : Session α) (number : Nat) (line : String) :
    (s.readLine number line).log = messages s.vocabulary number line := by
  unfold messages
  cases hs : statement? line with
  | none => rw [readLine_of_none hs]
  | some statement =>
    obtain ⟨word, words⟩ := statement
    cases hf : s.vocabulary.find? word with
    | none =>
      rw [readLine_of_unknown hs hf]
      simp [hf]
    | some action =>
      rw [readLine_of_action hs hf]
      simp [hf]

def SucceedsFrom (number : Nat) (s : Session α) (lines : List String) : Prop :=
  ∀ result ∈ s.results (numberedFrom number lines), result = .ok ()

theorem succeedsFrom_cons {number : Nat} {s : Session α} {line : String} {lines : List String} :
    s.SucceedsFrom number (line :: lines) ↔ (s.readLine number line).result = .ok () ∧
      (s.readLine number line).session.SucceedsFrom (number + 1) lines := by
  unfold SucceedsFrom
  rw [numberedFrom_cons, results, List.forall_mem_cons]

/-- Behind lines that succeed the session is the one after their calls, and all of them have been
spoken of. -/
theorem advance_of_succeeds : ∀ {lines : List String} {number : Nat} {s : Session α},
    s.SucceedsFrom number lines → s.advance number lines =
      (.ok (s.after (numberedFrom number lines)), messagesFrom s.vocabulary number lines)
  | [], _, _, _ => rfl
  | line :: lines, number, s, h => by
    obtain ⟨hline, hlater⟩ := succeedsFrom_cons.1 h
    have ih := advance_of_succeeds hlater
    have hlog := s.log_readLine number line
    have hkeeps := (readLine_keeps (s := s) number line).1
    rw [advance, numberedFrom_cons, after_cons, messagesFrom_cons, ← hlog, ← hkeeps]
    cases hreport : s.readLine number line with
    | mk result session log =>
    rw [hreport] at hline ih
    obtain rfl : result = .ok () := hline
    simp only [ih]

/-- A run goes on behind lines that succeed. -/
theorem runFrom_of_succeeds {number : Nat} {s : Session α} {lines : List String}
    (h : s.SucceedsFrom number lines) (items : List (Except Fault String)) :
    s.runFrom number (lines.map .ok ++ items) =
      let later := (s.after (numberedFrom number lines)).runFrom (number + lines.length) items
      ⟨later.result, messagesFrom s.vocabulary number lines ++ later.log⟩ := by
  rw [runFrom_append, advance_of_succeeds h]

/-- Items begin with lines that succeed, up to the end, an item that is no line, or a line that
fails. -/
theorem exists_succeeds : ∀ (items : List (Except Fault String)) (number : Nat) (s : Session α),
    ∃ (lines : List String) (rest : List (Except Fault String)), items = lines.map .ok ++ rest ∧
      s.SucceedsFrom number lines ∧
      (rest = [] ∨ (∃ fault later, rest = .error fault :: later) ∨
        ∃ line fault later, rest = .ok line :: later ∧
          ((s.after (numberedFrom number lines)).readLine (number + lines.length) line).result =
            .error fault)
  | [], _, _ => ⟨[], [], rfl, nofun, .inl rfl⟩
  | .error fault :: items, _, _ => ⟨[], _, rfl, nofun, .inr (.inl ⟨fault, items, rfl⟩)⟩
  | .ok line :: items, number, s => by
    cases hline : (s.readLine number line).result with
    | error fault => exact ⟨[], _, rfl, nofun, .inr (.inr ⟨line, fault, items, rfl, hline⟩)⟩
    | ok =>
      obtain ⟨lines, rest, rfl, hlines, hrest⟩ :=
        exists_succeeds items (number + 1) (s.readLine number line).session
      refine ⟨line :: lines, rest, rfl, succeedsFrom_cons.2 ⟨hline, hlines⟩, ?_⟩
      have hnumber : number + (line :: lines).length = number + 1 + lines.length := by
        rw [List.length_cons]
        omega
      rw [hnumber]
      exact hrest

/-! ## The ways in which a run ends -/

/-- The report of a run, by the way in which it ends. -/
inductive Course (s : Session α) : List (Except Fault String) → Report α → Prop
  /-- A line fails; what comes behind it is not looked at. -/
  | failingLine {lines : List String} {line : String} {fault : Fault}
      {later : List (Except Fault String)} :
    s.SucceedsFrom 1 lines →
    ((s.after (numberedFrom 1 lines)).readLine (lines.length + 1) line).result = .error fault →
    Course s (lines.map .ok ++ .ok line :: later)
      ⟨.error fault, messagesFrom s.vocabulary 1 (lines ++ [line])⟩
  /-- An item is no line. -/
  | failingItem {lines : List String} {fault : Fault} {later : List (Except Fault String)} :
    s.SucceedsFrom 1 lines →
    Course s (lines.map .ok ++ .error fault :: later)
      ⟨.error fault, messagesFrom s.vocabulary 1 lines⟩
  /-- Groups are left open, and that is not tolerated. -/
  | openGroups {lines : List String} {count : Nat} :
    s.SucceedsFrom 1 lines →
    (s.after (numberedFrom 1 lines)).workspace.frames.openGroups = count → 0 < count →
    s.policy.strictGroups = true →
    Course s (lines.map .ok) ⟨.error (.openGroups count), messagesFrom s.vocabulary 1 lines⟩
  /-- The run ends with a scene. -/
  | finished {lines : List String} {count : Nat} {scene : Scene α} :
    s.SucceedsFrom 1 lines →
    (s.after (numberedFrom 1 lines)).workspace.frames.openGroups = count →
    (s.policy.strictGroups = true → count = 0) →
    (s.after (numberedFrom 1 lines)).workspace.scene = scene →
    Course s (lines.map .ok) ⟨.ok scene, messagesFrom s.vocabulary 1 lines ++
      (if 0 < count then [.groupsLeftOpen count] else []) ++
      [.finished scene.imageSize scene.lights.size scene.objects.size]⟩

/-- Behind lines that succeed, the end of the items is the end of the session. -/
theorem run_of_succeeds {s : Session α} {lines : List String} (h : s.SucceedsFrom 1 lines) :
    s.run (lines.map .ok) =
      ⟨(s.after (numberedFrom 1 lines)).close.result,
        messagesFrom s.vocabulary 1 lines ++ (s.after (numberedFrom 1 lines)).close.log⟩ := by
  have hrun := runFrom_of_succeeds h []
  rw [List.append_nil] at hrun
  exact hrun

theorem Course.run_eq {s : Session α} {items : List (Except Fault String)} {report : Report α}
    (h : s.Course items report) : s.run items = report := by
  cases h with
  | @failingLine lines line fault later hlines hline =>
    have hlog := (s.after (numberedFrom 1 lines)).log_readLine (lines.length + 1) line
    rw [(s.after_keeps (numberedFrom 1 lines)).1] at hlog
    rw [run, runFrom_of_succeeds hlines, messagesFrom_concat, Nat.add_comm, ← hlog]
    cases hreport : (s.after (numberedFrom 1 lines)).readLine (lines.length + 1) line with
    | mk result session log =>
    rw [hreport] at hline
    obtain rfl : result = .error fault := hline
    rw [runFrom_of_error hreport]
  | failingItem hlines =>
    rw [run, runFrom_of_succeeds hlines, runFrom_error]
    simp only [List.append_nil]
  | openGroups hlines hcount hpositive hstrict =>
    rw [run_of_succeeds hlines, close, hcount, (s.after_keeps _).2, if_neg (by omega), if_pos hstrict]
    simp only [List.append_nil]
  | @finished lines count scene hlines hcount hstrict hscene =>
    rw [run_of_succeeds hlines, close, hcount, hscene, (s.after_keeps _).2]
    by_cases hzero : count = 0
    · rw [if_pos hzero, if_neg (by omega), List.append_nil]
    · rw [if_neg hzero, if_neg fun h => hzero (hstrict h), if_pos (by omega), List.append_assoc]
      rfl

section
variable {s : Session α} {items : List (Except Fault String)} {report : Report α}

end

section
variable [Scalar α] [FromWord α]

end

end Session

end SceneScript.Script
