/-
Sessions: a script carried out line by line. Every call says what came of the line, what the
session is afterwards, and which messages there were. A line that fails ends nothing by itself;
whether to go on is up to the caller.
-/
import SceneScript.Script.Log
import SceneScript.Script.Vocabulary
import SceneScript.Text.Word
namespace SceneScript.Script

open Space

/-! ## Lines -/

/-- The command and the arguments of a line. A line without words has none, nor has a comment:
a line whose first word starts with a number sign. -/
def statement? (line : String) : Option (String × List String) :=
  match Text.words line with
  | [] => none
  | command :: arguments =>
    if command.toList.head? = some '#' then none else some (command, arguments)

/-! ## Sessions -/

/-- What the author of a script is held to. -/
structure Policy where
  /-- Every group has to be closed before the script ends. -/
  strictGroups : Bool := false
deriving Repr, DecidableEq

/-- A script that is being carried out. -/
structure Session (α : Type) where
  workspace : Workspace α
  vocabulary : Vocabulary α
  policy : Policy

/-- What came of a line. -/
structure LineReport (α : Type) where
  result : Except Fault Unit
  session : Session α
  log : List Message

/-- What came of a script. -/
structure Report (α : Type) where
  result : Except Fault (Scene α)
  log : List Message

namespace Session

variable {α : Type}

/-- A session with a vocabulary of its own. -/
def withVocabulary [Scalar α] (vocabulary : Vocabulary α) (policy : Policy) : Session α :=
  ⟨.initial, vocabulary, policy⟩

/-- A session with the commands under their names. -/
def start [Scalar α] [Number.FromWord α] (policy : Policy) : Session α :=
  withVocabulary .standard policy

/-- Changes the scene from outside. -/
def modifyScene (change : Scene α → Scene α) (s : Session α) : Session α :=
  { s with workspace := { s.workspace with scene := change s.workspace.scene } }

/-- Carries out an action with the arguments of a line. -/
def perform (s : Session α) (action : Action α) (arguments : Arguments) :
    Except Fault Unit × Session α :=
  let ⟨workspace, vocabulary, policy⟩ := s
  let (result, e) := action ⟨arguments, workspace⟩
  (result, ⟨e.workspace, vocabulary, policy⟩)

/-- Carries out one line. The number only serves to say where something happened. -/
def readLine (s : Session α) (number : Nat) (line : String) : LineReport α :=
  match statement? line with
  | none => ⟨.ok (), s, []⟩
  | some (command, arguments) =>
    let reading := Message.reading number (Text.trim line)
    match s.vocabulary.find? command with
    | none => ⟨.ok (), s, [reading, .unknownCommand number command]⟩
    | some action =>
      let (result, session) := s.perform action (.ofWords number command arguments)
      ⟨result, session, [reading]⟩

/-- A line without a command leaves the session as it is and says nothing. -/
theorem readLine_of_none {line : String} (h : statement? line = none) (s : Session α)
    (number : Nat) : s.readLine number line = ⟨.ok (), s, []⟩ := by
  simp [readLine, h]

/-- A line with an unknown command leaves the session as it is. -/
theorem readLine_of_unknown {line command : String} {arguments : List String} {s : Session α}
    (h : statement? line = some (command, arguments)) (hv : s.vocabulary.find? command = none)
    (number : Nat) :
    s.readLine number line =
      ⟨.ok (), s, [.reading number (Text.trim line), .unknownCommand number command]⟩ := by
  simp [readLine, h, hv]

/-- A line with a known command performs its action. -/
theorem readLine_of_action {line command : String} {arguments : List String} {s : Session α}
    {action : Action α} (h : statement? line = some (command, arguments))
    (hv : s.vocabulary.find? command = some action) (number : Nat) :
    s.readLine number line =
      ⟨(s.perform action (.ofWords number command arguments)).1,
        (s.perform action (.ofWords number command arguments)).2,
        [.reading number (Text.trim line)]⟩ := by
  simp [readLine, h, hv]

/-- Ends a session. -/
def close (s : Session α) : Report α :=
  let count := s.workspace.frames.openGroups
  let scene := s.workspace.scene
  let finished := Message.finished scene.imageSize scene.lights.size scene.objects.size
  if count = 0 then ⟨.ok scene, [finished]⟩
  else if s.policy.strictGroups then ⟨.error (.openGroups count), []⟩
  else ⟨.ok scene, [.groupsLeftOpen count, finished]⟩

/-- Carries out the lines of a script, numbered upwards, up to the first that fails or that could
not be had, and ends the session after the last. -/
def runFrom (number : Nat) (s : Session α) : List (Except Fault String) → Report α
  | [] => s.close
  | .error fault :: _ => ⟨.error fault, []⟩
  | .ok line :: rest =>
    match s.readLine number line with
    | ⟨.error fault, _, log⟩ => ⟨.error fault, log⟩
    | ⟨.ok (), session, log⟩ =>
      let later := runFrom (number + 1) session rest
      ⟨later.result, log ++ later.log⟩

@[simp] theorem runFrom_nil (number : Nat) (s : Session α) : s.runFrom number [] = s.close := rfl

@[simp] theorem runFrom_error (number : Nat) (s : Session α) (fault : Fault)
    (rest : List (Except Fault String)) :
    s.runFrom number (.error fault :: rest) = ⟨.error fault, []⟩ := rfl

/-- A script goes on behind a line that succeeds. -/
theorem runFrom_of_ok {number : Nat} {s session : Session α} {line : String}
    {log : List Message} (h : s.readLine number line = ⟨.ok (), session, log⟩)
    (rest : List (Except Fault String)) :
    s.runFrom number (.ok line :: rest) =
      ⟨(session.runFrom (number + 1) rest).result,
        log ++ (session.runFrom (number + 1) rest).log⟩ := by
  rw [runFrom, h]

/-- A script ends at a line that fails. -/
theorem runFrom_of_error {number : Nat} {s session : Session α} {line : String} {fault : Fault}
    {log : List Message} (h : s.readLine number line = ⟨.error fault, session, log⟩)
    (rest : List (Except Fault String)) :
    s.runFrom number (.ok line :: rest) = ⟨.error fault, log⟩ := by
  rw [runFrom, h]

/-- Carries out a whole script. -/
def run (s : Session α) (lines : List (Except Fault String)) : Report α := s.runFrom 1 lines

end Session

end SceneScript.Script
