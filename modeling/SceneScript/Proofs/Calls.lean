/-
Calls: lines given to a session one after the other, the caller going on after failures. Where
every word with a meaning means a command, under whatever name, one line changes the workspace by
the outcome of at most one command (`readLine_cases`); the number of a line only appears in the
fault that it may cause (`readLine_number`), and a change of the session that a line cannot tell
goes through it unchanged (`readLine_change`). A whole script is the calls up to the first failure
(`runFrom_append`).
-/
import SceneScript.Proofs.Signature
import SceneScript.Script.Reading
namespace SceneScript.Script

open Space Number

variable {α : Type}

/-! ## Vocabularies of commands -/

def Command.ofName? (word : String) : Option Command := Command.all.find? fun c => c.name == word

theorem Command.name_of_ofName? {word : String} {c : Command} (h : ofName? word = some c) :
    c.name = word := by
  simpa using List.find?_some h

/-- What can be told of an execution: how many words were taken, how many frames and objects there
are, and one number of each place that numbers are kept in. -/
def Execution.traces (e : Execution Float) : List Nat :=
  let ⟨scene, frames⟩ := e.workspace
  [e.arguments.taken, frames.depth, scene.objects.size] ++
    ([scene.background.y, scene.ambient.y, frames.transform.row1.y,
      frames.material.refractiveIndex].map fun x => x.toBits.toNat)

/-- No two commands do the same: they differ in a workspace with an open group. -/
theorem Command.action_injective : Function.Injective (action : Command → Action Float) := by
  -- the first word is the angle of a rotation: turned by nothing, no sine has to be evaluated
  have htraces : ∀ c ∈ all, ∀ d ∈ all,
      let e : Execution Float := ⟨.ofWords 1 "" ("0" :: .replicate 6 "2"), .empty, Frames.initial.openGroup⟩
      (c.action e).2.traces = (d.action e).2.traces → c = d := by
    decide +kernel
  intro c d h
  exact htraces c c.mem_all d d.mem_all (by rw [h])

namespace Vocabulary

variable [Scalar α] [FromWord α]

/-- Every word with a meaning means a command. -/
def OfCommands (v : Vocabulary α) : Prop :=
  ∀ word action, v.find? word = some action → ∃ c : Command, action = c.action

theorem lookup_map_name (word : String) (cs : List Command) :
    (cs.map fun c => (c.name, (c.action : Action α))).lookup word =
      (cs.find? fun c => c.name == word).map Command.action := by
  induction cs with
  | nil => rfl
  | cons c cs ih =>
    have hsymm : (word == c.name) = (c.name == word) := Bool.beq_comm
    rw [List.map_cons, List.lookup_cons, List.find?_cons, ih, hsymm]
    cases c.name == word <;> rfl

/-- A word of the standard vocabulary means the command with that name. -/
theorem find?_standard (word : String) :
    (standard : Vocabulary α).find? word = (Command.ofName? word).map Command.action :=
  lookup_map_name word Command.all

/-- A word of the standard vocabulary means one command only, the one that it names. -/
theorem find?_standard_eq_some_iff {word : String} {c : Command} :
    (standard : Vocabulary Float).find? word = some c.action ↔ word = c.name := by
  constructor
  · intro h
    rw [find?_standard, Option.map_eq_some_iff] at h
    obtain ⟨d, hd, hdc⟩ := h
    rw [← Command.action_injective hdc, Command.name_of_ofName? hd]
  · rintro rfl
    exact find?_standard_name c

theorem ofCommands_standard : (standard : Vocabulary α).OfCommands := by
  intro word action h
  rw [find?_standard, Option.map_eq_some_iff] at h
  obtain ⟨c, -, rfl⟩ := h
  exact ⟨c, rfl⟩

end Vocabulary

/-! ## One line -/

/-- The same fault on another line. -/
def Fault.atLine (line : Nat) : Fault → Fault
  | missingArgument _ command position => missingArgument line command position
  | notANumber _ command word => notANumber line command word
  | noAxis _ => noAxis line
  | unmatchedGroupEnd _ => unmatchedGroupEnd line
  | fault => fault

theorem Fault.atLine_atLine (m n : Nat) (fault : Fault) : (fault.atLine n).atLine m = fault.atLine m := by
  cases fault <;> rfl

theorem Flaw.fault_atLine (m n : Nat) (name : String) (flaw : Flaw) :
    (flaw.fault n name).atLine m = flaw.fault m name := by
  cases flaw <;> rfl

namespace Directive

variable [Scalar α]

theorem fault?_atLine (m n : Nat) (frames : Frames α) (d : Directive α) :
    (d.fault? n frames).map (Fault.atLine m) = d.fault? m frames := by
  cases d with
  | closeGroup => simp only [fault?]; split <;> rfl
  | rotate => simp only [fault?]; split <;> rfl
  | _ => rfl

theorem line?_of_fault? {line : Nat} {frames : Frames α} {d : Directive α} {fault : Fault}
    (h : d.fault? line frames = some fault) : fault.line? = some line := by
  cases d with
  | closeGroup =>
    rw [fault?, Option.ite_none_left_eq_some, Option.some.injEq] at h
    rw [← h.2]
    rfl
  | rotate degrees axis =>
    rw [fault?, Option.ite_none_left_eq_some, Option.some.injEq] at h
    rw [← h.2]
    rfl
  | _ => cases h

end Directive

/-- What a fault says of where it happened does not decide whether it happens: if `relabel` turns the
faults of one line and name into those of another, so it does with outcomes. -/
theorem Command.outcome_relabel [Scalar α] [FromWord α] {relabel : Fault → Fault} {m n : Nat}
    {name name' : String} (hflaw : ∀ flaw : Flaw, relabel (flaw.fault n name) = flaw.fault m name')
    (hfault : ∀ (frames : Frames α) (d : Directive α),
      (d.fault? n frames).map relabel = d.fault? m frames)
    (c : Command) (words : List String) (w : Workspace α) :
    c.outcome m name' words w =
      ((c.outcome n name words w).1.mapError relabel, (c.outcome n name words w).2) := by
  unfold outcome
  cases (c.read words : Except Flaw (List (Directive α))) with
  | error flaw =>
    show (Except.error (flaw.fault m name'), _) = (Except.error (relabel (flaw.fault n name)), _)
    rw [hflaw]
  | ok ds =>
    have hm : ds.findSome? (Directive.fault? m w.frames) =
        (ds.findSome? (Directive.fault? n w.frames)).map relabel := by
      rw [List.map_findSome?]
      congr 1
      funext d
      exact (hfault w.frames d).symm
    simp only [hm]
    cases ds.findSome? (Directive.fault? n w.frames) <;> rfl

theorem Command.outcome_number [Scalar α] [FromWord α] (c : Command) (m n : Nat) (name : String)
    (words : List String) (w : Workspace α) :
    c.outcome m name words w = ((c.outcome n name words w).1.mapError (Fault.atLine m),
      (c.outcome n name words w).2) :=
  outcome_relabel (fun flaw => flaw.fault_atLine m n name) (fun frames d => d.fault?_atLine m n frames)
    c words w

/-- The fault of a command is that of its line. -/
theorem Command.line?_of_outcome [Scalar α] [FromWord α] {c : Command} {line : Nat} {name : String}
    {words : List String} {w : Workspace α} {fault : Fault}
    (h : (c.outcome line name words w).1 = .error fault) : fault.line? = some line := by
  unfold outcome at h
  split at h
  · rename_i flaw _
    cases h
    cases flaw <;> rfl
  · rename_i ds _
    cases hfind : ds.findSome? (Directive.fault? line w.frames) with
    | none =>
      rw [hfind] at h
      cases h
    | some found =>
      rw [hfind] at h
      cases h
      obtain ⟨d, -, hd⟩ := List.exists_of_findSome?_eq_some hfind
      exact Directive.line?_of_fault? hd

/-- The command that a line names as its first word, with the words behind it. -/
def command? (line : String) : Option (Command × List String) :=
  match statement? line with
  | none => none
  | some (word, words) => (Command.ofName? word).map fun c => (c, words)

namespace Session

/-- No line changes the vocabulary or the policy. -/
theorem readLine_keeps {s : Session α} (number : Nat) (line : String) :
    (s.readLine number line).session.vocabulary = s.vocabulary ∧
      (s.readLine number line).session.policy = s.policy := by
  unfold readLine
  split
  · exact ⟨rfl, rfl⟩
  · split <;> exact ⟨rfl, rfl⟩

variable [Scalar α] [FromWord α]

theorem ofCommands_readLine {s : Session α} (hv : s.vocabulary.OfCommands) (number : Nat)
    (line : String) : (s.readLine number line).session.vocabulary.OfCommands := by
  rw [(readLine_keeps number line).1]
  exact hv

/-- A line whose first word means a command. -/
def Asks (s : Session α) (c : Command) (line : String) : Prop :=
  ∃ word words, statement? line = some (word, words) ∧ s.vocabulary.find? word = some c.action

/-- With the standard vocabulary a line asks for the command that its first word names. -/
theorem asks_iff_of_standard {s : Session Float} (hv : s.vocabulary = .standard) {c : Command}
    {line : String} : s.Asks c line ↔ (statement? line).map Prod.fst = some c.name := by
  simp only [Asks, hv, Vocabulary.find?_standard_eq_some_iff, Option.map_eq_some_iff]
  constructor
  · rintro ⟨word, words, hs, rfl⟩
    exact ⟨_, hs, rfl⟩
  · rintro ⟨⟨word, words⟩, hs, rfl⟩
    exact ⟨_, words, hs, rfl⟩

/-- A line either does nothing, or it has the outcome of the command that its first word means. -/
theorem readLine_cases {s : Session α} (hv : s.vocabulary.OfCommands) (line : String) :
    (∀ number, (s.readLine number line).result = .ok () ∧ (s.readLine number line).session = s) ∨
      ∃ (c : Command) (word : String) (words : List String), statement? line = some (word, words) ∧
        s.vocabulary.find? word = some c.action ∧
        ∀ number, s.readLine number line = ⟨(c.outcome number word words s.workspace).1,
          { s with workspace := (c.outcome number word words s.workspace).2 },
          [.reading number (Text.trim line)]⟩ := by
  cases hs : statement? line with
  | none => exact .inl fun number => by rw [readLine_of_none hs]; exact ⟨rfl, rfl⟩
  | some statement =>
    obtain ⟨word, words⟩ := statement
    cases hf : s.vocabulary.find? word with
    | none => exact .inl fun number => by rw [readLine_of_unknown hs hf]; exact ⟨rfl, rfl⟩
    | some action =>
      obtain ⟨c, rfl⟩ := hv word action hf
      refine .inr ⟨c, word, words, rfl, hf, fun number => ?_⟩
      rw [readLine_of_action hs hf, perform_action]

theorem Asks.readLine {s : Session α} {c : Command} {line : String} (h : s.Asks c line) :
    ∃ word words, ∀ number, s.readLine number line =
      ⟨(c.outcome number word words s.workspace).1,
        { s with workspace := (c.outcome number word words s.workspace).2 },
        [.reading number (Text.trim line)]⟩ := by
  obtain ⟨word, words, hs, hf⟩ := h
  refine ⟨word, words, fun number => ?_⟩
  rw [readLine_of_action hs hf, perform_action]

/-- A line with the standard vocabulary: a command under its own name, or nothing at all. -/
theorem readLine_standard {s : Session α} (hv : s.vocabulary = .standard) (number : Nat)
    (line : String) :
    match command? line with
    | none => (s.readLine number line).result = .ok () ∧ (s.readLine number line).session = s
    | some (c, words) => s.readLine number line = ⟨(c.outcome number c.name words s.workspace).1,
        { s with workspace := (c.outcome number c.name words s.workspace).2 },
        [.reading number (Text.trim line)]⟩ := by
  unfold command?
  cases hs : statement? line with
  | none =>
    rw [readLine_of_none hs]
    exact ⟨rfl, rfl⟩
  | some statement =>
    obtain ⟨word, words⟩ := statement
    have hfind := Vocabulary.find?_standard (α := α) word
    rw [← hv] at hfind
    simp only
    cases hc : Command.ofName? word with
    | none =>
      rw [hc] at hfind
      rw [readLine_of_unknown hs hfind]
      exact ⟨rfl, rfl⟩
    | some c =>
      rw [hc] at hfind
      obtain rfl := Command.name_of_ofName? hc
      simp only [Option.map_some]
      rw [readLine_of_action hs hfind, perform_action]

/-- The fault of a line names the line. -/
theorem line?_of_readLine {s : Session α} (hv : s.vocabulary.OfCommands) {number : Nat} {line : String}
    {fault : Fault} (h : (s.readLine number line).result = .error fault) : fault.line? = some number := by
  rcases readLine_cases hv line with hline | ⟨c, word, words, -, -, hline⟩
  · rw [(hline number).1] at h
    cases h
  · rw [hline number] at h
    exact Command.line?_of_outcome h

/-- The number of a line has no effect but in the fault that the line may cause. -/
theorem readLine_number {s : Session α} (hv : s.vocabulary.OfCommands) (m n : Nat) (line : String) :
    (s.readLine m line).result = (s.readLine n line).result.mapError (Fault.atLine m) ∧
      (s.readLine m line).session = (s.readLine n line).session := by
  rcases readLine_cases hv line with h | ⟨c, word, words, -, -, h⟩
  · rw [(h m).1, (h m).2, (h n).1, (h n).2]
    exact ⟨rfl, rfl⟩
  · rw [h m, h n, c.outcome_number m n]
    exact ⟨rfl, rfl⟩

end Session

/-! ## Sequences of calls -/

/-- What came of a line, without its number. -/
def unnumbered (result : Except Fault Unit) : Except Fault Unit := result.mapError (Fault.atLine 0)

theorem unnumbered_mapError_atLine (n : Nat) (result : Except Fault Unit) :
    unnumbered (result.mapError (Fault.atLine n)) = unnumbered result := by
  cases result with
  | error fault =>
    show Except.error ((fault.atLine n).atLine 0) = Except.error (fault.atLine 0)
    rw [Fault.atLine_atLine]
  | ok => rfl

namespace Session

/-- The session after a sequence of calls, whatever came of each of them. -/
def after (s : Session α) (calls : List (Nat × String)) : Session α :=
  calls.foldl (fun s call => (s.readLine call.1 call.2).session) s

/-- What came of each call of a sequence. -/
def results : Session α → List (Nat × String) → List (Except Fault Unit)
  | _, [] => []
  | s, (number, line) :: calls =>
    (s.readLine number line).result :: (s.readLine number line).session.results calls

@[simp] theorem after_nil (s : Session α) : s.after [] = s := rfl

@[simp] theorem after_cons (s : Session α) (call : Nat × String) (calls : List (Nat × String)) :
    s.after (call :: calls) = (s.readLine call.1 call.2).session.after calls := rfl

theorem after_append (s : Session α) (calls later : List (Nat × String)) :
    s.after (calls ++ later) = (s.after calls).after later :=
  List.foldl_append

theorem after_keeps (s : Session α) (calls : List (Nat × String)) :
    (s.after calls).vocabulary = s.vocabulary ∧ (s.after calls).policy = s.policy := by
  induction calls generalizing s with
  | nil => exact ⟨rfl, rfl⟩
  | cons call calls ih =>
    obtain ⟨hv, hp⟩ := readLine_keeps (s := s) call.1 call.2
    obtain ⟨hv', hp'⟩ := ih (s.readLine call.1 call.2).session
    exact ⟨hv'.trans hv, hp'.trans hp⟩

theorem ofCommands_after [Scalar α] [FromWord α] {s : Session α} (hv : s.vocabulary.OfCommands)
    (calls : List (Nat × String)) : (s.after calls).vocabulary.OfCommands := by
  rw [(s.after_keeps calls).1]
  exact hv

/-- A change of the session that a line cannot tell comes to the same before and after the line: the
word of the line means the same, and its action is carried out alike. -/
theorem readLine_change {change : Session α → Session α} {s : Session α} {number : Nat} {line : String}
    (hfind : ∀ word words, statement? line = some (word, words) →
      (change s).vocabulary.find? word = s.vocabulary.find? word)
    (hperform : ∀ word words action, statement? line = some (word, words) →
      s.vocabulary.find? word = some action →
      (change s).perform action (.ofWords number word words) =
        ((s.perform action (.ofWords number word words)).1,
          change (s.perform action (.ofWords number word words)).2)) :
    (change s).readLine number line =
      ⟨(s.readLine number line).result, change (s.readLine number line).session,
        (s.readLine number line).log⟩ := by
  cases hs : statement? line with
  | none => rw [readLine_of_none hs, readLine_of_none hs]
  | some statement =>
    obtain ⟨word, words⟩ := statement
    have hsame := hfind word words hs
    cases hf : s.vocabulary.find? word with
    | none =>
      rw [hf] at hsame
      rw [readLine_of_unknown hs hf, readLine_of_unknown hs hsame]
    | some action =>
      rw [hf] at hsame
      rw [readLine_of_action hs hf, readLine_of_action hs hsame, hperform word words action hs hf]

/-- The session with another policy. -/
def withPolicy (policy : Policy) (s : Session α) : Session α := { s with policy }

/-- The policy is not asked for before the end of a script. -/
theorem readLine_withPolicy (policy : Policy) (s : Session α) (number : Nat) (line : String) :
    (s.withPolicy policy).readLine number line =
      ⟨(s.readLine number line).result, (s.readLine number line).session.withPolicy policy,
        (s.readLine number line).log⟩ :=
  readLine_change (fun _ _ _ => rfl) fun _ _ _ _ _ => rfl

theorem after_withPolicy (policy : Policy) : ∀ (calls : List (Nat × String)) (s : Session α),
    (s.withPolicy policy).results calls = s.results calls ∧
      (s.withPolicy policy).after calls = (s.after calls).withPolicy policy
  | [], _ => ⟨rfl, rfl⟩
  | (number, line) :: calls, s => by
    obtain ⟨hresults, hafter⟩ := after_withPolicy policy calls (s.readLine number line).session
    simp only [results, after_cons, readLine_withPolicy, hresults, hafter, and_self]

/-- The same lines under other numbers do the same, and fail for the same reasons. -/
theorem after_renumber [Scalar α] [FromWord α] : ∀ {s : Session α} {calls calls' : List (Nat × String)},
    s.vocabulary.OfCommands → calls.map Prod.snd = calls'.map Prod.snd →
      s.after calls = s.after calls' ∧
        (s.results calls).map unnumbered = (s.results calls').map unnumbered
  | _, [], [], _, _ => ⟨rfl, rfl⟩
  | s, (m, line) :: calls, (n, line') :: calls', hv, h => by
    simp only [List.map_cons, List.cons.injEq] at h
    obtain ⟨rfl, h⟩ := h
    obtain ⟨hresult, hsession⟩ := readLine_number hv m n line
    have hv' := ofCommands_readLine hv n line
    -- the sessions behind the first line are the same, so the induction goes on from one of them
    obtain ⟨hafter, hresults⟩ := after_renumber hv' h
    simp only [after_cons, results, List.map_cons, hsession, hresult, unnumbered_mapError_atLine]
    exact ⟨hafter, by rw [hresults]⟩

end Session

/-! ## Scripts -/

namespace Session

/-- Carries out lines, numbered upwards, up to the first that fails. -/
def advance (number : Nat) (s : Session α) : List String → Except Fault (Session α) × List Message
  | [] => (.ok s, [])
  | line :: lines =>
    match s.readLine number line with
    | ⟨.error fault, _, log⟩ => (.error fault, log)
    | ⟨.ok (), session, log⟩ =>
      let later := advance (number + 1) session lines
      (later.1, log ++ later.2)

/-- A script goes on behind lines that all succeed, and ends with the first that fails. -/
theorem runFrom_append (items : List (Except Fault String)) :
    ∀ (number : Nat) (s : Session α) (lines : List String),
      s.runFrom number (lines.map .ok ++ items) =
        match s.advance number lines with
        | (.error fault, log) => ⟨.error fault, log⟩
        | (.ok session, log) =>
          let later := session.runFrom (number + lines.length) items
          ⟨later.result, log ++ later.log⟩
  | number, s, [] => rfl
  | number, s, line :: lines => by
    rw [List.map_cons, List.cons_append, runFrom, advance]
    rcases s.readLine number line with ⟨_ | ⟨⟩, session, log⟩
    · rfl
    · have hnumber : number + (lines.length + 1) = number + 1 + lines.length := by omega
      simp only [runFrom_append items (number + 1) session lines, List.length_cons, hnumber]
      rcases session.advance (number + 1) lines with ⟨_ | session', later⟩
      · rfl
      · simp only [List.append_assoc]

end Session

end SceneScript.Script
