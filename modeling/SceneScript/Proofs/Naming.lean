/-
Names of commands. A session looks words up and does nothing else with its vocabulary, and a command
knows its name only to report it (`Command.outcome_name`). So two scripts whose lines ask, one by one, for
the same actions with the same arguments come to the same, whatever the words for them are
(`sameBut_runFrom`). A run depends on the meanings of no words but those that begin the lines it reaches
(`runFrom_speaking`); and there are words that begin no line (`word_of_statement`).
-/
import Mathlib.Data.List.Forall2
import SceneScript.Proofs.Calls
namespace SceneScript.Script

open Space Number

variable {α : Type}

/-! ## Faults under another name -/

/-- The same fault of a command that goes by another name. -/
def Fault.named (name : String) : Fault → Fault
  | missingArgument line _ position => missingArgument line name position
  | notANumber line _ word => notANumber line name word
  | fault => fault

theorem Flaw.fault_named (line : Nat) (name name' : String) (flaw : Flaw) :
    (flaw.fault line name).named name' = flaw.fault line name' := by
  cases flaw <;> rfl

theorem Directive.fault?_named [Scalar α] (line : Nat) (name : String) (frames : Frames α)
    (d : Directive α) : (d.fault? line frames).map (Fault.named name) = d.fault? line frames := by
  cases d with
  | closeGroup => simp only [fault?]; split <;> rfl
  | rotate => simp only [fault?]; split <;> rfl
  | _ => rfl

/-- The name of a command has no effect but in the fault that the command may cause. -/
theorem Command.outcome_name [Scalar α] [FromWord α] (c : Command) (line : Nat) (name name' : String)
    (words : List String) (w : Workspace α) :
    c.outcome line name' words w = ((c.outcome line name words w).1.mapError (Fault.named name'),
      (c.outcome line name words w).2) :=
  outcome_relabel (fun flaw => flaw.fault_named line name name')
    (fun frames d => d.fault?_named line name' frames) c words w

/-! ## Vocabularies with names given to commands -/

namespace Vocabulary

/-- Gives words their meanings, one after the other. -/
def defineAll (entries : List (String × Action α)) (v : Vocabulary α) : Vocabulary α :=
  entries.foldl (fun v entry => v.define entry.1 entry.2) v

theorem find?_defineAll {entries : List (String × Action α)} {word : String}
    (h : word ∉ entries.map Prod.fst) (v : Vocabulary α) : (v.defineAll entries).find? word = v.find? word := by
  induction entries generalizing v with
  | nil => rfl
  | cons entry entries ih =>
    rw [List.map_cons, List.mem_cons, not_or] at h
    exact (ih h.2 _).trans (v.find?_define_of_ne h.1 entry.2)

variable [Scalar α] [FromWord α]

/-- The standard vocabulary after names have been given to commands, new ones or others' names. -/
def registered (names : List (String × Command)) : Vocabulary α :=
  standard.defineAll (names.map fun n => (n.1, n.2.action))

theorem OfCommands.define {v : Vocabulary α} (h : v.OfCommands) (name : String) (c : Command) :
    (v.define name c.action).OfCommands := by
  intro word action hfind
  by_cases hword : word = name
  · rw [hword, find?_define_self] at hfind
    cases hfind
    exact ⟨c, rfl⟩
  · rw [find?_define_of_ne v hword] at hfind
    exact h word action hfind

theorem ofCommands_registered (names : List (String × Command)) :
    (registered names : Vocabulary α).OfCommands := by
  have h : ∀ v : Vocabulary α, v.OfCommands →
      (v.defineAll (names.map fun n => (n.1, n.2.action))).OfCommands := by
    induction names with
    | nil => exact fun v hv => hv
    | cons n names ih => exact fun v hv => ih _ (hv.define n.1 n.2)
  exact h standard ofCommands_standard

end Vocabulary

/-! ## Lines that ask for the same under other words -/

/-- Two lines that ask for the same in their vocabularies: neither makes a statement, or both do, with the
same arguments and with words that mean the same, or nothing. -/
inductive AsksAlike (v v' : Vocabulary α) : String → String → Prop
  | silent {line line' : String} :
    statement? line = none → statement? line' = none → AsksAlike v v' line line'
  | statement (word word' : String) (words : List String) {line line' : String} :
    statement? line = some (word, words) → statement? line' = some (word', words) →
    v'.find? word' = v.find? word → AsksAlike v v' line line'

/-- What comes of two scripts is the same, but that the fault of a line gives the line's own word as the
name of the command. -/
inductive SameBut (number : Nat) (lines lines' : List String) :
    Except Fault (Scene α) → Except Fault (Scene α) → Prop
  | scene (scene : Scene α) : SameBut number lines lines' (.ok scene) (.ok scene)
  | openGroups (count : Nat) :
    SameBut number lines lines' (.error (.openGroups count)) (.error (.openGroups count))
  | fault (index : Nat) {line line' word word' : String} {words words' : List String} {fault : Fault} :
    lines[index]? = some line → lines'[index]? = some line' → statement? line = some (word, words) →
    statement? line' = some (word', words') → fault.line? = some (number + index) →
    SameBut number lines lines' (.error (fault.named word)) (.error (fault.named word'))

theorem SameBut.cons {number : Nat} {lines lines' : List String} {result result' : Except Fault (Scene α)}
    (line line' : String) (h : SameBut (number + 1) lines lines' result result') :
    SameBut number (line :: lines) (line' :: lines') result result' := by
  cases h with
  | scene scene => exact .scene scene
  | openGroups count => exact .openGroups count
  | @fault index _ _ _ _ _ _ _ hline hline' hs hs' hnumber =>
    rw [Nat.add_right_comm, Nat.add_assoc] at hnumber
    exact .fault (index + 1) hline hline' hs hs' hnumber

namespace Session

theorem sameBut_close (w : Workspace α) (v v' : Vocabulary α) (policy : Policy) (number : Nat)
    (lines lines' : List String) :
    SameBut number lines lines' (close ⟨w, v, policy⟩).result (close ⟨w, v', policy⟩).result := by
  unfold close
  simp only
  split
  · exact .scene _
  · split
    · exact .openGroups _
    · exact .scene _

section
variable [Scalar α] [FromWord α]

/-- Lines that ask for the same, one by one, come to the same. -/
theorem sameBut_runFrom {v v' : Vocabulary α} (hv : v.OfCommands) (policy : Policy)
    {lines lines' : List String} (h : List.Forall₂ (AsksAlike v v') lines lines') (number : Nat)
    (w : Workspace α) :
    SameBut number lines lines' (runFrom number ⟨w, v, policy⟩ (lines.map .ok)).result
      (runFrom number ⟨w, v', policy⟩ (lines'.map .ok)).result := by
  induction h generalizing number w with
  | nil => exact sameBut_close w v v' policy number [] []
  | @cons line line' lines lines' hline _ ih =>
    rw [List.map_cons, List.map_cons]
    cases hline with
    | silent hs hs' =>
      rw [runFrom_of_ok (readLine_of_none hs _ number), runFrom_of_ok (readLine_of_none hs' _ number)]
      exact (ih (number + 1) w).cons line line'
    | statement word word' words hs hs' hfind =>
      cases hf : v.find? word with
      | none =>
        rw [hf] at hfind
        rw [runFrom_of_ok (readLine_of_unknown (s := ⟨w, v, policy⟩) hs hf number),
          runFrom_of_ok (readLine_of_unknown (s := ⟨w, v', policy⟩) hs' hfind number)]
        exact (ih (number + 1) w).cons line line'
      | some action =>
        obtain ⟨c, rfl⟩ := hv word action hf
        rw [hf] at hfind
        have hreport := readLine_of_action (s := ⟨w, v, policy⟩) hs hf number
        have hreport' := readLine_of_action (s := ⟨w, v', policy⟩) hs' hfind number
        -- both outcomes are that of the command without a name, under their own words
        rw [perform_action, c.outcome_name number "" word] at hreport
        rw [perform_action, c.outcome_name number "" word'] at hreport'
        rcases houtcome : c.outcome number "" words w with ⟨fault | ⟨⟩, w'⟩
        · rw [houtcome] at hreport hreport'
          rw [runFrom_of_error hreport, runFrom_of_error hreport']
          have hnumber : fault.line? = some number :=
            Command.line?_of_outcome (congrArg Prod.fst houtcome)
          exact .fault 0 rfl rfl hs hs' hnumber
        · rw [houtcome] at hreport hreport'
          rw [runFrom_of_ok hreport, runFrom_of_ok hreport']
          exact (ih (number + 1) w').cons line line'

end

/-! ## Words that are looked up -/

/-- The lines that a run reaches: all up to the first that fails, or to an item that is no line. -/
def reached (number : Nat) (s : Session α) : List (Except Fault String) → List String
  | [] | .error _ :: _ => []
  | .ok line :: items =>
    match s.readLine number line with
    | ⟨.error _, _, _⟩ => [line]
    | ⟨.ok (), session, _⟩ => line :: reached (number + 1) session items

/-- The session with another vocabulary. -/
def speaking (v : Vocabulary α) (s : Session α) : Session α := { s with vocabulary := v }

/-- The word that a line begins with means the same in both vocabularies. -/
def MeansSame (v v' : Vocabulary α) (line : String) : Prop :=
  ∀ word words, statement? line = some (word, words) → v'.find? word = v.find? word

theorem readLine_speaking {v : Vocabulary α} {s : Session α} {line : String}
    (h : MeansSame s.vocabulary v line) (number : Nat) :
    (s.speaking v).readLine number line =
      ⟨(s.readLine number line).result, (s.readLine number line).session.speaking v,
        (s.readLine number line).log⟩ :=
  readLine_change h fun _ _ _ _ _ => rfl

/-- A run depends on its vocabulary only through the words that begin the lines it reaches. -/
theorem runFrom_speaking (v : Vocabulary α) : ∀ (items : List (Except Fault String)) (number : Nat)
    (s : Session α), (∀ line ∈ s.reached number items, MeansSame s.vocabulary v line) →
      (s.speaking v).runFrom number items = s.runFrom number items
  | [], _, _, _ => rfl
  | .error _ :: _, _, _, _ => rfl
  | .ok line :: items, number, s, h => by
    have hline : line ∈ s.reached number (.ok line :: items) := by
      unfold reached
      split <;> simp
    have hspeaking := readLine_speaking (h line hline) number
    rcases hreport : s.readLine number line with ⟨fault | ⟨⟩, session, log⟩
    · rw [hreport] at hspeaking
      rw [runFrom_of_error hspeaking, runFrom_of_error hreport]
    · have hkeeps := (readLine_keeps (s := s) number line).1
      rw [hreport] at hspeaking hkeeps
      have hlater : ∀ line ∈ session.reached (number + 1) items, MeansSame session.vocabulary v line := by
        intro other hother
        rw [show session.vocabulary = s.vocabulary from hkeeps]
        refine h other ?_
        simp only [reached, hreport]
        exact List.mem_cons_of_mem _ hother
      rw [runFrom_of_ok hspeaking, runFrom_of_ok hreport, runFrom_speaking v items (number + 1) session hlater]

end Session

/-! ## Words that begin no line -/

/-- The word of a statement is not empty, has no blank in it and does not start a comment. -/
theorem word_of_statement {line word : String} {words : List String}
    (h : statement? line = some (word, words)) :
    word ≠ "" ∧ (∀ c ∈ word.toList, Text.isBlank c = false) ∧ word.toList.head? ≠ some '#' := by
  unfold statement? at h
  split at h
  · cases h
  · rename_i first later hwords
    rw [Option.ite_none_left_eq_some] at h
    obtain ⟨hcomment, h⟩ := h
    cases h
    have hmem : word ∈ Text.words line := by
      rw [hwords]
      exact List.mem_cons_self
    obtain ⟨cs, hcs, rfl⟩ := List.mem_map.1 hmem
    obtain ⟨hne, hblank⟩ := Text.of_mem_wordsFrom (List.forall_mem_nil _) hcs
    rw [String.toList_ofList] at hcomment ⊢
    refine ⟨fun h => hne ?_, hblank, hcomment⟩
    rw [← String.toList_ofList (l := cs), h]
    rfl

/-! ## What names are for -/

section
variable [Scalar α] [FromWord α]

open Vocabulary

/-- Names only serve to look commands up and to report them. Take two vocabularies in which commands have
been given any names, and two scripts whose lines ask, one by one, for the same: from the same workspace
they come to the same scene, or to the same fault, in which the name is the word of the failing line. So
giving meanings to words that begin no line which a run reaches changes nothing about what comes of the
run and what is said in it; and the empty word, words with a blank in them and words that start a comment
begin no line at all. -/
theorem run_naming (w : Workspace α) (policy : Policy) (names names' : List (String × Command)) :
    (∀ lines lines', List.Forall₂ (AsksAlike (registered names) (registered names' : Vocabulary α)) lines lines' →
      SameBut 1 lines lines' (Session.run ⟨w, registered names, policy⟩ (lines.map .ok)).result
        (Session.run ⟨w, registered names', policy⟩ (lines'.map .ok)).result) ∧
    (∀ (extra : List (String × Action α)) (items : List (Except Fault String)),
      (∀ line ∈ Session.reached 1 ⟨w, registered names, policy⟩ items, ∀ word words,
        statement? line = some (word, words) → word ∉ extra.map Prod.fst) →
      Session.run ⟨w, (registered names).defineAll extra, policy⟩ items =
        Session.run ⟨w, registered names, policy⟩ items) ∧
    ∀ name : String, name = "" ∨ (∃ c ∈ name.toList, Text.isBlank c = true) ∨
        name.toList.head? = some '#' →
      (∀ line words, statement? line ≠ some (name, words)) ∧
      ∀ (action : Action α) (items : List (Except Fault String)),
        Session.run ⟨w, (registered names).define name action, policy⟩ items =
          Session.run ⟨w, registered names, policy⟩ items := by
  have hunused : ∀ (extra : List (String × Action α)) (items : List (Except Fault String)),
      (∀ line ∈ Session.reached 1 ⟨w, registered names, policy⟩ items, ∀ word words,
        statement? line = some (word, words) → word ∉ extra.map Prod.fst) →
      Session.run ⟨w, (registered names).defineAll extra, policy⟩ items =
        Session.run ⟨w, registered names, policy⟩ items :=
    fun extra items h => Session.runFrom_speaking _ items 1 ⟨w, registered names, policy⟩
      fun line hline word words hs => find?_defineAll (h line hline word words hs) _
  refine ⟨fun lines lines' h => Session.sameBut_runFrom (ofCommands_registered names) policy h 1 w,
    hunused, fun name hname => ?_⟩
  have hnever : ∀ line words, statement? line ≠ some (name, words) := by
    intro line words hs
    obtain ⟨hne, hblank, hcomment⟩ := word_of_statement hs
    rcases hname with h | ⟨c, hc, h⟩ | h
    · exact hne h
    · rw [hblank c hc] at h
      cases h
    · exact hcomment h
  refine ⟨hnever, fun action items => hunused [(name, action)] items fun line _ word words hs hmem => ?_⟩
  obtain rfl : word = name := by simpa using hmem
  exact hnever line words hs

/-- An alias, a builtin name that means another command, and names that no line can begin with. -/
theorem run_naming_alias :
    let w : Workspace Float := .initial
    let names := [("shift", Command.move), ("sphere", .texture)]
    let names' := [("light", Command.texture), ("shift", .scale), ("nudge", .move)]
    let lines := ["# a comment", "sphere 1", "frobnicate", "shift 1 0 x", "view 1 2"]
    let lines' := ["", "  light 1", "blink", "\tnudge  1 0 x\r", "view 1 2"]
    List.Forall₂ (AsksAlike (registered names) (registered names' : Vocabulary Float)) lines lines' ∧
      SameBut 1 lines lines' (Session.run ⟨w, registered names, {}⟩ (lines.map .ok)).result
        (Session.run ⟨w, registered names', {}⟩ (lines'.map .ok)).result ∧
      (∀ items, Session.run ⟨w, (registered names).define "a b" Command.sphere.action, {}⟩ items =
        Session.run ⟨w, registered names, {}⟩ items) ∧
      Session.run ⟨w, (registered names).defineAll [("view", Command.group.action)], {}⟩ (lines.map .ok) =
        Session.run ⟨w, registered names, {}⟩ (lines.map .ok) := by
  intro w names names' lines lines'
  have hlines : List.Forall₂ (AsksAlike (registered names) (registered names' : Vocabulary Float))
      lines lines' := by
    refine .cons (.silent (by decide +kernel) (by decide +kernel)) ?_
    refine .cons (.statement "sphere" "light" ["1"] (by decide +kernel) (by decide +kernel) rfl) ?_
    refine .cons (.statement "frobnicate" "blink" [] (by decide +kernel) (by decide +kernel) rfl) ?_
    refine .cons (.statement "shift" "nudge" ["1", "0", "x"] (by decide +kernel) (by decide +kernel) rfl) ?_
    exact .cons (.statement "view" "view" ["1", "2"] (by decide +kernel) (by decide +kernel) rfl) .nil
  obtain ⟨hsame, hunused, hnever⟩ := run_naming w {} names names'
  refine ⟨hlines, hsame lines lines' hlines, fun items => ?_, hunused _ _ ?_⟩
  · exact (hnever "a b" (.inr (.inl ⟨' ', by decide, by decide⟩))).2 _ items
  · -- the fourth line fails, so the last one is not reached
    have hreached : Session.reached 1 ⟨w, registered names, {}⟩ (lines.map .ok) = lines.take 4 := by
      decide +kernel
    have hwords : ∀ line ∈ lines.take 4, (statement? line).map Prod.fst ≠ some "view" := by
      decide +kernel
    rw [hreached]
    intro line hline word words hs hmem
    obtain rfl : word = "view" := by simpa using hmem
    exact hwords line hline (by rw [hs]; rfl)

end

end SceneScript.Script
