/-
Scripts by their statements. Of a line only its statement counts, and its number only for the fault
that it may cause (`readLine_of_statement`); a line without a statement, with an unknown word or with
a texture can stand anywhere. So what comes of a script is what comes of the row of its statements,
obeyed one after the other up to the first that fails (`Rows.runFrom`), and the fault is reported on
the line that holds that statement.
-/
import Mathlib.Data.List.Forall2
import SceneScript.Proofs.Calls
namespace SceneScript.Script

open Space Number

/-! ## Obeying statements -/

/-- A word and the words behind it. -/
abbrev Statement := String × List String

namespace Session

variable {α : Type}

/-- What comes of a statement. Its fault, if it has one, is that of a line zero. -/
def obey (s : Session α) (statement : Statement) : Except Fault Unit × Session α :=
  match s.vocabulary.find? statement.1 with
  | none => (.ok (), s)
  | some action => s.perform action (.ofWords 0 statement.1 statement.2)

/-- Obeys statements up to the first that fails; its index is given with its fault. -/
def follow (s : Session α) : List Statement → Except (Nat × Fault) (Session α)
  | [] => .ok s
  | statement :: later =>
    match s.obey statement with
    | (.error fault, _) => .error (0, fault)
    | (.ok (), session) => (session.follow later).mapError fun failure => (failure.1 + 1, failure.2)

theorem follow_of_ok {s session : Session α} {statement : Statement}
    (h : s.obey statement = (.ok (), session)) (later : List Statement) :
    s.follow (statement :: later) =
      (session.follow later).mapError fun failure => (failure.1 + 1, failure.2) := by
  rw [follow, h]

theorem follow_of_error {s session : Session α} {statement : Statement} {fault : Fault}
    (h : s.obey statement = (.error fault, session)) (later : List Statement) :
    s.follow (statement :: later) = .error (0, fault) := by
  rw [follow, h]

/-- A row of statements is followed to its end iff its first one is obeyed and the others are
followed from there. -/
theorem follow_cons_eq_ok_iff {s last : Session α} {statement : Statement} {later : List Statement} :
    s.follow (statement :: later) = .ok last ↔
      ∃ session, s.obey statement = (.ok (), session) ∧ session.follow later = .ok last := by
  rcases h : s.obey statement with ⟨fault | ⟨⟩, session⟩
  · rw [follow_of_error h]
    simp
  · rw [follow_of_ok h]
    constructor
    · intro hlast
      refine ⟨session, rfl, ?_⟩
      cases hlater : session.follow later with
      | error failure => rw [hlater] at hlast; cases hlast
      | ok other => rw [hlater] at hlast; cases hlast; rfl
    · rintro ⟨other, hother, hlast⟩
      cases hother
      rw [hlast]
      rfl

theorem follow_append_eq_ok_iff {s last : Session α} {first later : List Statement} :
    s.follow (first ++ later) = .ok last ↔
      ∃ session, s.follow first = .ok session ∧ session.follow later = .ok last := by
  induction first generalizing s with
  | nil =>
    constructor
    · exact fun h => ⟨s, rfl, h⟩
    · rintro ⟨session, hs, h⟩
      cases hs
      exact h
  | cons statement first ih =>
    rw [List.cons_append, follow_cons_eq_ok_iff]
    constructor
    · rintro ⟨next, hnext, h⟩
      obtain ⟨session, hfirst, hlast⟩ := ih.1 h
      exact ⟨session, follow_cons_eq_ok_iff.2 ⟨next, hnext, hfirst⟩, hlast⟩
    · rintro ⟨session, hfirst, hlast⟩
      obtain ⟨next, hnext, h⟩ := follow_cons_eq_ok_iff.1 hfirst
      exact ⟨next, hnext, ih.2 ⟨session, h, hlast⟩⟩

theorem follow_pair_eq_ok_iff {s last : Session α} {a b : Statement} :
    s.follow [a, b] = .ok last ↔
      ∃ session, s.obey a = (.ok (), session) ∧ session.obey b = (.ok (), last) := by
  rw [follow_cons_eq_ok_iff]
  constructor
  · rintro ⟨session, ha, hlater⟩
    obtain ⟨next, hb, hnil⟩ := follow_cons_eq_ok_iff.1 hlater
    cases hnil
    exact ⟨session, ha, hb⟩
  · rintro ⟨session, ha, hb⟩
    exact ⟨session, ha, follow_cons_eq_ok_iff.2 ⟨last, hb, rfl⟩⟩

theorem perform_keeps (s : Session α) (action : Action α) (arguments : Arguments) :
    (s.perform action arguments).2.vocabulary = s.vocabulary ∧
      (s.perform action arguments).2.policy = s.policy :=
  ⟨rfl, rfl⟩

theorem obey_keeps (s : Session α) (statement : Statement) :
    (s.obey statement).2.vocabulary = s.vocabulary ∧ (s.obey statement).2.policy = s.policy := by
  unfold obey
  split
  · exact ⟨rfl, rfl⟩
  · exact s.perform_keeps _ _

theorem vocabulary_of_obey {s session : Session α} {statement : Statement} {result : Except Fault Unit}
    (h : s.obey statement = (result, session)) : session.vocabulary = s.vocabulary := by
  have hkeeps := (s.obey_keeps statement).1
  rw [h] at hkeeps
  exact hkeeps

theorem vocabulary_of_follow : ∀ {statements : List Statement} {s last : Session α},
    s.follow statements = .ok last → last.vocabulary = s.vocabulary
  | [], s, last, h => by
    cases h
    rfl
  | statement :: later, s, last, h => by
    obtain ⟨session, hobey, hlater⟩ := follow_cons_eq_ok_iff.1 h
    exact (vocabulary_of_follow hlater).trans (vocabulary_of_obey hobey)

variable [Scalar α] [FromWord α]

theorem obey_standard {s : Session α} (hv : s.vocabulary = .standard) {statement : Statement}
    {c : Command} (hc : Command.ofName? statement.1 = some c) :
    s.obey statement = ((c.outcome 0 statement.1 statement.2 s.workspace).1,
      { s with workspace := (c.outcome 0 statement.1 statement.2 s.workspace).2 }) := by
  have hfind : s.vocabulary.find? statement.1 = some c.action := by
    rw [hv, Vocabulary.find?_standard, hc, Option.map_some]
  unfold obey
  rw [hfind]
  exact perform_action c s 0 statement.1 statement.2

theorem obey_unknown {s : Session α} (hv : s.vocabulary = .standard) {statement : Statement}
    (hc : Command.ofName? statement.1 = none) : s.obey statement = (.ok (), s) := by
  have hfind : s.vocabulary.find? statement.1 = none := by
    rw [hv, Vocabulary.find?_standard, hc, Option.map_none]
  unfold obey
  rw [hfind]

/-- A line does what its statement asks for; its number stands in the fault that it may cause. -/
theorem readLine_of_statement {s : Session α} (hv : s.vocabulary.OfCommands) {line : String}
    {statement : Statement} (h : statement? line = some statement) (number : Nat) :
    (s.readLine number line).result = (s.obey statement).1.mapError (Fault.atLine number) ∧
      (s.readLine number line).session = (s.obey statement).2 := by
  obtain ⟨word, words⟩ := statement
  unfold obey
  cases hf : s.vocabulary.find? word with
  | none =>
    rw [readLine_of_unknown h hf]
    exact ⟨rfl, rfl⟩
  | some action =>
    obtain ⟨c, rfl⟩ := hv word action hf
    rw [readLine_of_action h hf, perform_action]
    simp only
    rw [perform_action, c.outcome_number number 0]
    exact ⟨rfl, rfl⟩

end Session

/-! ## Lines that ask for nothing -/

/-- A line that names no command, or only a texture. -/
def Idle (line : String) : Prop := ∀ c words, command? line = some (c, words) → c = .texture

theorem idle_of_none {line : String} (h : statement? line = none) : Idle line := by
  intro c words hc
  rw [command?, h] at hc
  cases hc

theorem idle_of_word {line word : String} {words : List String}
    (h : statement? line = some (word, words))
    (hword : ∀ c, Command.ofName? word = some c → c = .texture) : Idle line := by
  intro c words' hc
  rw [command?, h] at hc
  obtain ⟨d, hd, hpair⟩ := Option.map_eq_some_iff.1 hc
  cases hpair
  exact hword c hd

namespace Session

variable {α : Type} [Scalar α] [FromWord α]

theorem readLine_of_idle {s : Session α} (hv : s.vocabulary = .standard) {line : String}
    (h : Idle line) (number : Nat) :
    (s.readLine number line).result = .ok () ∧ (s.readLine number line).session = s := by
  have hline := readLine_standard hv number line
  cases hc : command? line with
  | none =>
    rw [hc] at hline
    exact hline
  | some command =>
    obtain ⟨c, words⟩ := command
    obtain rfl := h c words hc
    rw [hc] at hline
    simp only at hline
    rw [hline]
    exact ⟨rfl, rfl⟩

end Session

/-! ## Rows of lines -/

/-- Lines, the first of them with a number, that write things down in order; between them there may
be idle ones. The list of numbers says for each thing on which line it stands. -/
inductive Rows {β γ : Type} (idle : β → Prop) (writes : γ → β → Prop) :
    Nat → List γ → List Nat → List β → Prop
  | nil {number : Nat} : Rows idle writes number [] [] []
  | skip {number : Nat} {cs : List γ} {numbers : List Nat} {line : β} {lines : List β} :
    idle line → Rows idle writes (number + 1) cs numbers lines →
    Rows idle writes number cs numbers (line :: lines)
  | write {number : Nat} {c : γ} {cs : List γ} {numbers : List Nat} {line : β} {lines : List β} :
    writes c line → Rows idle writes (number + 1) cs numbers lines →
    Rows idle writes number (c :: cs) (number :: numbers) (line :: lines)

/-- Lines that correspond to those of a row write the same things down, on lines with the same
numbers. -/
theorem Rows.imp {β β' γ : Type} {idle : β → Prop} {writes : γ → β → Prop} {idle' : β' → Prop}
    {writes' : γ → β' → Prop} {R : β → β' → Prop} (hidle : ∀ {l l'}, R l l' → idle l → idle' l')
    (hwrites : ∀ {c l l'}, R l l' → writes c l → writes' c l') {number : Nat} {cs : List γ}
    {numbers : List Nat} {lines : List β} (h : Rows idle writes number cs numbers lines)
    {lines' : List β'} (hlines : List.Forall₂ R lines lines') :
    Rows idle' writes' number cs numbers lines' := by
  induction h generalizing lines' with
  | nil =>
    cases hlines
    exact .nil
  | skip hline _ ih =>
    cases hlines with
    | cons hR hlater => exact .skip (hidle hR hline) (ih hlater)
  | write hline _ ih =>
    cases hlines with
    | cons hR hlater => exact .write (hwrites hR hline) (ih hlater)

/-- The line makes the statement. -/
def States (statement : Statement) (line : String) : Prop := statement? line = some statement

/-- Every line is idle for want of a statement, or it makes one. -/
theorem rows_filterMap (lines : List String) (number : Nat) :
    ∃ numbers, Rows Idle States number (lines.filterMap statement?) numbers lines := by
  induction lines generalizing number with
  | nil => exact ⟨[], .nil⟩
  | cons line lines ih =>
    obtain ⟨numbers, hrows⟩ := ih (number + 1)
    cases h : statement? line with
    | none =>
      rw [List.filterMap_cons_none h]
      exact ⟨numbers, .skip (idle_of_none h) hrows⟩
    | some statement =>
      rw [List.filterMap_cons_some h]
      exact ⟨number :: numbers, .write h hrows⟩

section
variable {α : Type} [Scalar α] [FromWord α]

/-- What comes of lines is what comes of their statements; a fault is reported on the line of the
statement that has it. -/
theorem Rows.runFrom {number : Nat} {statements : List Statement} {numbers : List Nat}
    {lines : List String} (h : Rows Idle States number statements numbers lines) {s : Session α}
    (hv : s.vocabulary = .standard) :
    match s.follow statements with
    | .ok last => (s.runFrom number (lines.map .ok)).result = last.close.result
    | .error (index, fault) => ∃ n, numbers[index]? = some n ∧
        (s.runFrom number (lines.map .ok)).result = .error (fault.atLine n) := by
  -- the numbers run with the lines, the session only changes where a statement is made
  induction h generalizing s with
  | nil => rfl
  | @skip number _ _ line _ hidle _ ih =>
    obtain ⟨hresult, hsession⟩ := Session.readLine_of_idle hv hidle number
    rw [List.map_cons]
    cases hreport : s.readLine number line with
    | mk result session log =>
    rw [hreport] at hresult hsession
    obtain rfl : result = .ok () := hresult
    obtain rfl : session = s := hsession
    rw [Session.runFrom_of_ok hreport]
    exact ih hv
  | @write number statement later numbers line lines hline _ ih =>
    have hcommands : s.vocabulary.OfCommands := hv ▸ Vocabulary.ofCommands_standard
    obtain ⟨hresult, hsession⟩ := Session.readLine_of_statement hcommands hline number
    rw [List.map_cons]
    cases hreport : s.readLine number line with
    | mk result session log =>
    rw [hreport] at hresult hsession
    rcases hobey : s.obey statement with ⟨fault | ⟨⟩, next⟩
    · rw [hobey] at hresult
      obtain rfl : result = .error (fault.atLine number) := hresult
      rw [Session.follow_of_error hobey, Session.runFrom_of_error hreport]
      exact ⟨number, rfl, rfl⟩
    · rw [hobey] at hresult hsession
      obtain rfl : result = .ok () := hresult
      obtain rfl : session = next := hsession
      have hlater := ih ((Session.vocabulary_of_obey hobey).trans hv)
      rw [Session.follow_of_ok hobey, Session.runFrom_of_ok hreport]
      cases hfollow : session.follow later with
      | ok last =>
        rw [hfollow] at hlater
        exact hlater
      | error failure =>
        rw [hfollow] at hlater
        exact hlater

/-- The statements of a text, in the order of its lines. -/
def statementsOf (text : String) : List Statement := (Text.lines text).filterMap statement?

/-- A text is read as a scene iff its statements can be followed to the end and leave that scene. -/
theorem readText_eq_ok_iff {policy : Policy} {text : String} {scene : Scene α} :
    (readText policy text).result = .ok scene ↔
      ∃ last : Session α, (Session.start policy).follow (statementsOf text) = .ok last ∧
        last.close.result = .ok scene := by
  obtain ⟨numbers, hrows⟩ := rows_filterMap (Text.lines text) 1
  have hrun := hrows.runFrom (s := (Session.start policy : Session α)) rfl
  rw [statementsOf]
  cases hfollow : (Session.start policy : Session α).follow ((Text.lines text).filterMap statement?) with
  | ok last =>
    rw [hfollow] at hrun
    constructor
    · exact fun h => ⟨last, rfl, hrun.symm.trans h⟩
    · rintro ⟨other, hother, h⟩
      cases hother
      exact hrun.trans h
  | error failure =>
    rw [hfollow] at hrun
    obtain ⟨n, -, hrun⟩ := hrun
    constructor
    · intro h
      have hboth := hrun.symm.trans h
      cases hboth
    · rintro ⟨other, hother, -⟩
      cases hother

end

end SceneScript.Script
