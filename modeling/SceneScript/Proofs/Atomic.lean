/-
Lines that fail. A line that fails leaves the session as it was, but for a `view` with a size as its
first argument: the size is stored before the second argument is looked at, and stays stored
(`readLine_of_error`). So where the caller goes on after failures, the session is the one that the
lines which succeed lead to by themselves, but for the size of the images, which is the one stored last.
-/
import SceneScript.Proofs.Additions
import SceneScript.Proofs.Naming
namespace SceneScript.Script

open Space Number

variable {α : Type}

/-! ## Commands that fail -/

namespace Command

variable [Scalar α] [FromWord α]

/-- A command that fails has done no more than it had begun. -/
theorem outcome_of_error {c : Command} {line : Nat} {name : String} {words : List String}
    {w : Workspace α} {fault : Fault} (h : (c.outcome line name words w).1 = .error fault) :
    (c.outcome line name words w).2 = c.begun words w := by
  unfold outcome read at h ⊢
  cases hread : (readValues 0 c.kinds words : Except Flaw (List (Value α))) with
  | error flaw => rfl
  | ok values =>
    simp only [hread, Except.map] at h ⊢
    cases hfault : (c.directives values).findSome? (Directive.fault? line w.frames) with
    | none =>
      rw [hfault] at h
      cases h
    | some refusal =>
      -- the directives of `view` are never refused
      obtain ⟨d, hd, hrefused⟩ := List.exists_of_findSome?_eq_some hfault
      have hcommand := command_of_mem_directives hd
      have hc : c ≠ view := by
        rintro rfl
        cases d with
        | imageSize | cornerDistance => cases hrefused
        | _ => cases hcommand
      exact (begun_of_ne hc words w).symm

theorem outcome_view {first : String} {size : Int32} (hsize : ofWord? first = some size) (line : Nat)
    (name : String) (words : List String) (w : Workspace α) :
    view.outcome line name (first :: words) w =
      match words with
      | [] => (.error (.missingArgument line name 2), (Directive.imageSize size).apply w)
      | second :: _ =>
        match (ofWord? second : Option α) with
        | none => (.error (.notANumber line name second), (Directive.imageSize size).apply w)
        | some distance =>
          (.ok (), (Directive.cornerDistance distance).apply ((Directive.imageSize size).apply w)) := by
  simp only [outcome, read, kinds, readValues, Kind.read?, hsize, Option.map_some, begun]
  cases words with
  | nil => rfl
  | cons second words =>
    simp only [readValues, Kind.read?]
    cases (ofWord? second : Option α) <;> rfl

/-- `view` without a size as its first argument fails, and nothing has begun by then. -/
theorem outcome_view_of_none {words : List String}
    (h : ∀ first rest, words = first :: rest → (ofWord? first : Option Int32) = none) (line : Nat)
    (name : String) (w : Workspace α) : (view.outcome line name words w).2 = w := by
  cases words with
  | nil => rfl
  | cons first rest =>
    simp only [outcome, read, kinds, readValues, Kind.read?, h first rest rfl, Option.map_none, Except.map,
      begun]

end Command

/-! ## Lines that fail -/

namespace Session

/-- The session with another size of its images. -/
def resized (size : Int32) (s : Session α) : Session α :=
  s.modifyScene fun scene => { scene with imageSize := size }

@[simp] theorem resized_resized (size size' : Int32) (s : Session α) :
    (s.resized size).resized size' = s.resized size' := rfl

theorem resized_self (s : Session α) : s.resized s.workspace.scene.imageSize = s := rfl

variable [Scalar α] [FromWord α]

/-- A line stores a size: its first word means `view`, and its first argument is the size. -/
def Stores (s : Session α) (line : String) (size : Int32) : Prop :=
  ∃ word first words, statement? line = some (word, first :: words) ∧
    s.vocabulary.find? word = some Command.view.action ∧ ofWord? first = some size

/-- There is a first argument in a line, and the second one is missing or no number. -/
def LacksSecond (α : Type) [FromWord α] (line : String) : Prop :=
  ∃ word first words, statement? line = some (word, first :: words) ∧
    ∀ second, words.head? = some second → (ofWord? second : Option α) = none

theorem Stores.congr {s s' : Session α} (h : s'.vocabulary = s.vocabulary) {line : String} {size : Int32} :
    s'.Stores line size ↔ s.Stores line size := by
  unfold Stores
  rw [h]

/-- A line that stores a size has it stored, whatever comes of the line. -/
theorem Stores.imageSize {s : Session α} {line : String} {size : Int32} (h : s.Stores line size)
    (number : Nat) : (s.readLine number line).session.workspace.scene.imageSize = size := by
  obtain ⟨word, first, words, hs, hf, hsize⟩ := h
  rw [readLine_of_action hs hf, perform_action, Command.outcome_view hsize]
  cases words with
  | nil => rfl
  | cons second words =>
    simp only
    cases (ofWord? second : Option α) <;> rfl

theorem Stores.of_error {s : Session α} {line : String} {size : Int32} (h : s.Stores line size)
    {number : Nat} {fault : Fault} (herror : (s.readLine number line).result = .error fault) :
    (s.readLine number line).session = s.resized size ∧ LacksSecond α line := by
  obtain ⟨word, first, words, hs, hf, hsize⟩ := h
  rw [readLine_of_action hs hf, perform_action, Command.outcome_view hsize] at herror ⊢
  cases words with
  | nil => exact ⟨rfl, word, first, [], hs, nofun⟩
  | cons second words =>
    cases hsecond : (ofWord? second : Option α) with
    | none =>
      simp only [hsecond]
      refine ⟨rfl, word, first, second :: words, hs, ?_⟩
      rintro _ ⟨⟩
      exact hsecond
    | some distance =>
      simp only [hsecond] at herror
      cases herror

/-- A line that stores no size leaves the size as it is, and if it fails, the whole session. -/
theorem readLine_of_not_stores {s : Session α} (hv : s.vocabulary.OfCommands) {line : String}
    (h : ∀ size, ¬s.Stores line size) (number : Nat) :
    (s.readLine number line).session.workspace.scene.imageSize = s.workspace.scene.imageSize ∧
      ∀ fault, (s.readLine number line).result = .error fault → (s.readLine number line).session = s := by
  rcases readLine_cases hv line with hline | ⟨c, word, words, hs, hf, hline⟩
  · rw [(hline number).2]
    exact ⟨rfl, fun _ _ => rfl⟩
  rw [hline number]
  by_cases hc : c = .view
  · subst hc
    have hnone : ∀ first rest, words = first :: rest → (ofWord? first : Option Int32) = none := by
      rintro first rest rfl
      cases hsize : (ofWord? first : Option Int32) with
      | none => rfl
      | some size => exact absurd ⟨word, first, rest, hs, hf, hsize⟩ (h size)
    rw [Command.outcome_view_of_none hnone]
    exact ⟨rfl, fun _ _ => rfl⟩
  · constructor
    · exact Command.outcome_induction (R := fun v w : Workspace α => w.scene.imageSize = v.scene.imageSize)
        (fun _ => rfl) (fun h h' => h'.trans h)
        (fun w d hd => by
          cases d with
          | imageSize => exact absurd hd.symm hc
          | _ => rfl) number word words s.workspace
    · intro fault herror
      rw [Command.outcome_of_error herror, Command.begun_of_ne hc]

/-- A line that fails changes the size at the most. -/
theorem readLine_of_error {s : Session α} (hv : s.vocabulary.OfCommands) {number : Nat} {line : String}
    {fault : Fault} (h : (s.readLine number line).result = .error fault) :
    ∃ size, (s.readLine number line).session = s.resized size := by
  by_cases hstores : ∃ size, s.Stores line size
  · obtain ⟨size, hstores⟩ := hstores
    exact ⟨size, (hstores.of_error h).1⟩
  · have hsame := (readLine_of_not_stores hv (not_exists.1 hstores) number).2 fault h
    exact ⟨_, hsame.trans s.resized_self.symm⟩

/-! ## Going on after failures -/

/-- The calls that succeed, of some that are made one after the other. -/
def successful : Session α → List (Nat × String) → List (Nat × String)
  | _, [] => []
  | s, (number, line) :: calls =>
    match s.readLine number line with
    | ⟨.ok (), session, _⟩ => (number, line) :: session.successful calls
    | ⟨.error _, session, _⟩ => session.successful calls

omit [Scalar α] [FromWord α] in
theorem after_eq (s : Session α) (calls : List (Nat × String)) :
    s.after calls = { s with workspace := (s.after calls).workspace } := by
  obtain ⟨hvocabulary, hpolicy⟩ := s.after_keeps calls
  cases hafter : s.after calls with
  | mk workspace vocabulary policy =>
  rw [hafter] at hvocabulary hpolicy
  obtain rfl : vocabulary = s.vocabulary := hvocabulary
  obtain rfl : policy = s.policy := hpolicy
  rfl

/-- Calls come to the same with another size, but for the size. -/
theorem after_resized {s : Session α} (hv : s.vocabulary.OfCommands) (size : Int32)
    (calls : List (Nat × String)) :
    (s.resized size).results calls = s.results calls ∧
      ∃ size', (s.resized size).after calls = (s.after calls).resized size' := by
  obtain ⟨results, logs, frames, a, hall⟩ := after_addition calls hv
  obtain ⟨hresults, -, hworkspace⟩ := hall s (.refl s)
  obtain ⟨hresults', -, hworkspace'⟩ := hall (s.resized size) (s.alike_modifyScene _)
  refine ⟨hresults'.trans hresults.symm, a.imageSize.getD size, ?_⟩
  rw [after_eq (s.resized size), after_eq s, hworkspace, hworkspace']
  rfl

/-- The calls that succeed do so by themselves, and lead to the same session but for the size. -/
theorem after_successful : ∀ (calls : List (Nat × String)) {s : Session α}, s.vocabulary.OfCommands →
    (∀ result ∈ s.results (s.successful calls), result = .ok ()) ∧
      ∃ size, s.after calls = (s.after (s.successful calls)).resized size
  | [], s, _ => ⟨nofun, _, rfl⟩
  | (number, line) :: calls, s, hv => by
    have hv' := ofCommands_readLine hv number line
    obtain ⟨hresults, size, hafter⟩ := after_successful calls hv'
    rw [after_cons, hafter, successful]
    cases hreport : s.readLine number line with
    | mk result session log =>
    rw [hreport] at hresults hv'
    cases result with
    | ok =>
      simp only [results, hreport, after_cons, List.forall_mem_cons]
      exact ⟨⟨trivial, hresults⟩, size, rfl⟩
    | error fault =>
      -- the calls behind the failing one do the same without it
      obtain ⟨stored, hstored⟩ := readLine_of_error hv (congrArg LineReport.result hreport)
      rw [hreport] at hstored
      subst hstored
      obtain ⟨hsame, size', hsize'⟩ := after_resized hv stored ((s.resized stored).successful calls)
      rw [hsame] at hresults
      exact ⟨hresults, size, by rw [hsize', resized_resized]⟩

/-- The size behind calls is the one that was stored last. -/
theorem imageSize_after_of_not_stores : ∀ (calls : List (Nat × String)) {s : Session α},
    s.vocabulary.OfCommands → (∀ call ∈ calls, ∀ size, ¬s.Stores call.2 size) →
      (s.after calls).workspace.scene.imageSize = s.workspace.scene.imageSize
  | [], _, _, _ => rfl
  | (number, line) :: calls, s, hv, h => by
    have hline := (readLine_of_not_stores hv (h (number, line) List.mem_cons_self) number).1
    have hlater : ∀ call ∈ calls, ∀ size, ¬(s.readLine number line).session.Stores call.2 size := by
      intro call hcall size hstores
      have hkeeps := (readLine_keeps (s := s) number line).1
      exact h call (List.mem_cons_of_mem _ hcall) size ((Stores.congr hkeeps).1 hstores)
    rw [after_cons, imageSize_after_of_not_stores calls (ofCommands_readLine hv number line) hlater, hline]

/-- A line that fails changes nothing, neither the vocabulary and the policy nor a frame, a light, an
object or a setting, but for a `view` whose first argument is a size: there the second argument is at
fault, and the size is stored. So where the caller goes on after failures, the calls that succeed would
have done so without the others, and lead to the same session but for the size of the images. This is
the one stored last, by a line that succeeded or by one that failed. -/
theorem failures_atomic {s : Session α} (hv : s.vocabulary.OfCommands) :
    (∀ number line fault, (s.readLine number line).result = .error fault →
      (∀ size, s.Stores line size →
        (s.readLine number line).session = s.resized size ∧ LacksSecond α line) ∧
      ((∀ size, ¬s.Stores line size) → (s.readLine number line).session = s)) ∧
    ∀ calls : List (Nat × String),
      (∀ result ∈ s.results (s.successful calls), result = .ok ()) ∧
      (∃ size, s.after calls = (s.after (s.successful calls)).resized size) ∧
      (∀ before number line later size, calls = before ++ (number, line) :: later → s.Stores line size →
        (∀ call ∈ later, ∀ size, ¬s.Stores call.2 size) →
        (s.after calls).workspace.scene.imageSize = size) ∧
      ((∀ call ∈ calls, ∀ size, ¬s.Stores call.2 size) →
        (s.after calls).workspace.scene.imageSize = s.workspace.scene.imageSize) := by
  refine ⟨fun number line fault h => ⟨fun size hstores => hstores.of_error h, fun hnone =>
    (readLine_of_not_stores hv hnone number).2 fault h⟩, fun calls => ?_⟩
  obtain ⟨hresults, hafter⟩ := after_successful calls hv
  refine ⟨hresults, hafter, ?_, imageSize_after_of_not_stores calls hv⟩
  rintro before number line later size rfl hstores hlater
  have hline := ((Stores.congr (s.after_keeps before).1).2 hstores).imageSize number
  have hsame : ((s.after before).readLine number line).session.vocabulary = s.vocabulary :=
    (readLine_keeps number line).1.trans (s.after_keeps before).1
  rw [after_append, after_cons, imageSize_after_of_not_stores later, hline]
  · rw [hsame]
    exact hv
  · exact fun call hcall size h => hlater call hcall size ((Stores.congr hsame).1 h)

/-- A size that is stored by a line that fails, under another name for `view`, among other failures. -/
theorem failures_atomic_view :
    let v : Vocabulary Float := Vocabulary.standard.define "size" Command.view.action
    let s := Session.withVocabulary v ⟨true⟩
    let later := [(5, "sphere"), (6, "groupend"), (7, "groupend"), (8, "view x 1")]
    let calls := [(1, "view 9 2"), (2, "move 1 0"), (3, "group")] ++ (4, "size 4 x") :: later
    s.vocabulary.OfCommands ∧
      (s.readLine 4 "size 4 x").result = .error (.notANumber 4 "size" "x") ∧ s.Stores "size 4 x" 4 ∧
      (s.readLine 4 "size 4 x").session = s.resized 4 ∧
      (s.readLine 8 "view x 1").session = s ∧
      s.successful calls = [(1, "view 9 2"), (3, "group"), (5, "sphere"), (6, "groupend")] ∧
      (∃ size, s.after calls =
        (s.after [(1, "view 9 2"), (3, "group"), (5, "sphere"), (6, "groupend")]).resized size) ∧
      (s.after calls).workspace.scene.imageSize = 4 := by
  intro v s later calls
  have hv : s.vocabulary.OfCommands := Vocabulary.ofCommands_standard.define "size" .view
  have hstores : s.Stores "size 4 x" 4 :=
    ⟨"size", "4", ["x"], by decide +kernel, Vocabulary.find?_define_self .., by decide +kernel⟩
  have hfails : (s.readLine 4 "size 4 x").result = .error (.notANumber 4 "size" "x") := by decide +kernel
  have hother : (s.readLine 8 "view x 1").result = .error (.notANumber 8 "view" "x") := by decide +kernel
  have hnumbers : ∀ call ∈ later, (statement? call.2).bind (fun statement =>
      statement.2.head?.bind fun first => (ofWord? first : Option Int32)) = none := by
    decide +kernel
  have hlater : ∀ call ∈ later, ∀ size, ¬s.Stores call.2 size := by
    rintro call hcall size ⟨word, first, words, hs, -, hsize⟩
    have hnone := hnumbers call hcall
    rw [hs] at hnone
    cases hsize.symm.trans hnone
  have hkept : s.successful calls = [(1, "view 9 2"), (3, "group"), (5, "sphere"), (6, "groupend")] := by
    decide +kernel
  obtain ⟨hline, hcalls⟩ := failures_atomic hv
  obtain ⟨-, hafter, hlast, -⟩ := hcalls calls
  rw [hkept] at hafter
  exact ⟨hv, hfails, hstores, ((hline _ _ _ hfails).1 4 hstores).1,
    (hline _ _ _ hother).2 (hlater (8, "view x 1") (by decide)), hkept, hafter,
    hlast _ _ _ later 4 rfl hstores hlater⟩

end Session

end SceneScript.Script
