/-
A static check of scripts: whether a script is refused, and for what, can be said without a scene,
a transform or a material. A line is at fault for its arguments alone, or because it ends a group
while as many groups have ended as have been opened (`lineFault?`); of several arguments that are
wrong the leftmost decides (`faultAt_flaw_iff`). Reading fails for the fault of the first such line;
without one it fails only where groups have to be closed and some are left open
(`readText_result_iff`). The invariant of the run is `Checked`: the groups that are open are
those counted in the lines carried out.
-/
import SceneScript.Proofs.Effect
namespace SceneScript.Script

open Space Number

/-! ## Faults of lines -/

/-- How many lines name a command. -/
def count (c : Command) (lines : List String) : Nat :=
  lines.countP fun line => (command? line).map Prod.fst == some c

def unclosed (lines : List String) : Nat := count .group lines - count .groupend lines

section
variable (α : Type) [Scalar α] [FromWord α]

variable {α} in
/-- The fault of a rotation whose axis has a length that comes out as zero or not finite. -/
def axisFault? (number : Nat) (axis : Vec3 α) : Option Fault :=
  if axis.norm == 0 || !Scalar.isFinite axis.norm then some (.noAxis number) else none

/-- The fault of a line that is malformed: an argument is missing or no number, or a rotation has
four numbers but no axis. -/
def malformed? (number : Nat) (line : String) : Option Fault :=
  match command? line with
  | none => none
  | some (c, words) =>
    match (readValues 0 c.kinds words : Except Flaw (List (Value α))) with
    | .error flaw => some (flaw.fault number c.name)
    | .ok values =>
      match c, values with
      | .rotate, [.number _, .number x, .number y, .number z] => axisFault? number ⟨x, y, z⟩
      | _, _ => none

/-- The fault of a line behind some other lines, if it is at fault. -/
def lineFault? (before : List String) (line : String) : Option Fault :=
  (malformed? α (before.length + 1) line).or
    (if (command? line).map Prod.fst = some .groupend ∧ count .groupend before = count .group before
      then some (.unmatchedGroupEnd (before.length + 1)) else none)

/-- The first fault of some lines behind others. -/
def firstFault? (before : List String) : List String → Option Fault
  | [] => none
  | line :: lines => (lineFault? α before line).or (firstFault? (before ++ [line]) lines)

/-- The line with an index, counted from zero, has a fault. -/
def FaultAt (lines : List String) (n : Nat) (fault : Fault) : Prop :=
  ∃ line, lines[n]? = some line ∧ lineFault? α (lines.take n) line = some fault

end

theorem count_append (c : Command) (lines : List String) (line : String) :
    count c (lines ++ [line]) =
      count c lines + if (command? line).map Prod.fst = some c then 1 else 0 := by
  rw [count, List.countP_append, List.countP_singleton]
  simp only [beq_iff_eq]
  rfl

section
variable {α : Type} [Scalar α] [FromWord α]

theorem line?_of_malformed? {number : Nat} {line : String} {fault : Fault}
    (h : malformed? α number line = some fault) : fault.line? = some number := by
  unfold malformed? at h
  split at h
  · cases h
  split at h
  · rename_i flaw _
    cases h
    cases flaw <;> rfl
  split at h
  · rw [axisFault?, Option.ite_none_right_eq_some, Option.some.injEq] at h
    rw [← h.2]
    rfl
  · cases h

/-- A fault names the line that is at fault, counted from one. -/
theorem FaultAt.line? {lines : List String} {n : Nat} {fault : Fault} (h : FaultAt α lines n fault) :
    fault.line? = some (n + 1) := by
  obtain ⟨line, hline, h⟩ := h
  have hlength : (lines.take n).length = n :=
    List.length_take_of_le (Nat.le_of_lt (List.getElem?_eq_some_iff.1 hline).1)
  rw [lineFault?, hlength, Option.or_eq_some_iff] at h
  rcases h with h | ⟨-, h⟩
  · exact line?_of_malformed? h
  · rw [Option.ite_none_right_eq_some, Option.some.injEq] at h
    rw [← h.2]
    rfl

/-- A line has the fault of a flaw where the flaw is that of the leftmost argument that is wrong. -/
theorem faultAt_flaw_iff {lines : List String} {n : Nat} {line : String} {c : Command}
    {words : List String} (hline : lines[n]? = some line) (hc : command? line = some (c, words))
    (flaw : Flaw) :
    FaultAt α lines n (flaw.fault (n + 1) c.name) ↔ LeftmostFlaw α 0 c.kinds words flaw := by
  have hlength : (lines.take n).length = n :=
    List.length_take_of_le (Nat.le_of_lt (List.getElem?_eq_some_iff.1 hline).1)
  have hunmatched : Fault.unmatchedGroupEnd (n + 1) ≠ flaw.fault (n + 1) c.name := by
    cases flaw <;> nofun
  rw [← readValues_eq_error_iff, FaultAt]
  simp only [hline, Option.some.injEq, exists_eq_left', lineFault?, hlength, malformed?, hc,
    Option.or_eq_some_iff, Option.ite_none_right_eq_some, hunmatched, and_false, or_false]
  cases readValues (α := α) 0 c.kinds words with
  | error other => simp only [Option.some.injEq, Except.error.injEq, (Flaw.fault_injective _ _).eq_iff]
  | ok values =>
    simp only [reduceCtorEq, iff_false]
    split
    · rw [axisFault?, Option.ite_none_right_eq_some, Option.some.injEq]
      cases flaw <;> nofun
    · nofun

theorem firstFault?_eq_none_iff {before lines : List String} :
    firstFault? α before lines = none ↔
      ∀ n line, lines[n]? = some line → lineFault? α (before ++ lines.take n) line = none := by
  induction lines generalizing before with
  | nil => simp [firstFault?]
  | cons first lines ih =>
    rw [firstFault?, Option.or_eq_none_iff, ih]
    constructor
    · rintro ⟨hfirst, hlater⟩ n line hline
      cases n with
      | zero =>
        cases hline
        simpa using hfirst
      | succ n => simpa using hlater n line hline
    · intro h
      exact ⟨by simpa using h 0 first rfl, fun n line hline => by simpa using h (n + 1) line hline⟩

theorem firstFault?_eq_some_iff {before lines : List String} {fault : Fault} :
    firstFault? α before lines = some fault ↔
      ∃ n line, lines[n]? = some line ∧ lineFault? α (before ++ lines.take n) line = some fault ∧
        ∀ m < n, ∀ line, lines[m]? = some line → lineFault? α (before ++ lines.take m) line = none := by
  induction lines generalizing before with
  | nil => simp [firstFault?]
  | cons first lines ih =>
    rw [firstFault?, Option.or_eq_some_iff, ih]
    constructor
    · rintro (hfirst | ⟨hfirst, n, line, hline, hfault, hbefore⟩)
      · exact ⟨0, first, rfl, by simpa using hfirst, nofun⟩
      · refine ⟨n + 1, line, hline, by simpa using hfault, fun m hm line hline => ?_⟩
        cases m with
        | zero =>
          cases hline
          simpa using hfirst
        | succ m => simpa using hbefore m (by omega) line hline
    · rintro ⟨n, line, hline, hfault, hbefore⟩
      cases n with
      | zero =>
        cases hline
        exact .inl (by simpa using hfault)
      | succ n =>
        refine .inr ⟨by simpa using hbefore 0 (by omega) first rfl, n, line, hline,
          by simpa using hfault, fun m hm line hline => ?_⟩
        simpa using hbefore (m + 1) (by omega) line hline

end

/-! ## The check and the run -/

namespace Frames

variable {α : Type}

theorem SameBelow.openGroups {f g : Frames α} (h : f.SameBelow g) : g.openGroups = f.openGroups := by
  simp only [Frames.openGroups, Frames.depth, Stack.depth, h.transforms]

theorem SameBelow.balanced {f g : Frames α} (h : f.SameBelow g) (hf : f.Balanced) : g.Balanced := by
  simpa only [Balanced, Stack.depth, h.transforms, h.materials] using hf

end Frames

section
variable {α : Type} [Scalar α] [FromWord α]

omit [FromWord α] in
theorem fault?_rotate (line : Nat) (frames : Frames α) (degrees : α) (axis : Vec3 α) :
    (Directive.rotate degrees axis).fault? line frames = axisFault? line axis := by
  rw [Directive.fault?, hasDirection, axisFault?]
  cases axis.norm == 0 || !Scalar.isFinite axis.norm <;> rfl

omit [FromWord α] in
/-- Only a `groupend` without an open group and a rotation without an axis are refused. -/
theorem findSome?_fault?_directives (c : Command) (values : List (Value α)) (line : Nat)
    (frames : Frames α) :
    (c.directives values).findSome? (Directive.fault? line frames) =
      match c, values with
      | .groupend, _ => if frames.closeGroup?.isSome then none else some (.unmatchedGroupEnd line)
      | .rotate, [.number _, .number x, .number y, .number z] => axisFault? line ⟨x, y, z⟩
      | _, _ => none := by
  unfold Command.directives
  split
  case h_6 => rw [List.findSome?_singleton, Directive.fault?]
  case h_12 => rw [List.findSome?_singleton, fault?_rotate]
  case h_14 hgroupend _ _ _ _ _ _ _ _ _ _ hrotate =>
    -- values that make up no directive belong to neither command
    split
    · exact absurd rfl hgroupend
    · exact (hrotate _ _ _ _ rfl rfl).elim
    · rfl
  all_goals rfl

/-- What the frames say of the groups counted in the lines before. -/
structure Counted (before : List String) (frames : Frames α) : Prop where
  balanced : frames.Balanced
  opened : frames.openGroups + count .groupend before = count .group before

omit [Scalar α] [FromWord α] in
theorem Counted.isSome_closeGroup? {before : List String} {frames : Frames α}
    (h : Counted before frames) :
    frames.closeGroup?.isSome = true ↔ count .groupend before ≠ count .group before := by
  have hnone := h.balanced.closeGroup?_eq_none_iff
  have hopened := h.opened
  rw [Option.isSome_iff_ne_none, ne_eq, hnone]
  omega

theorem findSome?_eq_lineFault? {before : List String} {line : String} {c : Command}
    {words : List String} {values : List (Value α)} {frames : Frames α}
    (hc : command? line = some (c, words)) (hvalues : readValues 0 c.kinds words = .ok values)
    (hframes : Counted before frames) :
    (c.directives values).findSome? (Directive.fault? (before.length + 1) frames) =
      lineFault? α before line := by
  rw [findSome?_fault?_directives, lineFault?, malformed?]
  simp only [hc, hvalues, Option.map_some, Option.some.injEq]
  have hclose := hframes.isSome_closeGroup?
  split
  · by_cases hcount : count .groupend before = count .group before
    · have hopen : ¬frames.closeGroup?.isSome = true := fun h => hclose.1 h hcount
      rw [if_neg hopen, if_pos ⟨rfl, hcount⟩]
      rfl
    · rw [if_pos (hclose.2 hcount), if_neg fun h => hcount h.2]
      rfl
  · simp
  · rename_i hgroupend _
    split
    · rename_i hrotate
      exact (hrotate _ _ _ _ rfl rfl).elim
    · rw [if_neg fun h => hgroupend h.1]
      rfl

/-- A command fails as the check of its line says. -/
theorem outcome_lineFault? {before : List String} {line : String} {c : Command}
    {words : List String} {w : Workspace α} (hc : command? line = some (c, words))
    (hw : Counted before w.frames) :
    (c.outcome (before.length + 1) c.name words w).1 =
      match lineFault? α before line with
      | some fault => .error fault
      | none => .ok () := by
  unfold Command.outcome Command.read
  cases hvalues : (readValues 0 c.kinds words : Except Flaw (List (Value α))) with
  | error flaw =>
    have hfault : lineFault? α before line = some (flaw.fault (before.length + 1) c.name) := by
      simp only [lineFault?, malformed?, hc, hvalues, Option.some_or]
    rw [hfault]
    rfl
  | ok values =>
    simp only [Except.map, findSome?_eq_lineFault? hc hvalues hw]
    cases lineFault? α before line <;> rfl

/-- A command that is not at fault leaves as many groups open as are counted with its line. -/
theorem Counted.outcome {before : List String} {line : String} {c : Command} {words : List String}
    {w : Workspace α} (hw : Counted before w.frames) (hc : command? line = some (c, words))
    (hfault : lineFault? α before line = none) (number : Nat) (name : String) :
    Counted (before ++ [line]) (c.outcome number name words w).2.frames := by
  have hopened := hw.opened
  by_cases hgroup : c = .group
  · subst hgroup
    refine ⟨hw.balanced.openGroup, ?_⟩
    simp only [count_append, hc, Option.map_some, Option.some.injEq, reduceCtorEq, ite_true, ite_false]
    show w.frames.openGroup.openGroups + _ = _
    have hdepth : 0 < w.frames.depth := Nat.succ_pos _
    simp only [Frames.openGroups, Frames.depth_openGroup] at hopened ⊢
    omega
  by_cases hgroupend : c = .groupend
  · subst hgroupend
    have hcount : count .groupend before ≠ count .group before := by
      intro hcount
      simp [lineFault?, hc, hcount] at hfault
    -- without a fault fewer groups were ended than opened, so there is a frame to take off
    obtain ⟨⟨pair, outer⟩, hclose⟩ := Option.isSome_iff_exists.1 (hw.isSome_closeGroup?.2 hcount)
    obtain ⟨hbalanced, hdepth⟩ := hw.balanced.of_closeGroup? hclose
    rw [Command.frames_outcome_groupend, Frames.closeGroup, hclose]
    refine ⟨hbalanced, ?_⟩
    simp only [count_append, hc, Option.map_some, Option.some.injEq, reduceCtorEq, ite_true, ite_false]
    have hpositive : 0 < outer.depth := Nat.succ_pos _
    simp only [Frames.openGroups] at hopened ⊢
    omega
  · have hbelow := Command.sameBelow_outcome hgroup hgroupend number name words w
    refine ⟨hbelow.balanced hw.balanced, ?_⟩
    rw [hbelow.openGroups]
    simpa [count_append, hc, hgroup, hgroupend] using hopened

namespace Session

/-- The invariant of a run that is not at fault: the groups that are open are those counted in the
lines before. -/
structure Checked (policy : Policy) (before : List String) (s : Session α) : Prop where
  vocabulary : s.vocabulary = .standard
  policy : s.policy = policy
  counted : Counted before s.workspace.frames

theorem checked_start (policy : Policy) : Checked policy [] (start policy : Session α) :=
  ⟨rfl, rfl, rfl, rfl⟩

/-- What comes of a line is what the check says, and the invariant goes on. -/
theorem Checked.readLine {policy : Policy} {before : List String} {s : Session α}
    (h : s.Checked policy before) (line : String) :
    match lineFault? α before line with
    | some fault => (s.readLine (before.length + 1) line).result = .error fault
    | none => (s.readLine (before.length + 1) line).result = .ok () ∧
        (s.readLine (before.length + 1) line).session.Checked policy (before ++ [line]) := by
  obtain ⟨hvocabulary, hpolicy⟩ := readLine_keeps (s := s) (before.length + 1) line
  have hline := readLine_standard h.vocabulary (before.length + 1) line
  cases hc : command? line with
  | none =>
    rw [hc] at hline
    have hfault : lineFault? α before line = none := by simp [lineFault?, malformed?, hc]
    rw [hfault]
    refine ⟨hline.1, hvocabulary.trans h.vocabulary, hpolicy.trans h.policy, ?_⟩
    rw [hline.2]
    exact ⟨h.counted.balanced, by simpa [count_append, hc] using h.counted.opened⟩
  | some command =>
    obtain ⟨c, words⟩ := command
    rw [hc] at hline
    have houtcome := outcome_lineFault? hc h.counted
    cases hfault : lineFault? α before line with
    | some fault =>
      rw [hfault] at houtcome
      simp only [hline, houtcome]
    | none =>
      rw [hfault] at houtcome
      refine ⟨by simp only [hline, houtcome], hvocabulary.trans h.vocabulary,
        hpolicy.trans h.policy, ?_⟩
      simp only [hline]
      exact h.counted.outcome hc hfault _ _

theorem Checked.close_result {policy : Policy} {lines : List String} {s : Session α}
    (h : s.Checked policy lines) :
    s.close.result =
      if policy.strictGroups = true ∧ 0 < unclosed lines then .error (.openGroups (unclosed lines))
      else .ok s.workspace.scene := by
  have hopen : s.workspace.frames.openGroups = unclosed lines := by
    have hopened := h.counted.opened
    rw [unclosed]
    omega
  rw [close, hopen, h.policy]
  by_cases hzero : unclosed lines = 0
  · rw [if_pos hzero, if_neg (by omega)]
  · rw [if_neg hzero]
    by_cases hstrict : policy.strictGroups = true
    · rw [if_pos hstrict, if_pos ⟨hstrict, by omega⟩]
    · rw [if_neg hstrict, if_neg fun hboth => hstrict hboth.1]

/-- A run under the invariant fails for the first fault, or ends under the invariant. -/
theorem Checked.runFrom {policy : Policy} : ∀ {before : List String} {s : Session α},
    s.Checked policy before → ∀ lines,
      match firstFault? α before lines with
      | some fault => (s.runFrom (before.length + 1) (lines.map .ok)).result = .error fault
      | none => ∃ last : Session α, last.Checked policy (before ++ lines) ∧
          (s.runFrom (before.length + 1) (lines.map .ok)).result = last.close.result
  | before, s, h, [] => ⟨s, by simpa using h, rfl⟩
  | before, s, h, line :: lines => by
    have hline := h.readLine line
    rw [firstFault?]
    cases hreport : s.readLine (before.length + 1) line with
    | mk result session log =>
    rw [hreport] at hline
    cases hfault : lineFault? α before line with
    | some fault =>
      rw [hfault] at hline
      obtain rfl := hline
      simp only [Option.some_or, List.map_cons, runFrom_of_error hreport]
    | none =>
      rw [hfault] at hline
      obtain ⟨rfl, hsession⟩ := hline
      have hlater := runFrom hsession lines
      simpa only [Option.none_or, List.map_cons, runFrom_of_ok hreport, List.length_append,
        List.length_singleton, List.append_assoc, List.singleton_append] using hlater

end Session

theorem readText_result (policy : Policy) (text : String) :
    match firstFault? α [] (Text.lines text) with
    | some fault => (readText policy text : Report α).result = .error fault
    | none => ∃ scene, (readText policy text : Report α).result =
        if policy.strictGroups = true ∧ 0 < unclosed (Text.lines text) then
          .error (.openGroups (unclosed (Text.lines text)))
        else .ok scene := by
  have hrun := (Session.checked_start (α := α) policy).runFrom (Text.lines text)
  cases hfault : firstFault? α [] (Text.lines text) with
  | some fault =>
    rw [hfault] at hrun
    exact hrun
  | none =>
    rw [hfault] at hrun
    obtain ⟨last, hlast, hresult⟩ := hrun
    exact ⟨last.workspace.scene, hresult.trans hlast.close_result⟩

theorem firstFault?_eq_some_iff_faultAt {lines : List String} {fault : Fault} :
    firstFault? α [] lines = some fault ↔
      ∃ n, FaultAt α lines n fault ∧ ∀ m < n, ∀ f, ¬FaultAt α lines m f := by
  rw [firstFault?_eq_some_iff]
  constructor
  · rintro ⟨n, line, hline, hfault, hbefore⟩
    refine ⟨n, ⟨line, hline, hfault⟩, ?_⟩
    rintro m hm f ⟨other, hother, hf⟩
    have hnone := hbefore m hm other hother
    rw [List.nil_append] at hnone
    rw [hnone] at hf
    cases hf
  · rintro ⟨n, ⟨line, hline, hfault⟩, hbefore⟩
    refine ⟨n, line, hline, hfault, fun m hm other hother => ?_⟩
    rw [List.nil_append]
    exact Option.eq_none_iff_forall_ne_some.2 fun f hf => hbefore m hm f ⟨other, hother, hf⟩

theorem firstFault?_eq_none_iff_faultAt {lines : List String} :
    firstFault? α [] lines = none ↔ ∀ n f, ¬FaultAt α lines n f := by
  rw [firstFault?_eq_none_iff]
  constructor
  · rintro h n f ⟨line, hline, hf⟩
    rw [← List.nil_append (lines.take n), h n line hline] at hf
    cases hf
  · intro h n line hline
    rw [List.nil_append]
    exact Option.eq_none_iff_forall_ne_some.2 fun f hf => h n f ⟨line, hline, hf⟩

/-- Reading a text fails for the first line at fault, and names that line; without one it fails
exactly where groups have to be closed and some are left open. Of several arguments that are wrong
the leftmost is the fault of the line. -/
theorem readText_result_iff (policy : Policy) (text : String) :
    (∀ fault, (readText policy text : Report α).result = .error fault ↔
      (∃ n, FaultAt α (Text.lines text) n fault ∧ ∀ m < n, ∀ f, ¬FaultAt α (Text.lines text) m f) ∨
      ((∀ n f, ¬FaultAt α (Text.lines text) n f) ∧ policy.strictGroups = true ∧
        0 < unclosed (Text.lines text) ∧ fault = .openGroups (unclosed (Text.lines text)))) ∧
    ((∃ scene, (readText policy text : Report α).result = .ok scene) ↔
      (∀ n f, ¬FaultAt α (Text.lines text) n f) ∧
        ¬(policy.strictGroups = true ∧ 0 < unclosed (Text.lines text))) ∧
    (∀ n fault, FaultAt α (Text.lines text) n fault → fault.line? = some (n + 1)) ∧
    ∀ n line c words flaw, (Text.lines text)[n]? = some line → command? line = some (c, words) →
      (FaultAt α (Text.lines text) n (flaw.fault (n + 1) c.name) ↔ LeftmostFlaw α 0 c.kinds words flaw) := by
  have hresult := readText_result (α := α) policy text
  simp only [← firstFault?_eq_some_iff_faultAt, ← firstFault?_eq_none_iff_faultAt]
  cases hfirst : firstFault? α [] (Text.lines text) with
  | some first =>
    rw [hfirst] at hresult
    rw [hresult]
    exact ⟨fun fault => by simp, by simp, fun n fault h => h.line?,
      fun n line c words flaw hline hc => faultAt_flaw_iff hline hc flaw⟩
  | none =>
    rw [hfirst] at hresult
    obtain ⟨scene, hresult⟩ := hresult
    rw [hresult]
    refine ⟨fun fault => ?_, ?_, fun n fault h => h.line?,
      fun n line c words flaw hline hc => faultAt_flaw_iff hline hc flaw⟩
    · split
      · rename_i hopen
        simp [hopen.1, hopen.2, eq_comm]
      · rename_i hclosed
        simpa using fun h h' => absurd ⟨h, h'⟩ hclosed
    · split
      · rename_i hopen
        simp [hopen]
      · rename_i hclosed
        simp [hclosed]

end

end SceneScript.Script
