/-
What commands can change: `group` and `groupend` add and remove a frame, every other command
leaves the frames under the top alone, and only five commands touch the scene. All of it holds
of a command that fails as well.
-/
import SceneScript.Proofs.Calls
namespace SceneScript.Script

open Space Number

variable {α : Type}

/-! ## Frames under the top -/

namespace Frames

/-- The frames under the top are the same, the top may be another one. -/
structure SameBelow (f g : Frames α) : Prop where
  transforms : g.transforms.below = f.transforms.below
  materials : g.materials.below = f.materials.below

theorem SameBelow.refl (f : Frames α) : f.SameBelow f := ⟨rfl, rfl⟩

theorem SameBelow.trans {f g h : Frames α} (hfg : f.SameBelow g) (hgh : g.SameBelow h) :
    f.SameBelow h :=
  ⟨hgh.transforms.trans hfg.transforms, hgh.materials.trans hfg.materials⟩

end Frames

/-! ## Directives and their commands -/

namespace Directive

/-- The command that asks for a directive. -/
def command : Directive α → Command
  | imageSize _ | cornerDistance _ => .view
  | background _ => .background
  | ambient _ => .ambient
  | light _ => .light
  | openGroup => .group
  | closeGroup => .groupend
  | sphere => .sphere
  | material _ => .material
  | refraction _ _ => .refraction
  | move _ => .move
  | scale _ => .scale
  | rotate _ _ => .rotate
  | skip => .texture

variable [Scalar α]

theorem sameBelow_apply (w : Workspace α) {d : Directive α} (hopen : d.command ≠ .group)
    (hclose : d.command ≠ .groupend) : w.frames.SameBelow (d.apply w).frames := by
  cases d with
  | openGroup => exact absurd rfl hopen
  | closeGroup => exact absurd rfl hclose
  | _ => exact ⟨rfl, rfl⟩

end Directive

namespace Command

/-- The commands that write to the scene. -/
def writesScene : Command → Bool
  | view | background | ambient | light | sphere => true
  | _ => false

end Command

theorem Directive.scene_apply [Scalar α] (w : Workspace α) {d : Directive α}
    (h : d.command.writesScene = false) : (d.apply w).scene = w.scene := by
  cases d with
  | imageSize | cornerDistance | background | ambient | light | sphere => cases h
  | _ => rfl

namespace Command

variable [Scalar α] [FromWord α]

omit [FromWord α] in
/-- A command has one directive at the most, but for `view`. -/
theorem directives_cases (c : Command) (values : List (Value α)) :
    c.directives values = [] ∨ (∃ d, d.command = c ∧ c.directives values = [d]) ∨
      ∃ size distance, c = view ∧ c.directives values = [.imageSize size, .cornerDistance distance] := by
  unfold directives
  split
  case h_1 => exact .inr (.inr ⟨_, _, rfl, rfl⟩)
  case h_14 => exact .inl rfl
  all_goals exact .inr (.inl ⟨_, rfl, rfl⟩)

omit [FromWord α] in
theorem command_of_mem_directives {c : Command} {values : List (Value α)} {d : Directive α}
    (h : d ∈ c.directives values) : d.command = c := by
  rcases c.directives_cases values with hnone | ⟨e, he, hone⟩ | ⟨size, distance, rfl, htwo⟩
  · rw [hnone] at h
    cases h
  · rw [hone, List.mem_singleton] at h
    rw [h, he]
  · rw [htwo, List.mem_cons, List.mem_singleton] at h
    rcases h with rfl | rfl <;> rfl

omit [FromWord α] in
theorem findSome?_fault?_congr {c : Command} (values : List (Value α)) {line : Nat}
    {frames frames' : Frames α}
    (h : ∀ d : Directive α, d.command = c → d.fault? line frames = d.fault? line frames') :
    (c.directives values).findSome? (Directive.fault? line frames) =
      (c.directives values).findSome? (Directive.fault? line frames') := by
  rcases c.directives_cases values with hnone | ⟨d, hd, hone⟩ | ⟨size, distance, -, htwo⟩
  · rw [hnone]
    rfl
  · rw [hone, List.findSome?_singleton, List.findSome?_singleton]
    exact h d hd
  · rw [htwo]
    rfl

/-- Whatever comes of a command, the workspace is as it was, or `view` has begun, or all
directives are carried out. -/
theorem outcome_workspace (c : Command) (line : Nat) (name : String) (words : List String)
    (w : Workspace α) :
    (c.outcome line name words w).2 = w ∨
      (c = view ∧ ∃ size, (c.outcome line name words w).2 = (Directive.imageSize size).apply w) ∨
      ∃ values, (c.outcome line name words w).2 = (c.directives values).foldl Directive.apply w := by
  unfold outcome read
  cases (readValues 0 c.kinds words : Except Flaw (List (Value α))) with
  | error flaw =>
    simp only [Except.map, begun]
    split
    · split
      · exact .inr (.inl ⟨rfl, _, rfl⟩)
      · exact .inl rfl
    · exact .inl rfl
  | ok values =>
    simp only [Except.map]
    split
    · exact .inl rfl
    · exact .inr (.inr ⟨values, rfl⟩)

/-- A change of workspaces that commutes with the directives of a command, and does not decide which
of them are refused, commutes with the command. -/
theorem outcome_comm {F : Workspace α → Workspace α} {c : Command} {line : Nat}
    (hfault : ∀ (w : Workspace α) (d : Directive α), d.command = c →
      d.fault? line (F w).frames = d.fault? line w.frames)
    (happly : ∀ (w : Workspace α) (d : Directive α), d.command = c → d.apply (F w) = F (d.apply w))
    (name : String) (words : List String) (w : Workspace α) :
    c.outcome line name words (F w) =
      ((c.outcome line name words w).1, F (c.outcome line name words w).2) := by
  have hfold : ∀ (ds : List (Directive α)) (w : Workspace α), (∀ d ∈ ds, d.command = c) →
      ds.foldl Directive.apply (F w) = F (ds.foldl Directive.apply w) := by
    intro ds
    induction ds with
    | nil => exact fun w _ => rfl
    | cons d ds ih =>
      intro w hds
      rw [List.foldl_cons, List.foldl_cons, happly w d (hds d (by simp))]
      exact ih _ fun e he => hds e (by simp [he])
  unfold outcome read
  cases (readValues 0 c.kinds words : Except Flaw (List (Value α))) with
  | error flaw =>
    simp only [Except.map, begun]
    split
    · split
      · rw [happly w _ rfl]
      · rfl
    · rfl
  | ok values =>
    simp only [Except.map, findSome?_fault?_congr values (hfault w)]
    cases (c.directives values).findSome? (Directive.fault? line w.frames) with
    | some fault => rfl
    | none => simp only [hfold _ w fun d hd => command_of_mem_directives hd]

/-- A relation that every directive of a command keeps is kept by the command. -/
theorem outcome_induction {R : Workspace α → Workspace α → Prop} (hrefl : ∀ w, R w w)
    (htrans : ∀ {u v w}, R u v → R v w → R u w) {c : Command}
    (happly : ∀ (w : Workspace α) (d : Directive α), d.command = c → R w (d.apply w)) (line : Nat)
    (name : String) (words : List String) (w : Workspace α) :
    R w (c.outcome line name words w).2 := by
  have hfold : ∀ (ds : List (Directive α)) (w : Workspace α), (∀ d ∈ ds, d.command = c) →
      R w (ds.foldl Directive.apply w) := by
    intro ds
    induction ds with
    | nil => exact fun w _ => hrefl w
    | cons d ds ih =>
      intro w hds
      exact htrans (happly w d (hds d (by simp))) (ih _ fun e he => hds e (by simp [he]))
  rcases c.outcome_workspace line name words w with h | ⟨hc, size, h⟩ | ⟨values, h⟩
  · rw [h]; exact hrefl w
  · rw [h]; exact happly w _ hc.symm
  · rw [h]; exact hfold _ w fun d hd => command_of_mem_directives hd

/-- A command that neither opens nor closes a group leaves the frames under the top alone. -/
theorem sameBelow_outcome {c : Command} (hopen : c ≠ group) (hclose : c ≠ groupend) (line : Nat)
    (name : String) (words : List String) (w : Workspace α) :
    w.frames.SameBelow (c.outcome line name words w).2.frames :=
  outcome_induction (R := fun v w => v.frames.SameBelow w.frames) (fun w => .refl w.frames) .trans
    (fun w _ hd => Directive.sameBelow_apply w (hd ▸ hopen) (hd ▸ hclose)) line name words w

theorem outcome_group (line : Nat) (name : String) (words : List String) (w : Workspace α) :
    group.outcome line name words w = (.ok (), { w with frames := w.frames.openGroup }) := rfl

theorem outcome_groupend (line : Nat) (name : String) (words : List String) (w : Workspace α) :
    groupend.outcome line name words w =
      if w.frames.closeGroup?.isSome then (.ok (), { w with frames := w.frames.closeGroup })
      else (.error (.unmatchedGroupEnd line), w) := by
  simp only [outcome, read, kinds, readValues, Except.map, directives, List.findSome?_singleton,
    Directive.fault?]
  cases w.frames.closeGroup? <;> rfl

theorem frames_outcome_groupend (line : Nat) (name : String) (words : List String)
    (w : Workspace α) :
    (groupend.outcome line name words w).2.frames = w.frames.closeGroup := by
  rw [outcome_groupend]
  cases h : w.frames.closeGroup? with
  | none =>
    rw [Frames.closeGroup, h]
    rfl
  | some pair => rfl

theorem scene_outcome {c : Command} (h : c.writesScene = false) (line : Nat) (name : String)
    (words : List String) (w : Workspace α) : (c.outcome line name words w).2.scene = w.scene :=
  outcome_induction (R := fun v w => w.scene = v.scene) (fun _ => rfl) (fun h h' => h'.trans h)
    (fun w _ hd => Directive.scene_apply w (hd ▸ h)) line name words w

end Command

end SceneScript.Script
