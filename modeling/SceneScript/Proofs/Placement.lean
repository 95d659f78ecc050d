/-
Placement is relative to what is around it. Multiplying every transform by one matrix from the left
commutes with all directives, because each step of a placement is multiplied on its right
(`placement_hides_nothing`). Frames under those that a script starts from are never looked at, as long as
no group is closed that the script has not opened (`commutes_onto`). Both are changes of the workspace that
a session can be seen through (`after_through`); so a block of lines gives the same objects wherever it stands,
but for the transform in front of them.
-/
import SceneScript.Proofs.Additions
import SceneScript.Proofs.Channels
import SceneScript.Proofs.Exact
namespace SceneScript.Script

open Space Number

variable {α : Type}

/-! ## Sessions seen through a change of workspaces -/

/-- Commands come to the same before and after a change of workspaces, where the outcome is allowed. -/
def Commutes [Scalar α] [FromWord α] (allowed : Except Fault Unit → Prop)
    (change : Workspace α → Workspace α) : Prop :=
  ∀ (c : Command) (line : Nat) (name : String) (words : List String) (w : Workspace α),
    allowed (c.outcome line name words w).1 → c.outcome line name words (change w) =
      ((c.outcome line name words w).1, change (c.outcome line name words w).2)

namespace Session

def through (change : Workspace α → Workspace α) (s : Session α) : Session α :=
  { s with workspace := change s.workspace }

variable [Scalar α] [FromWord α] {allowed : Except Fault Unit → Prop}
  {change : Workspace α → Workspace α}

theorem readLine_through (h : Commutes allowed change) {s : Session α} (hv : s.vocabulary.OfCommands)
    {number : Nat} {line : String} (hline : allowed (s.readLine number line).result) :
    (s.through change).readLine number line =
      ⟨(s.readLine number line).result, (s.readLine number line).session.through change,
        (s.readLine number line).log⟩ := by
  refine readLine_change (fun _ _ _ => rfl) fun word words action hs hf => ?_
  obtain ⟨c, rfl⟩ := hv word action hf
  rw [readLine_of_action hs hf, perform_action] at hline
  rw [perform_action, perform_action]
  simp only [through, h c number word words s.workspace hline]

theorem after_through (h : Commutes allowed change) : ∀ (calls : List (Nat × String)) {s : Session α},
    s.vocabulary.OfCommands → (∀ result ∈ s.results calls, allowed result) →
      (s.through change).results calls = s.results calls ∧ (s.through change).logs calls = s.logs calls ∧
        (s.through change).after calls = (s.after calls).through change
  | [], _, _, _ => ⟨rfl, rfl, rfl⟩
  | (number, line) :: calls, s, hv, hall => by
    rw [results, List.forall_mem_cons] at hall
    have hv' := ofCommands_readLine hv number line
    obtain ⟨hresults, hlogs, hafter⟩ := after_through h calls hv' hall.2
    simp only [results, logs, after_cons, readLine_through h hv hall.1, hresults, hlogs, hafter, and_self]

end Session

/-! ## Frames below -/

/-- More elements under those that there are. -/
def Stack.onto {β : Type} (more : List β) (s : Stack β) : Stack β := ⟨s.top, s.below ++ more⟩

theorem Stack.pop?_onto {β : Type} {s rest : Stack β} {top : β} (more : List β)
    (h : s.pop? = some (top, rest)) : (s.onto more).pop? = some (top, rest.onto more) := by
  obtain ⟨t, below⟩ := s
  cases below with
  | nil => cases h
  | cons b bs =>
    cases h
    rfl

def Frames.onto (transforms : List (Mat4 α)) (materials : List (Material α)) (f : Frames α) : Frames α :=
  ⟨f.transforms.onto transforms, f.materials.onto materials⟩

section
variable (transforms : List (Mat4 α)) (materials : List (Material α))

theorem Frames.closeGroup?_onto {f outer : Frames α} {pair : Mat4 α × Material α}
    (h : f.closeGroup? = some (pair, outer)) :
    (f.onto transforms materials).closeGroup? = some (pair, outer.onto transforms materials) := by
  unfold closeGroup? at h
  split at h
  · rename_i t ts m ms hts hms
    cases h
    simp only [closeGroup?, onto, Stack.pop?_onto _ hts, Stack.pop?_onto _ hms]
  · cases h

/-- Frames below are not noticed before a group is closed that was never opened. -/
theorem commutes_onto [Scalar α] [FromWord α] :
    Commutes (fun result => ∀ n, result ≠ .error (.unmatchedGroupEnd n))
      fun w : Workspace α => ⟨w.scene, w.frames.onto transforms materials⟩ := by
  intro c line name words w hallowed
  by_cases hc : c = .groupend
  · subst hc
    rw [Command.outcome_groupend] at hallowed ⊢
    rw [Command.outcome_groupend]
    cases hclose : w.frames.closeGroup? with
    | none =>
      rw [hclose] at hallowed
      exact absurd rfl (hallowed line)
    | some closed =>
      have honto := Frames.closeGroup?_onto transforms materials hclose
      simp only [honto, hclose, Option.isSome_some, if_true, Frames.closeGroup]
  · refine Command.outcome_comm (F := fun w => ⟨w.scene, w.frames.onto transforms materials⟩)
      (fun w d hd => fault?_of_command line _ _ (hd ▸ hc)) (fun w d hd => ?_) name words w
    cases d with
    | closeGroup => exact absurd hd.symm hc
    | _ => rfl

end

/-! ## Placing once more -/

/-- All transforms with one more in front of them. -/
def Frames.placed [Scalar α] (b : Mat4 α) (f : Frames α) : Frames α := f.map (b * ·) id

def Addition.placed [Scalar α] (b : Mat4 α) (a : Addition α) : Addition α :=
  { a with objects := a.objects.map (SceneObject.map (b * ·) id) }

/-- The same session, its frames placed once more. -/
def Session.placed [Scalar α] (b : Mat4 α) (s : Session α) : Session α :=
  s.through fun w => ⟨w.scene, w.frames.placed b⟩

theorem Addition.addTo_mapObjects [Scalar α] (b : Mat4 α) (a : Addition α) {scene : Scene α}
    (h : scene.objects = #[]) :
    (a.addTo scene).mapObjects (b * ·) id = (a.placed b).addTo scene := by
  simp [addTo, placed, Scene.mapObjects, h]

/-- What is added does not depend on the objects that are there. -/
theorem Addition.addTo_congr {a a' : Addition α} {scene : Scene α}
    (h : a.addTo { scene with objects := #[] } = a'.addTo { scene with objects := #[] }) :
    a.addTo scene = a'.addTo scene := by
  simp only [addTo, Scene.mk.injEq, Array.empty_append] at h ⊢
  obtain ⟨hsize, hdistance, hbackground, hambient, hlights, hobjects⟩ := h
  rw [hobjects]
  exact ⟨hsize, hdistance, hbackground, hambient, hlights, rfl⟩

variable [ExactScalar α]

/-- Another transform in front of all others interferes with nothing: steps are multiplied on the right. -/
theorem placement_hides_nothing (b : Mat4 α) :
    Hides (fun _ => false) (b * ·) (id : Material α → Material α) := by
  constructor
  · intro d w _
    cases d with
    | move offset =>
      simp only [Directive.apply, Workspace.map, Frames.map, Frames.modifyTransform, Stack.map,
        Stack.modifyTop, translate_mul]
    | scale factors =>
      simp only [Directive.apply, Workspace.map, Frames.map, Frames.modifyTransform, Stack.map,
        Stack.modifyTop, scale_mul]
    | rotate degrees axis =>
      simp only [Directive.apply, Workspace.map, Frames.map, Frames.modifyTransform, Stack.map,
        Stack.modifyTop, rotate?_mul, Option.getD_map]
    | _ => exact Directive.apply_map_transforms (b * ·) rfl w
  · intro d w hd
    cases hd

/-- Frames are those below, and on them the identity placed by the transform in force. -/
theorem Frames.placed_onto (f : Frames α) :
    ((ofPair Mat4.identity f.material).placed f.transform).onto f.transforms.below f.materials.below = f := by
  show Frames.mk ⟨f.transform * Mat4.identity, _⟩ ⟨_, _⟩ = f
  rw [Mat4.mul_identity]
  rfl

variable [FromWord α]

theorem commutes_placement (b : Mat4 α) : Commutes (fun _ => True) (Workspace.map (b * ·) id) :=
  fun _ line name words w _ => (placement_hides_nothing b).outcome rfl line name words w

namespace Session

/-- What calls add from frames that are placed once more is what they add without that, placed once
more. -/
theorem placed_addition {s : Session α} (hv : s.vocabulary.OfCommands) (b : Mat4 α)
    (calls : List (Nat × String)) :
    ∃ a : Addition α, (s.after calls).workspace.scene = a.addTo s.workspace.scene ∧
      ∀ t, (s.placed b).Alike t → t.results calls = s.results calls ∧ t.logs calls = s.logs calls ∧
        (t.after calls).workspace =
          ⟨(a.placed b).addTo t.workspace.scene, (s.after calls).workspace.frames.placed b⟩ := by
  obtain ⟨results, logs, frames, a, ha⟩ := after_addition calls hv
  obtain ⟨results', logs', frames', a', ha'⟩ := after_addition calls (s := s.placed b) hv
  obtain ⟨hresults, hlogs, hworkspace⟩ := ha s (.refl s)
  refine ⟨a, by rw [hworkspace], fun t ht => ?_⟩
  obtain ⟨htresults, htlogs, htworkspace⟩ := ha' t ht
  -- over a scene without objects the two runs are one and the same, seen through the placement
  let bare : Scene α := { t.workspace.scene with objects := #[] }
  let u := s.modifyScene fun _ => bare
  obtain ⟨huresults, hulogs, huworkspace⟩ := ha u (s.alike_modifyScene _)
  have hthrough : (s.placed b).Alike (u.through (Workspace.map (b * ·) id)) := ⟨rfl, rfl, rfl⟩
  obtain ⟨hplaced, hplacedLogs, hplacedWorkspace⟩ := ha' _ hthrough
  obtain ⟨hsame, hsameLogs, hsameAfter⟩ := after_through (commutes_placement b) calls (s := u) hv
    fun _ _ => trivial
  have hbare : (u.through (Workspace.map (b * ·) id)).workspace.scene = bare := by
    simp [through, u, modifyScene, Workspace.map, Scene.mapObjects, bare]
  rw [hsameAfter, hbare] at hplacedWorkspace
  have hadded : (⟨a'.addTo bare, frames'⟩ : Workspace α) = ⟨(a.placed b).addTo bare, frames.placed b⟩ := by
    calc (⟨a'.addTo bare, frames'⟩ : Workspace α)
        = (u.after calls).workspace.map (b * ·) id := hplacedWorkspace.symm
      _ = ⟨(a.addTo bare).mapObjects (b * ·) id, frames.placed b⟩ := by
        rw [huworkspace]
        rfl
      _ = ⟨(a.placed b).addTo bare, frames.placed b⟩ := by rw [Addition.addTo_mapObjects b a rfl]
  obtain ⟨hscene, rfl⟩ := Workspace.mk.inj hadded
  rw [htresults, htlogs, htworkspace, hresults, hlogs, hworkspace, ← hplaced, ← hplacedLogs, hsame,
    hsameLogs, huresults, hulogs, Addition.addTo_congr hscene]
  exact ⟨rfl, rfl, rfl⟩

/-- Calls place their objects relative to the frames that they find. With one transform in front of
every transform of the frames, each call comes to the same, with the same messages; in the end the
transform stands in front of every transform of the frames, and of every object that was added, and
nothing else is different. So the calls of a block that closes no group but its own add the same where
a transform is in force already as they add from the identity, their objects placed by that transform. -/
theorem calls_placed {s : Session α} (hv : s.vocabulary.OfCommands) (b : Mat4 α)
    (calls : List (Nat × String)) :
    ((s.placed b).results calls = s.results calls ∧ (s.placed b).logs calls = s.logs calls ∧
      ((s.placed b).after calls).workspace.frames = (s.after calls).workspace.frames.placed b ∧
      ∃ a : Addition α, (s.after calls).workspace.scene = a.addTo s.workspace.scene ∧
        ((s.placed b).after calls).workspace.scene = (a.placed b).addTo s.workspace.scene) ∧
    ∀ t : Session α, t.vocabulary = s.vocabulary → t.workspace.frames.transform = b →
      s.workspace.frames = .ofPair Mat4.identity t.workspace.frames.material →
      (∀ n, .error (.unmatchedGroupEnd n) ∉ s.results calls) →
      t.results calls = s.results calls ∧
        ∃ a : Addition α, (s.after calls).workspace.scene = a.addTo s.workspace.scene ∧
          (t.after calls).workspace.scene = (a.placed b).addTo t.workspace.scene := by
  obtain ⟨a, ha, hplaced⟩ := placed_addition hv b calls
  constructor
  · obtain ⟨hresults, hlogs, hworkspace⟩ := hplaced (s.placed b) (.refl _)
    refine ⟨hresults, hlogs, ?_, a, ha, ?_⟩
    · rw [hworkspace]
    · rw [hworkspace]
      rfl
  · intro t hvocabulary htransform hframes hclosed
    -- the session `t` is one with the frames of `s` placed by `b`, and the outer frames of `t` below
    let u : Session α := ⟨⟨t.workspace.scene, s.workspace.frames.placed b⟩, s.vocabulary, s.policy⟩
    obtain ⟨hresults, -, hworkspace⟩ := hplaced u ⟨rfl, rfl, rfl⟩
    let outer : Workspace α → Workspace α := fun w =>
      ⟨w.scene, w.frames.onto t.workspace.frames.transforms.below t.workspace.frames.materials.below⟩
    have hu : u.through outer = t.withPolicy s.policy := by
      simp only [u, through, outer, withPolicy, hframes, ← htransform, Frames.placed_onto, ← hvocabulary]
    have houter : Commutes (fun result => ∀ n, result ≠ .error (.unmatchedGroupEnd n)) outer :=
      commutes_onto _ _
    have hallowed : ∀ result ∈ u.results calls, ∀ n, result ≠ .error (.unmatchedGroupEnd n) := by
      rintro result hmem n rfl
      rw [hresults] at hmem
      exact hclosed n hmem
    obtain ⟨hsame, -, hafter⟩ := after_through houter calls (s := u) hv hallowed
    obtain ⟨hpolicy, hpolicyAfter⟩ := after_withPolicy s.policy calls t
    rw [hu, hpolicy] at hsame
    rw [hu, hpolicyAfter] at hafter
    refine ⟨hsame.trans hresults, a, ha, ?_⟩
    have hscene : (t.after calls).workspace.scene = (u.after calls).workspace.scene :=
      congrArg (fun session => session.workspace.scene) hafter
    rw [hscene, hworkspace]

/-- A group and a line that fails, from the identity and in a group that is turned by a right angle. -/
theorem calls_placed_turned :
    let s : Session ℚ := .start {}
    let b : Mat4 ℚ := (rotate? Mat4.identity (radians 90) ⟨0, 0, 2⟩).getD Mat4.identity
    let t := { s with workspace := ⟨s.workspace.scene, (s.workspace.frames.setTransform b).openGroup⟩ }
    let calls := [(1, "group"), (2, "move 1 0 0"), (3, "sphere"), (4, "groupend"), (5, "scale 1 x"),
      (6, "sphere")]
    s.vocabulary.OfCommands ∧ t.vocabulary = s.vocabulary ∧ t.workspace.frames.transform = b ∧
      s.workspace.frames = .ofPair Mat4.identity t.workspace.frames.material ∧
      (∀ n, .error (.unmatchedGroupEnd n) ∉ s.results calls) ∧
      ((s.placed b).after calls).workspace.frames = (s.after calls).workspace.frames.placed b ∧
      t.results calls = [.ok (), .ok (), .ok (), .ok (), .error (.notANumber 5 "scale" "x"), .ok ()] ∧
      (t.after calls).workspace.scene.objects.toList.map SceneObject.transform =
        [⟨⟨0, -1, 0, 0⟩, ⟨1, 0, 0, 1⟩, ⟨0, 0, 1, 0⟩, ⟨0, 0, 0, 1⟩⟩,
          ⟨⟨0, -1, 0, 0⟩, ⟨1, 0, 0, 0⟩, ⟨0, 0, 1, 0⟩, ⟨0, 0, 0, 1⟩⟩] ∧
      ∃ a : Addition ℚ, (s.after calls).workspace.scene = a.addTo s.workspace.scene ∧
        (t.after calls).workspace.scene = (a.placed b).addTo t.workspace.scene := by
  intro s b t calls
  have hv : s.vocabulary.OfCommands := Vocabulary.ofCommands_standard
  have hresults : s.results calls =
      [.ok (), .ok (), .ok (), .ok (), .error (.notANumber 5 "scale" "x"), .ok ()] := by
    decide +kernel
  have hclosed : ∀ n, .error (.unmatchedGroupEnd n) ∉ s.results calls := by
    intro n
    rw [hresults]
    simp
  obtain ⟨⟨-, -, hframes, -⟩, hblock⟩ := calls_placed hv b calls
  obtain ⟨hsame, hadded⟩ := hblock t rfl rfl rfl hclosed
  exact ⟨hv, rfl, rfl, rfl, hclosed, hframes, hsame.trans hresults, by decide +kernel, hadded⟩

end Session

end SceneScript.Script
