/-
Scripts by their blocks. A `group` and what stands between it and its `groupend`, or the end of
the script, is a block with siblings before and behind it. The meaning of siblings is a recursion
on them that hands on the transform and the material in force (`Forest.objects`); a block inherits
them and gives nothing back. What a script is carried out with, a stack of frames, comes to the
same (`objects_foldl`): every frame on the stack waits for the siblings behind one of the blocks
that are open.
-/
import SceneScript.Proofs.Effect
namespace SceneScript.Script

open Space Number

variable {α : Type}

/-! ## Blocks -/

/-- Siblings: directives and blocks, one after the other. -/
inductive Forest (α : Type) where
  | nil
  | leaf (directive : Directive α) (later : Forest α)
  | block (inside later : Forest α)

/-- The siblings up to the end of the block that they stand in, or up to the end of the script, and
the directives behind the block. -/
def siblings : (ds : List (Directive α)) →
    { pair : Forest α × List (Directive α) // pair.2.length ≤ ds.length }
  | [] => ⟨(.nil, []), Nat.le_refl _⟩
  | .closeGroup :: ds => ⟨(.nil, ds), Nat.le_succ _⟩
  | .openGroup :: ds =>
    let inside := siblings ds
    let later := siblings inside.val.2
    ⟨(.block inside.val.1 later.val.1, later.val.2),
      Nat.le_succ_of_le (Nat.le_trans later.property inside.property)⟩
  | d :: ds =>
    let later := siblings ds
    ⟨(.leaf d later.val.1, later.val.2), Nat.le_succ_of_le later.property⟩
termination_by ds => ds.length
decreasing_by
  · exact Nat.lt_succ_self _
  · exact Nat.lt_succ_of_le inside.property
  · exact Nat.lt_succ_self _

theorem siblings_nil : (siblings ([] : List (Directive α))).val = (.nil, []) := by
  rw [siblings]

theorem siblings_closeGroup (ds : List (Directive α)) :
    (siblings (.closeGroup :: ds)).val = (.nil, ds) := by
  rw [siblings]

theorem siblings_openGroup (ds : List (Directive α)) :
    (siblings (.openGroup :: ds)).val =
      (.block (siblings ds).val.1 (siblings (siblings ds).val.2).val.1,
        (siblings (siblings ds).val.2).val.2) := by
  rw [siblings]

theorem siblings_leaf {d : Directive α} (hopen : d ≠ .openGroup) (hclose : d ≠ .closeGroup)
    (ds : List (Directive α)) :
    (siblings (d :: ds)).val = (.leaf d (siblings ds).val.1, (siblings ds).val.2) := by
  rw [siblings]
  · exact hclose
  · exact hopen

def forest (ds : List (Directive α)) : Forest α := (siblings ds).val.1

structure Environment (α : Type) where
  transform : Mat4 α
  material : Material α

namespace Environment

variable [Scalar α]

/-- Nothing is moved, and the material is white, shiny to the degree five and refracts nothing. -/
def initial : Environment α where
  transform := Mat4.identity
  material :=
    { diffuse := ⟨1, 1, 1⟩, specular := ⟨1, 1, 1⟩, shininess := ((5 : Nat) : α), refraction := ⟨0, 0, 0⟩,
      refractiveIndex := 0 }

/-- The environment of the later siblings of a directive. -/
def after (e : Environment α) : Directive α → Environment α
  | .move offset => { e with transform := e.transform * translation offset }
  | .scale factors => { e with transform := e.transform * scaling factors }
  | .rotate degrees axis =>
    { e with transform := e.transform * rotation (axis.divide axis.norm) (radians degrees) }
  | .material m => { e with material := m }
  | .refraction color index =>
    { e with material := { e.material with refraction := color, refractiveIndex := index } }
  | _ => e

omit [Scalar α] in
/-- What a directive puts into the scene. -/
def placed (e : Environment α) : Directive α → List (SceneObject α)
  | .sphere => [.sphere ⟨e.transform, e.material⟩]
  | _ => []

end Environment

/-- The objects of siblings in an environment. -/
def Forest.objects [Scalar α] (e : Environment α) : Forest α → List (SceneObject α)
  | nil => []
  | leaf d later => e.placed d ++ later.objects (e.after d)
  | block inside later => inside.objects e ++ later.objects e

/-! ## Settings and lights -/

namespace Directive

def imageSize? : Directive α → Option Int32
  | imageSize size => some size
  | _ => none

def cornerDistance? : Directive α → Option α
  | cornerDistance distance => some distance
  | _ => none

def background? : Directive α → Option (Vec3 α)
  | background color => some color
  | _ => none

def ambient? : Directive α → Option (Vec3 α)
  | ambient color => some color
  | _ => none

def light? : Directive α → Option (Light α)
  | light l => some l
  | _ => none

end Directive

/-- What the last directive of a sort says, or `initial` without one. -/
def latest {γ : Type} (pick : Directive α → Option γ) (initial : γ) (ds : List (Directive α)) : γ :=
  (ds.filterMap pick).getLastD initial

/-- The scene that directives describe. -/
def sceneOf [Scalar α] (ds : List (Directive α)) : Scene α where
  imageSize := latest Directive.imageSize? 0 ds
  cornerDistance := latest Directive.cornerDistance? 0 ds
  background := latest Directive.background? ⟨0, 0, 0⟩ ds
  ambient := latest Directive.ambient? ⟨0, 0, 0⟩ ds
  lights := (ds.filterMap Directive.light?).toArray
  objects := ((forest ds).objects .initial).toArray

/-! ## Carrying directives out -/

section
variable [Scalar α]

/-- No directive is refused when all are carried out one after the other. -/
def Unrefused : Workspace α → List (Directive α) → Prop
  | _, [] => True
  | w, d :: ds => (∀ line, d.fault? line w.frames = none) ∧ Unrefused (d.apply w) ds

theorem unrefused_append {w : Workspace α} {ds later : List (Directive α)} (h : Unrefused w ds)
    (hlater : Unrefused (ds.foldl Directive.apply w) later) : Unrefused w (ds ++ later) := by
  induction ds generalizing w with
  | nil => exact hlater
  | cons d ds ih => exact ⟨h.1, ih h.2 hlater⟩

/-- A value of the workspace that some directives set, and no other changes, is what the last of
them says. -/
theorem get_foldl {γ : Type} (pick : Directive α → Option γ) (get : Workspace α → γ)
    (hget : ∀ w d, get (d.apply w) = (pick d).getD (get w)) (ds : List (Directive α))
    (w : Workspace α) : get (ds.foldl Directive.apply w) = latest pick (get w) ds := by
  induction ds generalizing w with
  | nil => rfl
  | cons d ds ih =>
    rw [List.foldl_cons, ih, hget, latest, latest]
    cases hd : pick d with
    | none => rw [List.filterMap_cons_none hd, Option.getD_none]
    | some c => rw [List.filterMap_cons_some hd, Option.getD_some, List.getLastD_cons]

theorem lights_foldl (ds : List (Directive α)) (w : Workspace α) :
    (ds.foldl Directive.apply w).scene.lights.toList =
      w.scene.lights.toList ++ ds.filterMap Directive.light? := by
  induction ds generalizing w with
  | nil => simp
  | cons d ds ih =>
    rw [List.foldl_cons, ih]
    cases d with
    | light l => simp [Directive.apply, Scene.addLight, Directive.light?]
    | _ => rfl

/-! ## Frames and the blocks that are open -/

omit [Scalar α] in
/-- The environments in the frames, the innermost first. -/
def Frames.environments (f : Frames α) : List (Environment α) :=
  f.transforms.toList.zipWith Environment.mk f.materials.toList

omit [Scalar α] in
theorem Frames.environments_of_closeGroup? {f outer : Frames α} {pair : Mat4 α × Material α}
    (h : f.closeGroup? = some (pair, outer)) :
    f.environments = ⟨f.transform, f.material⟩ :: outer.environments := by
  obtain ⟨⟨t, ts⟩, ⟨m, ms⟩⟩ := f
  cases ts with
  | nil => cases h
  | cons t' ts =>
    cases ms with
    | nil => cases h
    | cons m' ms =>
      cases h
      rfl

/-- What a directive that is not refused does to the environments and to the objects. -/
theorem apply_cases {w : Workspace α} {d : Directive α} (hd : ∀ line, d.fault? line w.frames = none) :
    ∃ e es, w.frames.environments = e :: es ∧
      (d = .openGroup ∧ (d.apply w).frames.environments = e :: e :: es ∧
          (d.apply w).scene.objects = w.scene.objects ∨
        d = .closeGroup ∧ (d.apply w).frames.environments = es ∧
          (d.apply w).scene.objects = w.scene.objects ∨
        (d ≠ .openGroup ∧ d ≠ .closeGroup) ∧ (d.apply w).frames.environments = e.after d :: es ∧
          (d.apply w).scene.objects.toList = w.scene.objects.toList ++ e.placed d) := by
  refine ⟨⟨w.frames.transform, w.frames.material⟩,
    w.frames.transforms.below.zipWith Environment.mk w.frames.materials.below, rfl, ?_⟩
  cases d with
  | openGroup => exact .inl ⟨rfl, rfl, rfl⟩
  | closeGroup =>
    have hsome : w.frames.closeGroup?.isSome = true := by
      have h := hd 0
      rw [Directive.fault?] at h
      split at h
      · assumption
      · cases h
    obtain ⟨⟨pair, outer⟩, houter⟩ := Option.isSome_iff_exists.1 hsome
    refine .inr (.inl ⟨rfl, ?_, rfl⟩)
    have hframes := List.tail_eq_of_cons_eq (Frames.environments_of_closeGroup? houter)
    simp only [Directive.apply, Frames.closeGroup, houter]
    exact hframes.symm
  | rotate degrees axis =>
    have haxis : hasDirection axis = true := by
      have h := hd 0
      rw [Directive.fault?] at h
      split at h
      · assumption
      · cases h
    refine .inr (.inr ⟨⟨by simp, by simp⟩, ?_, (List.append_nil _).symm⟩)
    show (w.frames.modifyTransform _).environments = _
    simp only [Frames.modifyTransform, Stack.modifyTop, Frames.environments, Stack.toList,
      List.zipWith_cons_cons, rotate?, haxis, ite_true, Option.getD_some]
    rfl
  | sphere =>
    refine .inr (.inr ⟨⟨by simp, by simp⟩, rfl, ?_⟩)
    simp [Directive.apply, Scene.addObject, Environment.placed]
  | _ => exact .inr (.inr ⟨⟨by simp, by simp⟩, rfl, (List.append_nil _).symm⟩)

/-- The objects to come: the innermost environment is that of the next siblings, each of the others
that of the siblings behind the block inside it. -/
def pending : List (Environment α) → List (Directive α) → List (SceneObject α)
  | [], _ => []
  | e :: es, ds => (siblings ds).val.1.objects e ++ pending es (siblings ds).val.2

/-- The directives behind the end of a number of blocks. -/
def behind : Nat → List (Directive α) → List (Directive α)
  | 0, ds => ds
  | n + 1, ds => behind n (siblings ds).val.2

omit [Scalar α] in
theorem behind_nil (n : Nat) : behind n ([] : List (Directive α)) = [] := by
  induction n with
  | zero => rfl
  | succ n ih => rw [behind, siblings_nil, ih]

theorem pending_nil (es : List (Environment α)) : pending es [] = [] := by
  induction es with
  | nil => rfl
  | cons e es ih => rw [pending, siblings_nil, ih]; rfl

/-- Carrying a directive out turns objects to come into objects of the scene, and nothing else; the
blocks that are open stay those that the frames wait for. -/
theorem pending_apply {w : Workspace α} {d : Directive α} (ds : List (Directive α))
    (hd : ∀ line, d.fault? line w.frames = none) :
    (d.apply w).scene.objects.toList ++ pending (d.apply w).frames.environments ds =
        w.scene.objects.toList ++ pending w.frames.environments (d :: ds) ∧
      behind (d.apply w).frames.environments.length ds =
        behind w.frames.environments.length (d :: ds) := by
  obtain ⟨e, es, hw, ⟨rfl, hafter, hobjects⟩ | ⟨rfl, hafter, hobjects⟩ |
    ⟨⟨hopen, hclose⟩, hafter, hobjects⟩⟩ := apply_cases hd
  · -- the innermost frame now waits for the siblings behind the new block
    rw [hw, hafter, hobjects]
    simp only [List.length_cons, pending, behind, siblings_openGroup, Forest.objects,
      List.append_assoc, and_self]
  · -- the innermost frame had no siblings left to wait for
    rw [hw, hafter, hobjects]
    simp only [List.length_cons, pending, behind, siblings_closeGroup, Forest.objects,
      List.nil_append, and_self]
  · rw [hw, hafter, hobjects]
    simp only [List.length_cons, pending, behind, siblings_leaf hopen hclose, Forest.objects,
      List.append_assoc, and_self]

/-- The objects of a run are those already there and those to come, and a run ends with no block
ended that was not open. -/
theorem objects_foldl {ds : List (Directive α)} {w : Workspace α} (h : Unrefused w ds) :
    (ds.foldl Directive.apply w).scene.objects.toList =
        w.scene.objects.toList ++ pending w.frames.environments ds ∧
      behind w.frames.environments.length ds = [] := by
  induction ds generalizing w with
  | nil =>
    rw [pending_nil, List.append_nil, behind_nil]
    exact ⟨rfl, rfl⟩
  | cons d ds ih =>
    obtain ⟨hobjects, hbehind⟩ := ih h.2
    obtain ⟨hpending, hopen⟩ := pending_apply ds h.1
    rw [List.foldl_cons, hobjects, hpending, ← hopen]
    exact ⟨rfl, hbehind⟩

/-- Directives that are all carried out from the start leave the scene that they describe, and none
of them stands behind the blocks. -/
theorem scene_foldl {ds : List (Directive α)} (h : Unrefused .initial ds) :
    (ds.foldl Directive.apply .initial).scene = sceneOf ds ∧ (siblings ds).val.2 = [] := by
  obtain ⟨hfold, hbehind⟩ := objects_foldl h
  refine ⟨?_, hbehind⟩
  have hobjects : (ds.foldl Directive.apply .initial).scene.objects.toList =
      (forest ds).objects .initial := by
    rw [hfold]
    show [] ++ ((forest ds).objects .initial ++ []) = _
    rw [List.append_nil, List.nil_append]
  have hlights := lights_foldl ds (.initial : Workspace α)
  have himageSize := get_foldl Directive.imageSize? (fun w => w.scene.imageSize)
    (fun _ d => by cases d <;> rfl) ds .initial
  have hcornerDistance := get_foldl Directive.cornerDistance? (fun w => w.scene.cornerDistance)
    (fun _ d => by cases d <;> rfl) ds .initial
  have hbackground := get_foldl Directive.background? (fun w => w.scene.background)
    (fun _ d => by cases d <;> rfl) ds .initial
  have hambient := get_foldl Directive.ambient? (fun w => w.scene.ambient)
    (fun _ d => by cases d <;> rfl) ds .initial
  rw [sceneOf, ← hobjects]
  generalize ds.foldl Directive.apply .initial = w at *
  obtain ⟨⟨imageSize, cornerDistance, background, ambient, ⟨lights⟩, ⟨objects⟩⟩, frames⟩ := w
  rw [Scene.mk.injEq]
  exact ⟨himageSize, hcornerDistance, hbackground, hambient, congrArg _ hlights, rfl⟩

end

/-! ## The directives of a script -/

variable [Scalar α] [FromWord α]

variable (α) in
/-- What a line asks for; nothing if it names no command or its arguments are flawed. -/
def asked (line : String) : List (Directive α) :=
  match command? line with
  | none => []
  | some (c, words) =>
    match (c.read words : Except Flaw (List (Directive α))) with
    | .ok ds => ds
    | .error _ => []

variable (α) in
/-- What the lines of a text ask for, in the order of the lines. -/
def askedBy (text : String) : List (Directive α) := (Text.lines text).flatMap (asked α)

omit [FromWord α] in
theorem unrefused_directives {c : Command} {values : List (Value α)} {line : Nat} {w : Workspace α}
    (h : (c.directives values).findSome? (Directive.fault? line w.frames) = none) :
    Unrefused w (c.directives values) := by
  rcases c.directives_cases values with hnone | ⟨d, -, hone⟩ | ⟨size, distance, -, htwo⟩
  · rw [hnone]
    trivial
  · rw [hone, List.findSome?_singleton] at h
    rw [hone]
    refine ⟨fun other => ?_, trivial⟩
    rw [← d.fault?_atLine other line, h]
    rfl
  · rw [htwo]
    exact ⟨fun _ => rfl, fun _ => rfl, trivial⟩

theorem outcome_of_ok {c : Command} {line : Nat} {name : String} {words : List String}
    {w : Workspace α} (h : (c.outcome line name words w).1 = .ok ()) :
    ∃ ds, c.read words = .ok ds ∧ Unrefused w ds ∧
      (c.outcome line name words w).2 = ds.foldl Directive.apply w := by
  unfold Command.outcome Command.read at h ⊢
  cases hvalues : (readValues 0 c.kinds words : Except Flaw (List (Value α))) with
  | error flaw =>
    rw [hvalues] at h
    cases h
  | ok values =>
    rw [hvalues] at h
    simp only [Except.map] at h ⊢
    refine ⟨_, rfl, ?_⟩
    cases hfault : (c.directives values).findSome? (Directive.fault? line w.frames) with
    | some fault =>
      rw [hfault] at h
      cases h
    | none => exact ⟨unrefused_directives hfault, rfl⟩

namespace Session

/-- A line that succeeds has carried out what it asks for. -/
theorem readLine_of_ok {s : Session α} (hv : s.vocabulary = .standard) {number : Nat} {line : String}
    (h : (s.readLine number line).result = .ok ()) :
    Unrefused s.workspace (asked α line) ∧
      (s.readLine number line).session.workspace =
        (asked α line).foldl Directive.apply s.workspace := by
  have hline := readLine_standard hv number line
  unfold asked
  cases hc : command? line with
  | none =>
    rw [hc] at hline
    rw [hline.2]
    exact ⟨trivial, rfl⟩
  | some command =>
    obtain ⟨c, words⟩ := command
    rw [hc] at hline
    simp only at hline
    rw [hline] at h ⊢
    obtain ⟨ds, hread, hunrefused, hworkspace⟩ := outcome_of_ok h
    simp only [hread]
    exact ⟨hunrefused, hworkspace⟩

/-- A run that ends with a scene has carried out what its lines ask for, one after the other. -/
theorem runFrom_of_result_ok {scene : Scene α} : ∀ {number : Nat} {s : Session α} {lines : List String},
    s.vocabulary = .standard → (s.runFrom number (lines.map .ok)).result = .ok scene →
      Unrefused s.workspace (lines.flatMap (asked α)) ∧
        ((lines.flatMap (asked α)).foldl Directive.apply s.workspace).scene = scene
  | number, s, [], hv, h => by
    refine ⟨trivial, ?_⟩
    rw [List.map_nil, runFrom_nil, close] at h
    split at h
    · exact Except.ok.inj h
    · split at h
      · cases h
      · exact Except.ok.inj h
  | number, s, line :: lines, hv, h => by
    have hkeeps := (readLine_keeps (s := s) number line).1
    have hline : (s.readLine number line).result = .ok () → _ := readLine_of_ok hv
    cases hreport : s.readLine number line with
    | mk result session log =>
    rw [hreport] at hkeeps hline
    rw [List.map_cons] at h
    cases result with
    | error fault =>
      rw [runFrom_of_error hreport] at h
      cases h
    | ok =>
      rw [runFrom_of_ok hreport] at h
      obtain ⟨hunrefused, hworkspace⟩ := hline rfl
      obtain ⟨hlater, hscene⟩ := runFrom_of_result_ok (hkeeps.trans hv) h
      rw [hworkspace] at hlater hscene
      rw [List.flatMap_cons, List.foldl_append]
      exact ⟨unrefused_append hunrefused hlater, hscene⟩

end Session

/-- A text that is accepted is read as the scene that its blocks describe, and every line of it
belongs to its blocks. -/
theorem readText_scene {policy : Policy} {text : String} {scene : Scene α}
    (h : (readText policy text).result = .ok scene) :
    scene = sceneOf (askedBy α text) ∧ (siblings (askedBy α text)).val.2 = [] := by
  obtain ⟨hunrefused, rfl⟩ := Session.runFrom_of_result_ok (s := Session.start policy) rfl h
  exact scene_foldl hunrefused

/-- A block in a block that is left open. -/
theorem readText_scene_leftOpen :
    let text := "view 4 2\n# two frames\ngroup\nmove 1 0 0\ngroup\nscale 2 2 2\nrefraction 1 1 1 1.5\n" ++
      "sphere\ngroupend\nsphere\n\nlight 1 1 1 0 5 0"
    ∃ scene : Scene Float, (readText {} text).result = .ok scene ∧ scene.objects.size = 2 ∧
      scene = sceneOf (askedBy Float text) ∧ (siblings (askedBy Float text)).val.2 = [] := by
  intro text
  have hsize : (readText {} text : Report Float).result.toOption.map
      (fun scene => scene.objects.size) = some 2 := by
    decide +kernel
  cases h : (readText {} text : Report Float).result with
  | error fault =>
    rw [h] at hsize
    cases hsize
  | ok scene =>
    rw [h] at hsize
    exact ⟨scene, rfl, Option.some.inj hsize, readText_scene h⟩

end SceneScript.Script
