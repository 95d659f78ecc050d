/-
The scene is only written to. What a line does to the scene is an addition: new values for some of
the settings, lights and objects behind those already there. Which addition it is, what comes of the
line and what it leaves of the frames is decided without looking at the scene (`readLine_effect`). So
two sessions that differ in their scenes alone go on alike, also when their scenes are changed from
outside between the lines (`calls_ignore_scene`).
-/
import Mathlib.Data.List.Forall2
import SceneScript.Proofs.Effect
namespace SceneScript.Script

open Space Number

variable {α : Type}

/-! ## Additions -/

/-- What can be added to a scene. A setting that is given takes the place of the one there was. -/
structure Addition (α : Type) where
  imageSize : Option Int32 := none
  cornerDistance : Option α := none
  background : Option (Vec3 α) := none
  ambient : Option (Vec3 α) := none
  lights : List (Light α) := []
  objects : List (SceneObject α) := []

namespace Addition

def addTo (a : Addition α) (scene : Scene α) : Scene α where
  imageSize := a.imageSize.getD scene.imageSize
  cornerDistance := a.cornerDistance.getD scene.cornerDistance
  background := a.background.getD scene.background
  ambient := a.ambient.getD scene.ambient
  lights := scene.lights ++ a.lights.toArray
  objects := scene.objects ++ a.objects.toArray

def andThen (a b : Addition α) : Addition α where
  imageSize := b.imageSize.or a.imageSize
  cornerDistance := b.cornerDistance.or a.cornerDistance
  background := b.background.or a.background
  ambient := b.ambient.or a.ambient
  lights := a.lights ++ b.lights
  objects := a.objects ++ b.objects

theorem nothing_addTo (scene : Scene α) : ({} : Addition α).addTo scene = scene := by
  simp [addTo]

theorem andThen_addTo (a b : Addition α) (scene : Scene α) :
    (a.andThen b).addTo scene = b.addTo (a.addTo scene) := by
  simp [addTo, andThen]

end Addition

/-! ## What only adds to the scene -/

/-- A change of workspaces that only adds to the scene: the addition and the new frames are the same
for every scene. -/
def Adds (f : Workspace α → Workspace α) : Prop :=
  ∀ frames, ∃ (frames' : Frames α) (a : Addition α), ∀ scene, f ⟨scene, frames⟩ = ⟨a.addTo scene, frames'⟩

theorem adds_id : Adds (id : Workspace α → Workspace α) :=
  fun frames => ⟨frames, {}, fun scene => by rw [Addition.nothing_addTo]; rfl⟩

theorem Adds.comp {f g : Workspace α → Workspace α} (hg : Adds g) (hf : Adds f) :
    Adds fun w => g (f w) := by
  intro frames
  obtain ⟨frames₁, a, ha⟩ := hf frames
  obtain ⟨frames₂, b, hb⟩ := hg frames₁
  refine ⟨frames₂, a.andThen b, fun scene => ?_⟩
  simp only [ha, hb, Addition.andThen_addTo]

def Directive.addition (frames : Frames α) : Directive α → Addition α
  | imageSize size => { imageSize := some size }
  | cornerDistance distance => { cornerDistance := some distance }
  | background color => { background := some color }
  | ambient color => { ambient := some color }
  | light l => { lights := [l] }
  | sphere => { objects := [.sphere ⟨frames.transform, frames.material⟩] }
  | _ => {}

section
variable [Scalar α]

theorem Directive.adds_apply (d : Directive α) : Adds fun w => d.apply w := by
  intro frames
  refine ⟨(d.apply ⟨Scene.empty, frames⟩).frames, d.addition frames, fun scene => ?_⟩
  cases d <;> simp [Directive.apply, Directive.addition, Addition.addTo, Scene.addLight, Scene.addObject]

theorem adds_foldl (ds : List (Directive α)) : Adds fun w => ds.foldl Directive.apply w := by
  induction ds with
  | nil => exact adds_id
  | cons d ds ih => exact ih.comp d.adds_apply

theorem Command.adds_begun (c : Command) (words : List String) :
    Adds fun w : Workspace α => c.begun words w := by
  unfold Command.begun
  split
  · split
    · exact Directive.adds_apply _
    · exact adds_id
  · exact adds_id

variable [FromWord α]

/-- What comes of a command does not depend on the scene, and it only adds to the scene. -/
theorem Command.outcome_adds (c : Command) (line : Nat) (name : String) (words : List String)
    (frames : Frames α) :
    ∃ (result : Except Fault Unit) (frames' : Frames α) (a : Addition α), ∀ scene,
      c.outcome line name words ⟨scene, frames⟩ = (result, ⟨a.addTo scene, frames'⟩) := by
  unfold Command.outcome
  cases (c.read words : Except Flaw (List (Directive α))) with
  | error flaw =>
    obtain ⟨frames', a, h⟩ := c.adds_begun words frames
    exact ⟨_, frames', a, fun scene => by rw [← h scene]⟩
  | ok ds =>
    cases hfault : ds.findSome? (Directive.fault? line frames) with
    | some fault =>
      refine ⟨.error fault, frames, {}, fun scene => ?_⟩
      simp only [hfault, Addition.nothing_addTo]
    | none =>
      obtain ⟨frames', a, h⟩ := adds_foldl ds frames
      refine ⟨.ok (), frames', a, fun scene => ?_⟩
      simp only [hfault]
      rw [← h scene]

end

/-! ## Sessions that differ in their scenes -/

/-- What a line does in a session, whatever the scene is. -/
structure LineEffect (α : Type) where
  result : Except Fault Unit
  log : List Message
  frames : Frames α
  addition : Addition α

/-- What came of a line in a session is the effect. -/
def LineEffect.Of (e : LineEffect α) (before : Session α) (report : LineReport α) : Prop :=
  report = ⟨e.result, { before with workspace := ⟨e.addition.addTo before.workspace.scene, e.frames⟩ }, e.log⟩

namespace Session

/-- Two sessions differ at most in their scenes. -/
structure Alike (s s' : Session α) : Prop where
  frames : s'.workspace.frames = s.workspace.frames
  vocabulary : s'.vocabulary = s.vocabulary
  policy : s'.policy = s.policy

theorem Alike.refl (s : Session α) : s.Alike s := ⟨rfl, rfl, rfl⟩

theorem Alike.trans {s s' s'' : Session α} (h : s.Alike s') (h' : s'.Alike s'') : s.Alike s'' :=
  ⟨h'.frames.trans h.frames, h'.vocabulary.trans h.vocabulary, h'.policy.trans h.policy⟩

theorem alike_modifyScene (s : Session α) (change : Scene α → Scene α) : s.Alike (s.modifyScene change) :=
  ⟨rfl, rfl, rfl⟩

theorem Alike.of_effect {s s' : Session α} (h : s.Alike s') {e : LineEffect α}
    {report report' : LineReport α} (he : e.Of s report) (he' : e.Of s' report') :
    report.session.Alike report'.session := by
  rw [he, he']
  exact ⟨rfl, h.vocabulary, h.policy⟩

section
variable [Scalar α] [FromWord α]

/-- A line has one effect in all sessions that differ in their scenes alone. -/
theorem readLine_effect {s : Session α} (hv : s.vocabulary.OfCommands) (number : Nat) (line : String) :
    ∃ e : LineEffect α, ∀ s', s.Alike s' → e.Of s' (s'.readLine number line) := by
  cases hs : statement? line with
  | none =>
    refine ⟨⟨.ok (), [], s.workspace.frames, {}⟩, fun s' h => ?_⟩
    rw [readLine_of_none hs, LineEffect.Of, Addition.nothing_addTo, ← h.frames]
  | some statement =>
    obtain ⟨word, words⟩ := statement
    cases hf : s.vocabulary.find? word with
    | none =>
      refine ⟨⟨.ok (), [.reading number (Text.trim line), .unknownCommand number word],
        s.workspace.frames, {}⟩, fun s' h => ?_⟩
      rw [readLine_of_unknown hs (h.vocabulary ▸ hf), LineEffect.Of, Addition.nothing_addTo, ← h.frames]
    | some action =>
      obtain ⟨c, rfl⟩ := hv word action hf
      obtain ⟨result, frames, a, ha⟩ := c.outcome_adds number word words s.workspace.frames
      refine ⟨⟨result, [.reading number (Text.trim line)], frames, a⟩, fun s' h => ?_⟩
      have houtcome := ha s'.workspace.scene
      rw [← h.frames] at houtcome
      rw [readLine_of_action hs (h.vocabulary ▸ hf), perform_action, LineEffect.Of]
      simp only
      rw [houtcome]

end

/-! ## Calls and changes from outside -/

/-- The messages of each call of a sequence. -/
def logs : Session α → List (Nat × String) → List (List Message)
  | _, [] => []
  | s, (number, line) :: calls =>
    (s.readLine number line).log :: (s.readLine number line).session.logs calls

end Session

/-- What can happen to a session: it is given a line, or its scene is changed from outside. -/
inductive Event (α : Type) where
  | call (number : Nat) (line : String)
  | edit (change : Scene α → Scene α)

def callsOf : List (Event α) → List (Nat × String)
  | [] => []
  | .call number line :: events => (number, line) :: callsOf events
  | .edit _ :: events => callsOf events

namespace Session

def afterEvents : Session α → List (Event α) → Session α
  | s, [] => s
  | s, .call number line :: events => (s.readLine number line).session.afterEvents events
  | s, .edit change :: events => (s.modifyScene change).afterEvents events

/-- Each call among some events: the session before it, and what came of it. -/
def history : Session α → List (Event α) → List (Session α × LineReport α)
  | _, [] => []
  | s, .call number line :: events =>
    (s, s.readLine number line) :: (s.readLine number line).session.history events
  | s, .edit change :: events => (s.modifyScene change).history events

variable [Scalar α] [FromWord α]

/-- Calls have the same effects in all sessions that differ in their scenes alone, whatever changes
are made to the scenes between them. -/
theorem history_effects : ∀ (calls : List (Nat × String)) {s : Session α}, s.vocabulary.OfCommands →
    ∃ (effects : List (LineEffect α)) (last : Session α), ∀ events s', s.Alike s' → callsOf events = calls →
      List.Forall₂ (fun e call => e.Of call.1 call.2) effects (s'.history events) ∧
        last.Alike (s'.afterEvents events)
  | [], s, _ => by
    -- only changes are left
    refine ⟨[], s, fun events => ?_⟩
    induction events with
    | nil => exact fun s' h _ => ⟨.nil, h⟩
    | cons event events ih =>
      intro s' h hcalls
      cases event with
      | call number line => cases hcalls
      | edit change => exact ih _ (h.trans (s'.alike_modifyScene change)) hcalls
  | (number, line) :: calls, s, hv => by
    obtain ⟨e, he⟩ := readLine_effect hv number line
    have hv' := ofCommands_readLine hv number line
    obtain ⟨effects, last, hlater⟩ := history_effects calls hv'
    refine ⟨e :: effects, last, fun events => ?_⟩
    -- changes come before the first call: through all of them the session stays like `s`
    induction events with
    | nil => exact fun s' h hcalls => by cases hcalls
    | cons event events ih =>
      intro s' h hcalls
      cases event with
      | call number' line' =>
        simp only [callsOf, List.cons.injEq, Prod.mk.injEq] at hcalls
        obtain ⟨⟨rfl, rfl⟩, hcalls⟩ := hcalls
        have hnext := h.of_effect (he s (.refl s)) (he s' h)
        obtain ⟨heffects, hlast⟩ := hlater events _ hnext hcalls
        exact ⟨.cons (he s' h) heffects, hlast⟩
      | edit change => exact ih _ (h.trans (s'.alike_modifyScene change)) hcalls

/-- Without changes from outside, what calls do to the scene in the end is one addition. -/
theorem after_addition : ∀ (calls : List (Nat × String)) {s : Session α}, s.vocabulary.OfCommands →
    ∃ (results : List (Except Fault Unit)) (logs : List (List Message)) (frames : Frames α)
      (a : Addition α), ∀ s', s.Alike s' → s'.results calls = results ∧ s'.logs calls = logs ∧
        (s'.after calls).workspace = ⟨a.addTo s'.workspace.scene, frames⟩
  | [], s, _ => by
    refine ⟨[], [], s.workspace.frames, {}, fun s' h => ⟨rfl, rfl, ?_⟩⟩
    rw [after_nil, Addition.nothing_addTo, ← h.frames]
  | (number, line) :: calls, s, hv => by
    obtain ⟨e, he⟩ := readLine_effect hv number line
    have hv' := ofCommands_readLine hv number line
    obtain ⟨results, logs, frames, a, hlater⟩ := after_addition calls hv'
    refine ⟨e.result :: results, e.log :: logs, frames, e.addition.andThen a, fun s' h => ?_⟩
    obtain ⟨hresults, hlogs, hworkspace⟩ := hlater _ (h.of_effect (he s (.refl s)) (he s' h))
    have heffect : s'.readLine number line = _ := he s' h
    simp only [Session.results, Session.logs, after_cons, hresults, hlogs, hworkspace]
    rw [heffect]
    exact ⟨rfl, rfl, by rw [Addition.andThen_addTo]⟩

/-- Calls take no notice of the scene. Two sessions that differ in their scenes alone answer every
call alike, with the same messages, and their frames stay the same; the same lights and objects come
to stand behind those already there, and a setting is left alone in both or gets the same value in
both. Changes made to the scenes between the calls make no difference: each call has the same effect,
on the scene that it finds. -/
theorem calls_ignore_scene {s s' : Session α} (hv : s.vocabulary.OfCommands) (h : s.Alike s') :
    (∀ calls : List (Nat × String),
      s'.results calls = s.results calls ∧ s'.logs calls = s.logs calls ∧
        (s'.after calls).workspace.frames = (s.after calls).workspace.frames ∧
        ∃ a : Addition α, (s.after calls).workspace.scene = a.addTo s.workspace.scene ∧
          (s'.after calls).workspace.scene = a.addTo s'.workspace.scene) ∧
    ∀ events events' : List (Event α), callsOf events = callsOf events' →
      ∃ effects : List (LineEffect α),
        List.Forall₂ (fun e call => e.Of call.1 call.2) effects (s.history events) ∧
          List.Forall₂ (fun e call => e.Of call.1 call.2) effects (s'.history events') ∧
          (s'.afterEvents events').workspace.frames = (s.afterEvents events).workspace.frames := by
  constructor
  · intro calls
    obtain ⟨results, logs, frames, a, hall⟩ := after_addition calls hv
    obtain ⟨hresults, hlogs, hworkspace⟩ := hall s (.refl s)
    obtain ⟨hresults', hlogs', hworkspace'⟩ := hall s' h
    rw [hresults, hresults', hlogs, hlogs', hworkspace, hworkspace']
    exact ⟨rfl, rfl, rfl, a, rfl, rfl⟩
  · intro events events' hcalls
    obtain ⟨effects, last, hall⟩ := history_effects (callsOf events) hv
    obtain ⟨heffects, hlast⟩ := hall events s (.refl s) rfl
    obtain ⟨heffects', hlast'⟩ := hall events' s' h hcalls.symm
    exact ⟨effects, heffects, heffects', hlast'.frames.trans hlast.frames.symm⟩

/-- A line that fails half-way and a sphere behind it, in an empty scene and in one that is changed
from outside. -/
theorem calls_ignore_scene_view :
    let s : Session Float := .start {}
    let s' := s.modifyScene fun scene => scene.addLight ⟨⟨1, 1, 1⟩, ⟨1, 1, 1⟩⟩
    let events := [Event.call 1 "view 4 x", .call 2 "move 1 0 0", .call 3 "sphere"]
    let events' := [Event.call 1 "view 4 x", .edit fun scene => { scene with imageSize := 7 },
      .call 2 "move 1 0 0", .call 3 "sphere", .edit fun _ => Scene.empty]
    s.vocabulary.OfCommands ∧ s.Alike s' ∧ callsOf events = callsOf events' ∧
      (∃ a : Addition Float, (s.after (callsOf events)).workspace.scene = a.addTo s.workspace.scene ∧
        (s'.after (callsOf events)).workspace.scene = a.addTo s'.workspace.scene) ∧
      ∃ effects : List (LineEffect Float), effects.length = 3 ∧
        List.Forall₂ (fun e call => e.Of call.1 call.2) effects (s.history events) ∧
          List.Forall₂ (fun e call => e.Of call.1 call.2) effects (s'.history events') := by
  intro s s' events events'
  have hv : s.vocabulary.OfCommands := Vocabulary.ofCommands_standard
  have halike : s.Alike s' := s.alike_modifyScene _
  obtain ⟨hcalls, hevents⟩ := calls_ignore_scene hv halike
  obtain ⟨-, -, -, hadded⟩ := hcalls (callsOf events)
  obtain ⟨effects, h, h', -⟩ := hevents events events' rfl
  exact ⟨hv, halike, rfl, hadded, effects, h.length_eq, h, h'⟩

end Session

end SceneScript.Script
