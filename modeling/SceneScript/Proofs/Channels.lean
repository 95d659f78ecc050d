/-
Transforms and materials are two channels that never meet. Replacing every transform, or every
material, by a value of choice commutes with all directives but those that set a transform, or a
material, and hides these (`Hides`). So a run without the lines that set materials is the run with
them seen through that replacement (`follow_filter`), and likewise for transforms: leaving out the
lines of one channel changes nothing in the other. Directives of different channels commute
(`apply_comm`), and so do their lines.
-/
import SceneScript.Proofs.Bytes
import SceneScript.Proofs.Effect
import SceneScript.Proofs.Layout
namespace SceneScript

open Space

/-! ## Replacing transforms and materials -/

def SceneObject.map {α : Type} (f : Mat4 α → Mat4 α) (g : Material α → Material α) :
    SceneObject α → SceneObject α
  | .sphere s => .sphere ⟨f s.transform, g s.material⟩

/-- The scene with the transforms of its objects replaced by `f` and their materials by `g`. -/
def Scene.mapObjects {α : Type} (f : Mat4 α → Mat4 α) (g : Material α → Material α) (scene : Scene α) :
    Scene α :=
  { scene with objects := scene.objects.map (SceneObject.map f g) }

end SceneScript

namespace SceneScript.Script

open Space Number

variable {α : Type}

/-- The frames with their transforms replaced by `f` and their materials by `g`. -/
def Frames.map (f : Mat4 α → Mat4 α) (g : Material α → Material α) (frames : Frames α) : Frames α :=
  ⟨frames.transforms.map f, frames.materials.map g⟩

def Workspace.map (f : Mat4 α → Mat4 α) (g : Material α → Material α) (w : Workspace α) : Workspace α :=
  ⟨w.scene.mapObjects f g, w.frames.map f g⟩

section
variable (f : Mat4 α → Mat4 α) (g : Material α → Material α)

theorem Frames.openGroups_map (frames : Frames α) : (frames.map f g).openGroups = frames.openGroups := by
  simp [Frames.map, openGroups, depth]

theorem Frames.closeGroup?_map (frames : Frames α) :
    (frames.map f g).closeGroup? =
      frames.closeGroup?.map fun closed => ((f closed.1.1, g closed.1.2), closed.2.map f g) := by
  simp only [closeGroup?, Frames.map, Stack.pop?_map]
  cases frames.transforms.pop? with
  | none => rfl
  | some t => cases frames.materials.pop? <;> rfl

theorem Frames.closeGroup_map (frames : Frames α) :
    (frames.map f g).closeGroup = frames.closeGroup.map f g := by
  rw [closeGroup, closeGroup, closeGroup?_map]
  cases frames.closeGroup? <;> rfl

variable [Scalar α]

/-- Which directives are refused does not depend on the transforms and materials. -/
theorem Directive.fault?_map (line : Nat) (frames : Frames α) (d : Directive α) :
    d.fault? line (frames.map f g) = d.fault? line frames := by
  cases d with
  | closeGroup => simp [fault?, Frames.closeGroup?_map]
  | _ => rfl

end

/-! ## The two channels -/

namespace Command

def setsTransform : Command → Bool
  | move | scale | rotate => true
  | _ => false

def setsMaterial : Command → Bool
  | material | refraction => true
  | _ => false

end Command

section
variable [Scalar α]

/-- A directive that sets neither a transform nor a material only hands them on. -/
theorem Directive.apply_map (f : Mat4 α → Mat4 α) (g : Material α → Material α) {d : Directive α}
    (ht : d.command.setsTransform = false) (hm : d.command.setsMaterial = false) (w : Workspace α) :
    (d.apply w).map f g = d.apply (w.map f g) := by
  cases d with
  | move | scale | rotate => cases ht
  | material | refraction => cases hm
  | closeGroup => simp only [apply, Workspace.map, Frames.closeGroup_map]
  | sphere => simp [apply, Workspace.map, Scene.mapObjects, Scene.addObject, Frames.map,
      SceneObject.map, Frames.transform, Frames.material, Stack.map]
  | _ => rfl

theorem Directive.apply_map_transforms (f : Mat4 α → Mat4 α) {d : Directive α}
    (ht : d.command.setsTransform = false) (w : Workspace α) :
    (d.apply w).map f id = d.apply (w.map f id) := by
  cases d with
  | material | refraction =>
    simp [apply, Workspace.map, Frames.map, Frames.setMaterial, Frames.modifyMaterial, Stack.map_id]
  | _ => exact apply_map f id ht rfl w

theorem Directive.apply_map_materials (g : Material α → Material α) {d : Directive α}
    (hm : d.command.setsMaterial = false) (w : Workspace α) :
    (d.apply w).map id g = d.apply (w.map id g) := by
  cases d with
  | move | scale | rotate =>
    simp [apply, Workspace.map, Frames.map, Frames.modifyTransform, Stack.map_id]
  | _ => exact apply_map id g rfl hm w

/-- A replacement hides some commands, and does not interfere with the others. -/
structure Hides (dropped : Command → Bool) (f : Mat4 α → Mat4 α) (g : Material α → Material α) : Prop where
  keeps : ∀ (d : Directive α) w, dropped d.command = false → (d.apply w).map f g = d.apply (w.map f g)
  drops : ∀ (d : Directive α) w, dropped d.command = true → (d.apply w).map f g = w.map f g

theorem hides_materials (m : Material α) : Hides Command.setsMaterial id fun _ => m := by
  constructor
  · exact fun d w hd => d.apply_map_materials _ hd w
  · intro d w hd
    cases d with
    | material | refraction => rfl
    | _ => cases hd

theorem hides_transforms (t : Mat4 α) : Hides Command.setsTransform (fun _ => t) id := by
  constructor
  · exact fun d w hd => d.apply_map_transforms _ hd w
  · intro d w hd
    cases d with
    | move | scale | rotate => rfl
    | _ => cases hd

/-! ## Leaving out what is hidden -/

variable {dropped : Command → Bool} {f : Mat4 α → Mat4 α} {g : Material α → Material α} [FromWord α]

/-- A command that is not hidden comes to the same with the replacement made before or after it. -/
theorem Hides.outcome (h : Hides dropped f g) {c : Command} (hc : dropped c = false) (line : Nat)
    (name : String) (words : List String) (w : Workspace α) :
    c.outcome line name words (w.map f g) =
      ((c.outcome line name words w).1, (c.outcome line name words w).2.map f g) :=
  Command.outcome_comm (F := Workspace.map f g)
    (fun w d _ => Directive.fault?_map f g line w.frames d)
    (fun w d hd => (h.keeps d w (hd ▸ hc)).symm) name words w

/-- A hidden command leaves no trace. -/
theorem Hides.outcome_dropped (h : Hides dropped f g) {c : Command} (hc : dropped c = true) (line : Nat)
    (name : String) (words : List String) (w : Workspace α) :
    (c.outcome line name words w).2.map f g = w.map f g :=
  Command.outcome_induction (R := fun v w => w.map f g = v.map f g) (fun _ => rfl)
    (fun huv hvw => hvw.trans huv) (fun w d hd => h.drops d w (hd ▸ hc)) line name words w

/-- The statement's word names one of the commands. -/
def Names (commands : Command → Bool) (statement : Statement) : Bool :=
  (Command.ofName? statement.1).any commands

namespace Session

omit [Scalar α] [FromWord α] in
variable (f g) in
def map (s : Session α) : Session α := { s with workspace := s.workspace.map f g }

theorem obey_map (h : Hides dropped f g) {s : Session α} (hv : s.vocabulary = .standard)
    {statement : Statement} (hn : Names dropped statement = false) :
    (s.map f g).obey statement = ((s.obey statement).1, (s.obey statement).2.map f g) := by
  cases hc : Command.ofName? statement.1 with
  | none =>
    rw [obey_unknown hv hc, obey_unknown (s := s.map f g) hv hc]
  | some c =>
    rw [Names, hc, Option.any_some] at hn
    rw [obey_standard hv hc, obey_standard (s := s.map f g) hv hc]
    simp only [map, h.outcome hn]

theorem obey_dropped (h : Hides dropped f g) {s : Session α} (hv : s.vocabulary = .standard)
    {statement : Statement} (hn : Names dropped statement = true) :
    (s.obey statement).2.map f g = s.map f g := by
  cases hc : Command.ofName? statement.1 with
  | none =>
    rw [obey_unknown hv hc]
  | some c =>
    rw [Names, hc, Option.any_some] at hn
    rw [obey_standard hv hc]
    simp only [map, h.outcome_dropped hn]

/-- Leaving out the statements that are hidden comes to the same behind the replacement. -/
theorem follow_filter (h : Hides dropped f g) : ∀ {statements : List Statement} {s last : Session α},
    s.vocabulary = .standard → s.follow statements = .ok last →
      (s.map f g).follow (statements.filter fun st => !Names dropped st) = .ok (last.map f g)
  | [], s, last, _, hfollow => by
    cases hfollow
    rfl
  | statement :: later, s, last, hv, hfollow => by
    obtain ⟨session, hobey, hlater⟩ := follow_cons_eq_ok_iff.1 hfollow
    have ih := follow_filter h ((vocabulary_of_obey hobey).trans hv) hlater
    rw [List.filter_cons]
    cases hn : Names dropped statement with
    | true =>
      -- what it did is not seen behind the replacement
      have hdropped := obey_dropped h hv hn
      rw [hobey] at hdropped
      rw [← hdropped]
      exact ih
    | false =>
      have hmap := obey_map h hv hn
      rw [hobey] at hmap
      exact follow_cons_eq_ok_iff.2 ⟨session.map f g, hmap, ih⟩

omit [Scalar α] [FromWord α] in
theorem close_map {s : Session α} {scene : Scene α} (h : s.close.result = .ok scene) :
    (s.map f g).close.result = .ok (scene.mapObjects f g) := by
  have hopen : (s.map f g).workspace.frames.openGroups = s.workspace.frames.openGroups :=
    s.workspace.frames.openGroups_map f g
  unfold close at h ⊢
  simp only [hopen] at h ⊢
  split at h
  · rename_i hzero
    cases h
    rw [if_pos hzero]
    rfl
  · rename_i hzero
    rw [if_neg hzero]
    split at h
    · cases h
    · rename_i hstrict
      cases h
      rw [if_neg (show ¬(s.map f g).policy.strictGroups = true from hstrict)]
      rfl

end Session

/-! ## Blanking lines -/

/-- The line asks for one of the commands. -/
def AsksFor (commands : Command → Bool) (line : String) : Bool :=
  (statement? line).any (Names commands)

/-- The text with an empty line in place of each line that asks for one of the commands. -/
def blank (commands : Command → Bool) (text : String) : String :=
  String.ofList (List.intercalate ['\n'] ((text.toList.splitOn '\n').map fun line =>
    if AsksFor commands (String.ofList line) then [] else line))

example : blank Command.setsMaterial "group\n material 1 2\r\n\nmove 1 0 0\nrefraction" =
    "group\n\n\nmove 1 0 0\n" := by
  decide +kernel

end

section
variable (commands : Command → Bool)

/-- The statements of a text, character by character. -/
theorem statementsOf_ofList (cs : List Char) :
    statementsOf (String.ofList cs) =
      (Text.cut '\n' '\r' cs).filterMap fun line => statement? (String.ofList line) := by
  rw [statementsOf, Text.lines, String.toList_ofList, List.filterMap_map]
  rfl

theorem statementsOf_line {line : List Char} (h : '\n' ∉ line) :
    statementsOf (String.ofList line) = (statement? (String.ofList line)).toList := by
  rw [statementsOf_ofList]
  by_cases hne : line = []
  · subst hne
    rfl
  · rw [Text.cut_of_not_mem h hne]
    cases hs : statement? (String.ofList line) <;> simp [hs]

theorem statementsOf_feed {line : List Char} (h : '\n' ∉ line) (rest : List Char) :
    statementsOf (String.ofList (line ++ '\n' :: rest)) =
      (statement? (String.ofList line)).toList ++ statementsOf (String.ofList rest) := by
  rw [statementsOf_ofList, statementsOf_ofList, Text.cut_feed h]
  have hline := statement?_of_words (Text.words_dropReturn line)
  rw [List.filterMap_cons, hline]
  cases statement? (String.ofList line) <;> rfl

/-- What a line says after it has been blanked, or not. -/
theorem statement?_blanked (line : List Char) :
    (statement? (String.ofList (if AsksFor commands (String.ofList line) then [] else line))).toList =
      (statement? (String.ofList line)).toList.filter fun st => !Names commands st := by
  unfold AsksFor
  cases hs : statement? (String.ofList line) with
  | none => simp [hs]
  | some statement =>
    cases hn : Names commands statement with
    | true =>
      have hempty : statement? (String.ofList []) = none := rfl
      simp [hn, hempty]
    | false => simp [hn, hs]

/-- Blanking lines leaves out their statements and no others. -/
theorem statementsOf_blank (text : String) :
    statementsOf (blank commands text) = (statementsOf text).filter fun st => !Names commands st := by
  rw [blank, ← String.ofList_toList (s := text)]
  generalize text.toList = cs
  rw [String.toList_ofList]
  have hfeed : ∀ line : List Char, '\n' ∉ line →
      '\n' ∉ if AsksFor commands (String.ofList line) then [] else line := by
    intro line hline
    split
    · exact List.not_mem_nil
    · exact hline
  -- a line that was blanked still ends where it did
  induction cs using Text.feed_induction '\n' with
  | last w hw =>
    rw [List.splitOn_eq_singleton hw, List.map_singleton, List.intercalate_singleton,
      statementsOf_line (hfeed w hw), statementsOf_line hw, statement?_blanked]
  | line w rest hw ih =>
    rw [List.splitOn_append_cons_self_of_not_mem hw, List.map_cons,
      List.intercalate_cons_of_ne_nil (by simp [List.splitOn_ne_nil]), List.append_assoc,
      List.singleton_append, statementsOf_feed (hfeed w hw), statementsOf_feed hw, ih,
      List.filter_append, statement?_blanked]

end

/-! ## Lines of different channels -/

section
variable [Scalar α]

theorem apply_comm {d e : Directive α} (hd : d.command.setsTransform = true)
    (he : e.command.setsMaterial = true) (w : Workspace α) :
    d.apply (e.apply w) = e.apply (d.apply w) := by
  cases d with
  | move | scale | rotate =>
    cases e with
    | material | refraction => rfl
    | _ => cases he
  | _ => cases hd

theorem apply_foldl_comm {d : Directive α} (hd : d.command.setsTransform = true)
    {es : List (Directive α)} (hes : ∀ e ∈ es, e.command.setsMaterial = true) (w : Workspace α) :
    d.apply (es.foldl Directive.apply w) = es.foldl Directive.apply (d.apply w) := by
  induction es generalizing w with
  | nil => rfl
  | cons e es ih =>
    rw [List.foldl_cons, List.foldl_cons, ih fun e' he' => hes e' (by simp [he']),
      apply_comm hd (hes e (by simp))]

theorem foldl_comm {ds es : List (Directive α)} (hds : ∀ d ∈ ds, d.command.setsTransform = true)
    (hes : ∀ e ∈ es, e.command.setsMaterial = true) (w : Workspace α) :
    ds.foldl Directive.apply (es.foldl Directive.apply w) =
      es.foldl Directive.apply (ds.foldl Directive.apply w) := by
  induction ds generalizing w with
  | nil => rfl
  | cons d ds ih =>
    rw [List.foldl_cons, List.foldl_cons, apply_foldl_comm (hds d (by simp)) hes,
      ih fun d' hd' => hds d' (by simp [hd'])]

variable [FromWord α]

omit [FromWord α] in
theorem fault?_of_command (line : Nat) (frames frames' : Frames α) {d : Directive α}
    (hd : d.command ≠ .groupend) : d.fault? line frames = d.fault? line frames' := by
  cases d with
  | closeGroup => exact absurd rfl hd
  | _ => rfl

/-- A command other than `groupend` does the same in every workspace: it always fails, or it always
carries out the same directives. -/
theorem outcome_uniform {c : Command} (hc : c ≠ .groupend) (line : Nat) (name : String)
    (words : List String) :
    (∀ w : Workspace α, (c.outcome line name words w).1 ≠ .ok ()) ∨
      ∃ ds : List (Directive α), (∀ d ∈ ds, d.command = c) ∧
        ∀ w, c.outcome line name words w = (.ok (), ds.foldl Directive.apply w) := by
  unfold Command.outcome Command.read
  cases (readValues 0 c.kinds words : Except Flaw (List (Value α))) with
  | error flaw => exact .inl fun w => by simp [Except.map]
  | ok values =>
    -- no directive but that of `groupend` looks at the frames before it is carried out
    have hfault : ∀ frames : Frames α, (c.directives values).findSome? (Directive.fault? line frames) =
        (c.directives values).findSome? (Directive.fault? line Frames.initial) :=
      fun frames => Command.findSome?_fault?_congr values fun d hd =>
        fault?_of_command line frames Frames.initial (hd ▸ hc)
    simp only [Except.map, hfault]
    cases (c.directives values).findSome? (Directive.fault? line (Frames.initial : Frames α)) with
    | some fault => exact .inl fun w => by simp
    | none => exact .inr ⟨_, fun d hd => Command.command_of_mem_directives hd, fun w => rfl⟩

namespace Session

omit [FromWord α] in
/-- The session after some directives. -/
def carry (ds : List (Directive α)) (s : Session α) : Session α :=
  { s with workspace := ds.foldl Directive.apply s.workspace }

theorem obey_uniform {statement : Statement} {c : Command}
    (hname : Command.ofName? statement.1 = some c) (hc : c ≠ .groupend) :
    (∀ s : Session α, s.vocabulary = .standard → (s.obey statement).1 ≠ .ok ()) ∨
      ∃ ds : List (Directive α), (∀ d ∈ ds, d.command = c) ∧
        ∀ s : Session α, s.vocabulary = .standard → s.obey statement = (.ok (), s.carry ds) := by
  rcases outcome_uniform (α := α) hc 0 statement.1 statement.2 with hfail | ⟨ds, hds, hok⟩
  · refine .inl fun s hv => ?_
    rw [obey_standard hv hname]
    exact hfail s.workspace
  · refine .inr ⟨ds, hds, fun s hv => ?_⟩
    rw [obey_standard hv hname, hok]
    rfl

/-- A row cannot be followed to its end with a statement in it that always fails. -/
theorem follow_ne_ok {a : Statement}
    (hfail : ∀ s : Session α, s.vocabulary = .standard → (s.obey a).1 ≠ .ok ()) :
    ∀ {statements : List Statement} {s last : Session α}, s.vocabulary = .standard → a ∈ statements →
      s.follow statements ≠ .ok last
  | statement :: later, s, last, hv, hmem => by
    intro h
    obtain ⟨session, hobey, hlater⟩ := follow_cons_eq_ok_iff.1 h
    rcases List.mem_cons.1 hmem with rfl | hmem
    · exact hfail s hv (by rw [hobey])
    · exact follow_ne_ok hfail ((vocabulary_of_obey hobey).trans hv) hmem hlater

/-- Two statements of different channels can change places. -/
theorem follow_swap {s last : Session α} (hv : s.vocabulary = .standard) {a b : Statement}
    (ha : Names Command.setsTransform a = true) (hb : Names Command.setsMaterial b = true) :
    s.follow [a, b] = .ok last ↔ s.follow [b, a] = .ok last := by
  obtain ⟨c, hc, hset⟩ := (Option.any_eq_true _ _).1 ha
  obtain ⟨e, he, hset'⟩ := (Option.any_eq_true _ _).1 hb
  rcases obey_uniform (α := α) hc (by rintro rfl; cases hset) with hfail | ⟨ds, hds, hok⟩
  · exact iff_of_false (follow_ne_ok hfail hv (by simp)) (follow_ne_ok hfail hv (by simp))
  rcases obey_uniform (α := α) he (by rintro rfl; cases hset') with hfail | ⟨es, hes, hok'⟩
  · exact iff_of_false (follow_ne_ok hfail hv (by simp)) (follow_ne_ok hfail hv (by simp))
  -- both are carried out, in either order
  have hab : s.follow [a, b] = .ok ((s.carry ds).carry es) :=
    follow_pair_eq_ok_iff.2 ⟨s.carry ds, hok s hv, hok' (s.carry ds) hv⟩
  have hba : s.follow [b, a] = .ok ((s.carry es).carry ds) :=
    follow_pair_eq_ok_iff.2 ⟨s.carry es, hok' s hv, hok (s.carry es) hv⟩
  have hcomm : (s.carry es).carry ds = (s.carry ds).carry es := by
    have hds' : ∀ d ∈ ds, d.command.setsTransform = true := fun d hd => by rw [hds d hd, hset]
    have hes' : ∀ d ∈ es, d.command.setsMaterial = true := fun d hd => by rw [hes d hd, hset']
    have hw := foldl_comm hds' hes' s.workspace
    simp only [carry, hw]
  rw [hab, hba, hcomm]

theorem follow_swap_within {s last : Session α} (hv : s.vocabulary = .standard) {a b : Statement}
    (hab : ∀ t u : Session α, t.vocabulary = .standard → (t.follow [a, b] = .ok u ↔ t.follow [b, a] = .ok u))
    (before after : List Statement) :
    s.follow (before ++ a :: b :: after) = .ok last ↔ s.follow (before ++ b :: a :: after) = .ok last := by
  have hsplit : ∀ (x y : Statement) (t : Session α),
      t.follow (x :: y :: after) = .ok last ↔
        ∃ u, t.follow [x, y] = .ok u ∧ u.follow after = .ok last := by
    intro x y t
    have h : t.follow ([x, y] ++ after) = .ok last ↔ _ := follow_append_eq_ok_iff
    exact h
  rw [follow_append_eq_ok_iff, follow_append_eq_ok_iff]
  refine exists_congr fun t => and_congr_right fun hbefore => ?_
  have ht : t.vocabulary = .standard := (vocabulary_of_follow hbefore).trans hv
  rw [hsplit a b t, hsplit b a t]
  exact exists_congr fun u => and_congr_left fun _ => hab t u ht

end Session

theorem statementsOf_swap {text text' : String} {before after : List String} {a b : String}
    (h : Text.lines text = before ++ a :: b :: after) (h' : Text.lines text' = before ++ b :: a :: after)
    {sa sb : Statement} (ha : statement? a = some sa) (hb : statement? b = some sb) :
    ∃ first later, statementsOf text = first ++ sa :: sb :: later ∧
      statementsOf text' = first ++ sb :: sa :: later := by
  refine ⟨before.filterMap statement?, after.filterMap statement?, ?_, ?_⟩
  · rw [statementsOf, h, List.filterMap_append, List.filterMap_cons_some ha, List.filterMap_cons_some hb]
  · rw [statementsOf, h', List.filterMap_append, List.filterMap_cons_some hb, List.filterMap_cons_some ha]

/-- Two neighbouring lines of different channels can change places. -/
theorem readText_swap {text text' : String} {before after : List String} {a b : String}
    (h : Text.lines text = before ++ a :: b :: after) (h' : Text.lines text' = before ++ b :: a :: after)
    (ha : AsksFor Command.setsTransform a = true) (hb : AsksFor Command.setsMaterial b = true)
    (policy : Policy) (scene : Scene α) :
    (readText policy text).result = .ok scene ↔ (readText policy text').result = .ok scene := by
  obtain ⟨sa, hsa, hna⟩ := (Option.any_eq_true _ _).1 ha
  obtain ⟨sb, hsb, hnb⟩ := (Option.any_eq_true _ _).1 hb
  obtain ⟨first, later, htext, htext'⟩ := statementsOf_swap h h' hsa hsb
  have hswap : ∀ last : Session α, (Session.start policy).follow (first ++ sa :: sb :: later) = .ok last ↔
      (Session.start policy).follow (first ++ sb :: sa :: later) = .ok last :=
    fun last => Session.follow_swap_within rfl (fun t u ht => Session.follow_swap ht hna hnb) first later
  rw [readText_eq_ok_iff, readText_eq_ok_iff, htext, htext']
  constructor
  · rintro ⟨last, hfollow, hclose⟩
    exact ⟨last, (hswap last).1 hfollow, hclose⟩
  · rintro ⟨last, hfollow, hclose⟩
    exact ⟨last, (hswap last).2 hfollow, hclose⟩

/-- A text without the lines that are hidden is read as the scene behind the replacement. -/
theorem readText_blank {dropped : Command → Bool} {f : Mat4 α → Mat4 α} {g : Material α → Material α}
    (hides : Hides dropped f g) (hf : f Mat4.identity = Mat4.identity)
    (hg : g Material.initial = Material.initial) {policy : Policy} {text : String} {scene : Scene α}
    (h : (readText policy text).result = .ok scene) :
    (readText policy (blank dropped text)).result = .ok (scene.mapObjects f g) := by
  obtain ⟨last, hfollow, hclose⟩ := readText_eq_ok_iff.1 h
  have hstart : (Session.start policy : Session α).map f g = .start policy := by
    simp [Session.map, Session.start, Session.withVocabulary, Workspace.map, Workspace.initial,
      Scene.mapObjects, Scene.empty, Frames.map, Frames.initial, Frames.ofPair, Stack.map, hf, hg]
  have hmap := Session.follow_filter hides (s := .start policy) rfl hfollow
  rw [hstart, ← statementsOf_blank] at hmap
  exact readText_eq_ok_iff.2 ⟨last.map f g, hmap, Session.close_map hclose⟩

/-- Transforms and materials do not influence each other. Take a text that is read as a scene. With
its lines that set materials blanked it is read as the same scene, but that every object is made of
the initial material; with its lines that set transforms blanked, as the same scene, but that every
object stands where it would without any transform. And two neighbouring lines of which one sets a
transform and one a material can change places. -/
theorem readText_channels {policy : Policy} {text : String} {scene : Scene α}
    (h : (readText policy text).result = .ok scene) :
    (readText policy (blank Command.setsMaterial text)).result =
        .ok (scene.mapObjects id fun _ => Material.initial) ∧
      (readText policy (blank Command.setsTransform text)).result =
        .ok (scene.mapObjects (fun _ => Mat4.identity) id) ∧
      ∀ (text' : String) (before after : List String) (a b : String),
        Text.lines text = before ++ a :: b :: after → Text.lines text' = before ++ b :: a :: after →
        (AsksFor Command.setsTransform a = true ∧ AsksFor Command.setsMaterial b = true ∨
          AsksFor Command.setsMaterial a = true ∧ AsksFor Command.setsTransform b = true) →
        (readText policy text').result = .ok scene := by
  refine ⟨readText_blank (hides_materials _) rfl rfl h, readText_blank (hides_transforms _) rfl rfl h, ?_⟩
  rintro text' before after a b hlines hlines' (⟨ha, hb⟩ | ⟨ha, hb⟩)
  · exact (readText_swap hlines hlines' ha hb policy scene).1 h
  · exact (readText_swap hlines' hlines hb ha policy scene).2 h

/-- Two spheres, one of them in a group, and two neighbouring lines of different channels. -/
theorem readText_channels_group :
    let text := "material 1 0 0 1 1 1 9\ngroup\nmove 1 2 3\nrefraction 1 1 1 1.5\nsphere\ngroupend\nsphere"
    let text' := "material 1 0 0 1 1 1 9\ngroup\nrefraction 1 1 1 1.5\nmove 1 2 3\nsphere\ngroupend\nsphere"
    ∃ scene : Scene Float, (readText {} text).result = .ok scene ∧ scene.objects.size = 2 ∧
      (readText {} (blank Command.setsMaterial text)).result =
        .ok (scene.mapObjects id fun _ => Material.initial) ∧
      (readText {} (blank Command.setsTransform text)).result =
        .ok (scene.mapObjects (fun _ => Mat4.identity) id) ∧
      (readText {} text').result = .ok scene := by
  intro text text'
  have hsize : (readText {} text : Report Float).result.toOption.map
      (fun scene => scene.objects.size) = some 2 := by
    decide +kernel
  cases h : (readText {} text : Report Float).result with
  | error fault =>
    rw [h] at hsize
    cases hsize
  | ok scene =>
    rw [h] at hsize
    obtain ⟨hmaterials, htransforms, hswap⟩ := readText_channels h
    have hlines : Text.lines text = ["material 1 0 0 1 1 1 9", "group"] ++
        "move 1 2 3" :: "refraction 1 1 1 1.5" :: ["sphere", "groupend", "sphere"] := by
      decide +kernel
    have hlines' : Text.lines text' = ["material 1 0 0 1 1 1 9", "group"] ++
        "refraction 1 1 1 1.5" :: "move 1 2 3" :: ["sphere", "groupend", "sphere"] := by
      decide +kernel
    refine ⟨scene, rfl, Option.some.inj hsize, hmaterials, htransforms, ?_⟩
    exact hswap text' _ _ _ _ hlines hlines' (.inl ⟨by decide +kernel, by decide +kernel⟩)

end

end SceneScript.Script
