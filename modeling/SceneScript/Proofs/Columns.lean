/-
Frames as two columns that can get out of step, and as one stack of pairs that cannot. The bare
columns of `Columns` may be of different lengths or empty; reading or writing outside of them has no
result, nor has their depth when they disagree. Whatever is done to them from one pair on, nothing of
the kind happens: a step on the columns of a stack of pairs is the step on the pairs
(`Columns.onColumns?_ofPairs`), and so it is for frames (`onFrames_ofPairs`). The frames of a session
are changed by such steps alone (`reaches_after`).

Which pair is taken off by the end of a group is a question about the steps since its beginning. The
invariant is that the steps fall into one stretch for every open group, and that each stretch turns the
pair below into the pair above it (`Grown`).
-/
import SceneScript.Proofs.Scope
namespace SceneScript.Script

open Space Number

variable {α β : Type}

/-! ## Columns -/

/-- The last element of a column, at its index. -/
def last? (xs : Array β) : Option β := xs[xs.size - 1]?

/-- The column with another last element, if it has that index. -/
def setLast? (b : β) (xs : Array β) : Option (Array β) :=
  if h : xs.size - 1 < xs.size then some (xs.set (xs.size - 1) b h) else none

/-- A transform and a material. -/
abbrev Pair (α : Type) := Mat4 α × Material α

/-- A column of transforms and one of materials, the last ones in force. -/
structure Columns (α : Type) where
  transforms : Array (Mat4 α)
  materials : Array (Material α)

namespace Columns

def ofPair (transform : Mat4 α) (material : Material α) : Columns α := ⟨#[transform], #[material]⟩

/-- The length of the columns; there is none unless both have it. -/
def depth? (c : Columns α) : Option Nat :=
  if c.transforms.size = c.materials.size then some c.transforms.size else none

/-- One less than the depth; there is none below zero. -/
def openGroups? (c : Columns α) : Option Nat := do
  let depth ← c.depth?
  if depth = 0 then none else some (depth - 1)

def transform? (c : Columns α) : Option (Mat4 α) := last? c.transforms

def material? (c : Columns α) : Option (Material α) := last? c.materials

def openGroup? (c : Columns α) : Option (Columns α) := do
  let t ← c.transform?
  let m ← c.material?
  some ⟨c.transforms.push t, c.materials.push m⟩

/-- Takes a transform off and then a material, unless there is only one left. A column without an
element stops this half-way. -/
def closeGroup? (c : Columns α) : Option (Option (Pair α) × Columns α) := do
  let depth ← c.depth?
  if depth ≤ 1 then some (none, c)
  else
    match c.transforms.back? with
    | none => some (none, c)
    | some t =>
      let rest : Columns α := { c with transforms := c.transforms.pop }
      match c.materials.back? with
      | none => some (none, rest)
      | some m => some (some (t, m), { rest with materials := c.materials.pop })

def setTransform? (t : Mat4 α) (c : Columns α) : Option (Columns α) := do
  let transforms ← setLast? t c.transforms
  some { c with transforms }

def modifyMaterial? (change : Material α → Material α) (c : Columns α) : Option (Columns α) := do
  let m ← c.material?
  let materials ← setLast? (change m) c.materials
  some { c with materials }

end Columns

/-! ## Steps on columns, on frames and on pairs -/

/-- A change of the pair in force. -/
inductive Change (α : Type) where
  | transform (t : Mat4 α)
  | material (m : Material α)
  | modifyMaterial (g : Material α → Material α)

/-- What can be done to frames. -/
inductive FrameStep (α : Type) where
  | openGroup
  | closeGroup
  | change (c : Change α)

def Change.onPair : Change α → Pair α → Pair α
  | transform t, pair => (t, pair.2)
  | material m, pair => (pair.1, m)
  | modifyMaterial g, pair => (pair.1, g pair.2)

namespace FrameStep

def onPairs (p : Stack (Pair α)) : FrameStep α → Stack (Pair α)
  | openGroup => p.duplicate
  | closeGroup =>
    match p.pop? with
    | some (_, rest) => rest
    | none => p
  | change c => p.modifyTop c.onPair

def onFrames (f : Frames α) : FrameStep α → Frames α
  | openGroup => f.openGroup
  | closeGroup => f.closeGroup
  | change (.transform t) => f.setTransform t
  | change (.material m) => f.setMaterial m
  | change (.modifyMaterial g) => f.modifyMaterial g

def onColumns? (c : Columns α) : FrameStep α → Option (Columns α)
  | openGroup => c.openGroup?
  | closeGroup => c.closeGroup?.map Prod.snd
  | change (.transform t) => c.setTransform? t
  | change (.material m) => c.modifyMaterial? fun _ => m
  | change (.modifyMaterial g) => c.modifyMaterial? g

end FrameStep

/-- The pairs after some steps from one pair on. -/
def pairsAfter (pair : Pair α) (steps : List (FrameStep α)) : Stack (Pair α) :=
  steps.foldl FrameStep.onPairs ⟨pair, []⟩

def framesAfter (pair : Pair α) (steps : List (FrameStep α)) : Frames α :=
  steps.foldl FrameStep.onFrames (.ofPair pair.1 pair.2)

def columnsAfter? (pair : Pair α) (steps : List (FrameStep α)) : Option (Columns α) :=
  steps.foldlM FrameStep.onColumns? (.ofPair pair.1 pair.2)

theorem pairsAfter_append_singleton (pair : Pair α) (steps : List (FrameStep α)) (step : FrameStep α) :
    pairsAfter pair (steps ++ [step]) = step.onPairs (pairsAfter pair steps) := by
  rw [pairsAfter, List.foldl_append]
  rfl

/-! ## A stack as a column -/

namespace Stack

def column (s : Stack β) : Array β := s.toList.reverse.toArray

theorem size_column (s : Stack β) : s.column.size = s.depth := by
  simp [column, length_toList]

theorem column_eq_push (s : Stack β) : s.column = s.below.reverse.toArray.push s.top := by
  simp [column, toList]

theorem last?_column (s : Stack β) : last? s.column = some s.top := by
  rw [column_eq_push, last?]
  simp

theorem back?_column (s : Stack β) : s.column.back? = some s.top := by
  rw [column_eq_push, Array.back?_push]

theorem push_column (s : Stack β) (b : β) : s.column.push b = (⟨b, s.toList⟩ : Stack β).column := by
  rw [column_eq_push ⟨b, s.toList⟩]
  rfl

theorem pop_column {s rest : Stack β} {b : β} (h : s.pop? = some (b, rest)) :
    s.column.pop = rest.column := by
  have hlist := toList_of_pop? h
  rw [column, hlist]
  simp [column]

theorem setLast?_column (s : Stack β) (b : β) :
    setLast? b s.column = some (s.modifyTop fun _ => b).column := by
  rw [column_eq_push, column_eq_push, setLast?]
  simp [modifyTop]

end Stack

/-! ## Pairs as frames and frames as columns -/

theorem pop?_map_of_pop? {γ : Type} (f : β → γ) {s rest : Stack β} {b : β}
    (h : s.pop? = some (b, rest)) : (s.map f).pop? = some (f b, rest.map f) := by
  rw [Stack.pop?_map, h, Option.map_some]

def Frames.ofPairs (p : Stack (Pair α)) : Frames α := ⟨p.map Prod.fst, p.map Prod.snd⟩

def Columns.ofPairs (p : Stack (Pair α)) : Columns α :=
  ⟨(p.map Prod.fst).column, (p.map Prod.snd).column⟩

theorem Frames.closeGroup?_ofPairs (p : Stack (Pair α)) :
    (Frames.ofPairs p).closeGroup? = p.pop?.map fun popped => (popped.1, Frames.ofPairs popped.2) := by
  simp only [Frames.closeGroup?, Frames.ofPairs, Stack.pop?_map]
  cases p.pop? <;> rfl

/-- A step on the frames of some pairs is the step on the pairs. -/
theorem onFrames_ofPairs (p : Stack (Pair α)) (step : FrameStep α) :
    step.onFrames (Frames.ofPairs p) = Frames.ofPairs (step.onPairs p) := by
  cases step with
  | openGroup => rfl
  | closeGroup =>
    simp only [FrameStep.onFrames, FrameStep.onPairs, Frames.closeGroup, Frames.closeGroup?_ofPairs]
    cases p.pop? <;> rfl
  | change c => cases c <;> rfl

theorem framesAfter_eq (pair : Pair α) (steps : List (FrameStep α)) :
    framesAfter pair steps = Frames.ofPairs (pairsAfter pair steps) := by
  have h : ∀ p : Stack (Pair α), steps.foldl FrameStep.onFrames (Frames.ofPairs p) =
      Frames.ofPairs (steps.foldl FrameStep.onPairs p) := by
    induction steps with
    | nil => exact fun _ => rfl
    | cons step steps ih =>
      intro p
      rw [List.foldl_cons, List.foldl_cons, onFrames_ofPairs, ih]
  exact h ⟨pair, []⟩

namespace Columns

variable (p : Stack (Pair α))

theorem depth?_ofPairs : (ofPairs p).depth? = some p.depth := by
  simp [depth?, ofPairs, Stack.size_column]

theorem openGroups?_ofPairs : (ofPairs p).openGroups? = some (p.depth - 1) := by
  have hdepth : p.depth ≠ 0 := Nat.succ_ne_zero _
  simp [openGroups?, depth?_ofPairs, hdepth]

theorem transform?_ofPairs : (ofPairs p).transform? = some p.top.1 := Stack.last?_column _

theorem material?_ofPairs : (ofPairs p).material? = some p.top.2 := Stack.last?_column _

/-- Both columns lose an element, or neither does. -/
theorem closeGroup?_ofPairs :
    (ofPairs p).closeGroup? = some (p.pop?.map Prod.fst, ofPairs (FrameStep.closeGroup.onPairs p)) := by
  have hnone := Stack.pop?_eq_none_iff (s := p)
  unfold closeGroup?
  rw [depth?_ofPairs]
  cases hpop : p.pop? with
  | none =>
    have hdepth : p.depth ≤ 1 := by
      have := hnone.1 hpop
      omega
    simp [hdepth, FrameStep.onPairs, hpop]
  | some popped =>
    obtain ⟨pair, rest⟩ := popped
    have hdepth : ¬p.depth ≤ 1 := by
      have hpositive : 0 < p.depth := Nat.succ_pos _
      have hne : p.depth ≠ 1 := fun h => by
        rw [hnone.2 h] at hpop
        cases hpop
      omega
    have hpair : pair = p.top := by
      have hlist := Stack.toList_of_pop? hpop
      exact (List.head_eq_of_cons_eq hlist).symm
    have htransforms := Stack.pop_column (pop?_map_of_pop? Prod.fst hpop)
    have hmaterials := Stack.pop_column (pop?_map_of_pop? Prod.snd hpop)
    simp [hdepth, ofPairs, Stack.back?_column, htransforms, hmaterials, FrameStep.onPairs, hpop, hpair]

/-- A step on the columns of some pairs stays inside of them, and it is the step on the pairs. -/
theorem onColumns?_ofPairs (step : FrameStep α) :
    step.onColumns? (ofPairs p) = some (ofPairs (step.onPairs p)) := by
  cases step with
  | openGroup =>
    simp only [FrameStep.onColumns?, openGroup?, transform?_ofPairs, material?_ofPairs]
    simp [ofPairs, Stack.push_column, FrameStep.onPairs, Stack.duplicate, Stack.map, Stack.toList]
  | closeGroup =>
    simp only [FrameStep.onColumns?, closeGroup?_ofPairs, Option.map_some]
  | change c =>
    cases c with
    | transform t =>
      simp [FrameStep.onColumns?, setTransform?, ofPairs, Stack.setLast?_column, FrameStep.onPairs,
        Stack.modifyTop, Stack.map, Change.onPair]
    | material m =>
      simp only [FrameStep.onColumns?, modifyMaterial?, material?_ofPairs]
      simp [ofPairs, Stack.setLast?_column, FrameStep.onPairs, Stack.modifyTop, Stack.map, Change.onPair]
    | modifyMaterial g =>
      simp only [FrameStep.onColumns?, modifyMaterial?, material?_ofPairs]
      simp [ofPairs, Stack.setLast?_column, FrameStep.onPairs, Stack.modifyTop, Stack.map, Change.onPair]

end Columns

theorem columnsAfter?_eq (pair : Pair α) (steps : List (FrameStep α)) :
    columnsAfter? pair steps = some (Columns.ofPairs (pairsAfter pair steps)) := by
  have h : ∀ p : Stack (Pair α), steps.foldlM FrameStep.onColumns? (Columns.ofPairs p) =
      some (Columns.ofPairs (steps.foldl FrameStep.onPairs p)) := by
    induction steps with
    | nil => exact fun _ => rfl
    | cons step steps ih =>
      intro p
      rw [List.foldlM_cons, List.foldl_cons, Columns.onColumns?_ofPairs]
      exact ih _
  exact h ⟨pair, []⟩

/-! ## The pair built up in a group -/

/-- The steps of one stretch of a group turn one pair into another: its own changes do, and a group
inside of it that is closed again does not. -/
inductive Builds : Pair α → List (FrameStep α) → Pair α → Prop where
  | nil (pair : Pair α) : Builds pair [] pair
  | change (c : Change α) {pair result : Pair α} {later : List (FrameStep α)} :
      Builds (c.onPair pair) later result → Builds pair (.change c :: later) result
  | group {pair inside result : Pair α} {inner later : List (FrameStep α)} :
      Builds pair inner inside → Builds pair later result →
        Builds pair (.openGroup :: (inner ++ .closeGroup :: later)) result

theorem Builds.append {first second third : Pair α} {earlier later : List (FrameStep α)}
    (h : Builds first earlier second) (hlater : Builds second later third) :
    Builds first (earlier ++ later) third := by
  induction h with
  | nil => exact hlater
  | change c _ ih => exact .change c (ih hlater)
  | group hinner _ _ ih =>
    have h := Builds.group hinner (ih hlater)
    simpa using h

/-- A stretch leaves everything below the pair in force alone. -/
theorem Builds.foldl_onPairs {first second : Pair α} {steps : List (FrameStep α)}
    (h : Builds first steps second) (below : List (Pair α)) :
    steps.foldl FrameStep.onPairs ⟨first, below⟩ = ⟨second, below⟩ := by
  induction h generalizing below with
  | nil => rfl
  | change c _ ih => exact ih below
  | @group pair inside result inner later _ _ ihinner ih =>
    have hopen : FrameStep.openGroup.onPairs ⟨pair, below⟩ = ⟨pair, pair :: below⟩ := rfl
    have hclose : FrameStep.closeGroup.onPairs ⟨inside, pair :: below⟩ = ⟨pair, below⟩ := rfl
    rw [List.foldl_cons, List.foldl_append, List.foldl_cons, hopen, ihinner, hclose, ih]

/-- The steps so far, cut where the groups still open were opened. -/
inductive Grown (pair : Pair α) : List (FrameStep α) → Stack (Pair α) → Prop where
  | outermost {steps : List (FrameStep α)} {top : Pair α} :
      pairsAfter pair steps = ⟨top, []⟩ → Grown pair steps ⟨top, []⟩
  | group {before inner : List (FrameStep α)} {top under : Pair α} {below : List (Pair α)} :
      Grown pair before ⟨under, below⟩ → Builds under inner top →
        Grown pair (before ++ .openGroup :: inner) ⟨top, under :: below⟩

theorem pairsAfter_group {pair : Pair α} {before inner : List (FrameStep α)} {top : Pair α}
    (h : Builds (pairsAfter pair before).top inner top) :
    pairsAfter pair (before ++ .openGroup :: inner) = ⟨top, (pairsAfter pair before).toList⟩ := by
  have hopen : pairsAfter pair (before ++ .openGroup :: inner) =
      inner.foldl FrameStep.onPairs (pairsAfter pair before).duplicate := by
    rw [pairsAfter, List.foldl_append]
    rfl
  rw [hopen, Stack.duplicate, h.foldl_onPairs]
  rfl

theorem Grown.pairsAfter_eq {pair : Pair α} {steps : List (FrameStep α)} {p : Stack (Pair α)}
    (h : Grown pair steps p) : pairsAfter pair steps = p := by
  induction h with
  | outermost h => exact h
  | @group before inner top under below _ hbuilds ih =>
    have htop : (pairsAfter pair before).top = under := by rw [ih]
    rw [← htop] at hbuilds
    rw [pairsAfter_group hbuilds, ih]
    rfl

/-- The end of a group joins its stretch to the one around it. -/
theorem Grown.closeGroup {pair : Pair α} {steps : List (FrameStep α)} {p : Stack (Pair α)}
    (h : Grown pair steps p) :
    Grown pair (steps ++ [.closeGroup]) (FrameStep.closeGroup.onPairs p) := by
  have hafter : pairsAfter pair (steps ++ [.closeGroup]) = FrameStep.closeGroup.onPairs p := by
    rw [pairsAfter_append_singleton, h.pairsAfter_eq]
  cases h with
  | outermost _ => exact .outermost hafter
  | @group before inner top under below hbefore hbuilds =>
    cases hbefore with
    -- outside of all groups nothing is claimed about how the pair came about
    | outermost _ => exact .outermost hafter
    | @group earlier outer _ next rest hearlier houter =>
      have hclosed : Builds under (.openGroup :: (inner ++ [.closeGroup])) under :=
        .group hbuilds (.nil under)
      have hjoined := Grown.group hearlier (houter.append hclosed)
      rw [List.append_assoc, List.cons_append, List.append_assoc, List.cons_append]
      exact hjoined

theorem Grown.step {pair : Pair α} {steps : List (FrameStep α)} {p : Stack (Pair α)}
    (h : Grown pair steps p) (step : FrameStep α) : Grown pair (steps ++ [step]) (step.onPairs p) := by
  cases step with
  | openGroup => exact .group h (.nil _)
  | closeGroup => exact h.closeGroup
  | change c =>
    cases h with
    | outermost h =>
      refine .outermost ?_
      rw [pairsAfter_append_singleton, h]
      rfl
    | group hbefore hbuilds =>
      have hlonger := Grown.group hbefore (hbuilds.append (.change c (.nil _)))
      rw [List.append_assoc, List.cons_append]
      exact hlonger

theorem Grown.steps {pair : Pair α} : ∀ {done : List (FrameStep α)} {p : Stack (Pair α)}
    (steps : List (FrameStep α)), Grown pair done p →
      Grown pair (done ++ steps) (steps.foldl FrameStep.onPairs p)
  | done, _, [], h => by rwa [List.append_nil]
  | done, _, step :: steps, h => by
    have hlater := Grown.steps steps (h.step step)
    rwa [List.append_assoc] at hlater

theorem grown_pairsAfter (pair : Pair α) (steps : List (FrameStep α)) :
    Grown pair steps (pairsAfter pair steps) := by
  have hnone : Grown pair [] ⟨pair, []⟩ := .outermost rfl
  exact hnone.steps steps

/-- The end of a group takes off the pair that the steps since its beginning have made of the pair
around it. -/
theorem pop?_pairsAfter_eq_some_iff {pair popped : Pair α} {steps : List (FrameStep α)}
    {rest : Stack (Pair α)} :
    (pairsAfter pair steps).pop? = some (popped, rest) ↔
      ∃ before inner, steps = before ++ .openGroup :: inner ∧ rest = pairsAfter pair before ∧
        Builds rest.top inner popped := by
  constructor
  · intro h
    have hgrown := grown_pairsAfter pair steps
    generalize pairsAfter pair steps = p at h hgrown
    cases hgrown with
    | outermost _ => cases h
    | @group before inner top under below hbefore hbuilds =>
      cases h
      exact ⟨before, inner, rfl, hbefore.pairsAfter_eq.symm, hbuilds⟩
  · rintro ⟨before, inner, rfl, rfl, hbuilds⟩
    rw [pairsAfter_group hbuilds]
    rfl

/-! ## Columns, frames and pairs -/

/-- What can be seen of columns is what the stack of pairs says. -/
structure Columns.Agrees (c : Columns α) (p : Stack (Pair α)) : Prop where
  transforms : c.transforms.toList.reverse = p.toList.map Prod.fst
  materials : c.materials.toList.reverse = p.toList.map Prod.snd
  sizes : c.transforms.size = c.materials.size
  nonempty : 1 ≤ c.transforms.size
  depth : c.depth? = some p.depth
  openGroups : c.openGroups? = some (p.depth - 1)
  transform : c.transform? = some p.top.1
  material : c.material? = some p.top.2
  refused : p.pop? = none → c.closeGroup? = some (none, c)
  closed : ∀ popped rest, p.pop? = some (popped, rest) →
    c.closeGroup? = some (some popped, ⟨c.transforms.pop, c.materials.pop⟩)

/-- What can be seen of frames is what the stack of pairs says. -/
structure Frames.Agrees (f : Frames α) (p : Stack (Pair α)) : Prop where
  transforms : f.transforms.toList = p.toList.map Prod.fst
  materials : f.materials.toList = p.toList.map Prod.snd
  depth : f.depth = p.depth
  openGroups : f.openGroups = p.depth - 1
  transform : f.transform = p.top.1
  material : f.material = p.top.2
  refused : p.pop? = none → f.closeGroup? = none ∧ f.closeGroup = f
  closed : ∀ popped rest, p.pop? = some (popped, rest) → f.closeGroup? = some (popped, f.closeGroup)

theorem Columns.agrees_ofPairs (p : Stack (Pair α)) : (Columns.ofPairs p).Agrees p where
  transforms := by simp [ofPairs, Stack.column, Stack.toList_map]
  materials := by simp [ofPairs, Stack.column, Stack.toList_map]
  sizes := by simp [ofPairs, Stack.size_column]
  nonempty := by simp [ofPairs, Stack.size_column, Stack.depth]
  depth := depth?_ofPairs p
  openGroups := openGroups?_ofPairs p
  transform := transform?_ofPairs p
  material := material?_ofPairs p
  refused := by
    intro hpop
    rw [closeGroup?_ofPairs, FrameStep.onPairs, hpop]
    rfl
  closed := by
    intro popped rest hpop
    have htransforms := Stack.pop_column (pop?_map_of_pop? Prod.fst hpop)
    have hmaterials := Stack.pop_column (pop?_map_of_pop? Prod.snd hpop)
    rw [closeGroup?_ofPairs, FrameStep.onPairs, hpop]
    simp [ofPairs, htransforms, hmaterials]

theorem Frames.agrees_ofPairs (p : Stack (Pair α)) : (Frames.ofPairs p).Agrees p where
  transforms := rfl
  materials := rfl
  depth := Stack.depth_map Prod.fst p
  openGroups := congrArg (· - 1) (Stack.depth_map Prod.fst p)
  transform := rfl
  material := rfl
  refused := by
    intro hpop
    have hclose : (Frames.ofPairs p).closeGroup? = none := by rw [closeGroup?_ofPairs, hpop, Option.map_none]
    exact ⟨hclose, by rw [closeGroup, hclose]⟩
  closed := by
    intro popped rest hpop
    have hclose : (Frames.ofPairs p).closeGroup? = some (popped, Frames.ofPairs rest) := by
      rw [closeGroup?_ofPairs, hpop, Option.map_some]
    rw [closeGroup, hclose]

/-- The bare columns never come to a step without a result; they and the frames are those of a stack
of pairs, and a pair taken off it is the one built up since its group was opened. -/
theorem columns_frames_pairs (transform : Mat4 α) (material : Material α) (steps : List (FrameStep α)) :
    (∃ c, columnsAfter? (transform, material) steps = some c ∧
      c.Agrees (pairsAfter (transform, material) steps)) ∧
    (framesAfter (transform, material) steps).Agrees (pairsAfter (transform, material) steps) ∧
    ∀ popped rest, (pairsAfter (transform, material) steps).pop? = some (popped, rest) ↔
      ∃ before inner, steps = before ++ .openGroup :: inner ∧
        rest = pairsAfter (transform, material) before ∧ Builds rest.top inner popped := by
  refine ⟨⟨_, columnsAfter?_eq _ steps, Columns.agrees_ofPairs _⟩, ?_, ?_⟩
  · rw [framesAfter_eq]
    exact Frames.agrees_ofPairs _
  · intro popped rest
    exact pop?_pairsAfter_eq_some_iff

example [Scalar α] : framesAfter (Mat4.identity, Material.initial) [] = (Frames.initial : Frames α) := rfl

/-! ## The frames of a session -/

/-- Some steps lead from the one frames to the other. -/
def Reaches (f g : Frames α) : Prop := ∃ steps : List (FrameStep α), g = steps.foldl FrameStep.onFrames f

theorem Reaches.refl (f : Frames α) : Reaches f f := ⟨[], rfl⟩

theorem Reaches.trans {f g h : Frames α} (hfg : Reaches f g) (hgh : Reaches g h) : Reaches f h := by
  obtain ⟨steps, rfl⟩ := hfg
  obtain ⟨later, rfl⟩ := hgh
  exact ⟨steps ++ later, List.foldl_append.symm⟩

theorem Reaches.single (f : Frames α) (step : FrameStep α) : Reaches f (step.onFrames f) := ⟨[step], rfl⟩

section
variable [Scalar α]

theorem reaches_apply (w : Workspace α) (d : Directive α) : Reaches w.frames (d.apply w).frames := by
  cases d with
  | openGroup => exact .single w.frames .openGroup
  | closeGroup => exact .single w.frames .closeGroup
  | material m => exact .single w.frames (.change (.material m))
  | refraction color index =>
    exact .single w.frames (.change (.modifyMaterial fun m => m.withRefraction color index))
  -- a new transform is made from the one in force
  | move offset => exact .single w.frames (.change (.transform (translate w.frames.transform offset)))
  | scale factors => exact .single w.frames (.change (.transform (scale w.frames.transform factors)))
  | rotate degrees axis =>
    let turned := rotate? w.frames.transform (radians degrees) axis
    exact .single w.frames (.change (.transform (turned.getD w.frames.transform)))
  | _ => exact .refl w.frames

variable [FromWord α]

theorem reaches_readLine {s : Session α} (hv : s.vocabulary.OfCommands) (number : Nat) (line : String) :
    Reaches s.workspace.frames (s.readLine number line).session.workspace.frames := by
  rcases Session.readLine_cases hv line with hline | ⟨c, word, words, -, -, hline⟩
  · rw [(hline number).2]
    exact .refl _
  · rw [hline number]
    exact Command.outcome_induction (R := fun v w => Reaches v.frames w.frames) (fun w => .refl w.frames)
      .trans (fun w d _ => reaches_apply w d) number word words s.workspace

/-- Whatever lines a session is given, its frames are changed by steps. -/
theorem reaches_after : ∀ (calls : List (Nat × String)) {s : Session α}, s.vocabulary.OfCommands →
    Reaches s.workspace.frames (s.after calls).workspace.frames
  | [], s, _ => .refl s.workspace.frames
  | (number, line) :: calls, s, hv => by
    have hv' := Session.ofCommands_after hv [(number, line)]
    exact (reaches_readLine hv number line).trans (reaches_after calls hv')

/-- So they are always those of a stack of pairs. -/
theorem exists_frames_after_eq (policy : Policy) (calls : List (Nat × String)) :
    ∃ steps, ((Session.start policy : Session α).after calls).workspace.frames =
      Frames.ofPairs (pairsAfter (Mat4.identity, Material.initial) steps) := by
  obtain ⟨steps, hsteps⟩ := reaches_after (s := (.start policy : Session α)) calls Vocabulary.ofCommands_standard
  refine ⟨steps, ?_⟩
  rw [← framesAfter_eq, hsteps]
  rfl

end

end SceneScript.Script
