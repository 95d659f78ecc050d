/-
Scopes: what happens between a `group` line and the `groupend` line that closes it stays above
the frames that were there before. The invariant of the lines in between is that the session's
frames rest on the old ones with at least one frame on top (`restsOn_after`); it does not matter
what the lines are or which of them fail. So the closing line restores every frame, and a group
that writes nothing to the scene can be left out (`group_restores_frames`).
-/
import SceneScript.Proofs.Effect
namespace SceneScript.Script

open Space Number

/-! ## Frames on top of frames -/

namespace Stack

variable {β : Type}

/-- `s` is `base` with `n` elements on top. -/
def RestsOn (base : Stack β) (n : Nat) (s : Stack β) : Prop :=
  ∃ top : List β, top.length = n ∧ s.toList = top ++ base.toList

theorem RestsOn.refl (base : Stack β) : base.RestsOn 0 base := ⟨[], rfl, rfl⟩

theorem RestsOn.eq {base s : Stack β} (h : base.RestsOn 0 s) : s = base := by
  obtain ⟨top, htop, h⟩ := h
  obtain rfl := List.eq_nil_of_length_eq_zero htop
  obtain ⟨b, bs⟩ := base
  obtain ⟨t, ts⟩ := s
  simpa [toList] using h

theorem RestsOn.suffix {base s : Stack β} {n : Nat} (h : base.RestsOn n s) :
    base.toList <:+ s.toList := by
  obtain ⟨top, -, h⟩ := h
  exact ⟨top, h.symm⟩

theorem RestsOn.depth {base s : Stack β} {n : Nat} (h : base.RestsOn n s) :
    s.depth = n + base.depth := by
  obtain ⟨top, htop, h⟩ := h
  rw [← length_toList, ← length_toList, h, List.length_append, htop]

theorem RestsOn.duplicate {base s : Stack β} {n : Nat} (h : base.RestsOn n s) :
    base.RestsOn (n + 1) s.duplicate := by
  obtain ⟨top, htop, h⟩ := h
  exact ⟨s.top :: top, by simp [htop], by rw [toList_duplicate, h]; rfl⟩

/-- What lies above the base can be taken off. -/
theorem RestsOn.pop? {base s : Stack β} {n : Nat} (h : base.RestsOn (n + 1) s) :
    ∃ rest, s.pop? = some (s.top, rest) ∧ base.RestsOn n rest := by
  obtain ⟨top, htop, h⟩ := h
  obtain ⟨t, ts⟩ := s
  cases top with
  | nil => cases htop
  | cons a top =>
    simp only [toList, List.cons_append, List.cons.injEq] at h
    obtain ⟨rfl, rfl⟩ := h
    -- below the top there is at least the base
    cases hts : top ++ base.top :: base.below with
    | nil => simp at hts
    | cons b bs => exact ⟨⟨b, bs⟩, rfl, top, by simpa using htop, hts.symm⟩

/-- Above the base the top may become another one. -/
theorem RestsOn.of_below {base s s' : Stack β} {n : Nat} (h : base.RestsOn (n + 1) s)
    (hbelow : s'.below = s.below) : base.RestsOn (n + 1) s' := by
  obtain ⟨top, htop, h⟩ := h
  cases top with
  | nil => cases htop
  | cons a top =>
    simp only [toList, List.cons_append, List.cons.injEq] at h
    exact ⟨s'.top :: top, by simpa using htop, by rw [toList, hbelow, h.2]; rfl⟩

end Stack

namespace Frames

variable {α : Type}

/-- `f` has `n` frames on top of those of `base`. -/
structure RestsOn (base : Frames α) (n : Nat) (f : Frames α) : Prop where
  transforms : base.transforms.RestsOn n f.transforms
  materials : base.materials.RestsOn n f.materials

theorem RestsOn.refl (base : Frames α) : base.RestsOn 0 base := ⟨.refl _, .refl _⟩

theorem RestsOn.eq {base f : Frames α} (h : base.RestsOn 0 f) : f = base := by
  have ht : f.transforms = base.transforms := h.transforms.eq
  have hm : f.materials = base.materials := h.materials.eq
  cases f
  cases base
  simp only at ht hm
  rw [ht, hm]

theorem RestsOn.depth {base f : Frames α} {n : Nat} (h : base.RestsOn n f) :
    f.depth = n + base.depth :=
  h.transforms.depth

theorem RestsOn.openGroup {base f : Frames α} {n : Nat} (h : base.RestsOn n f) :
    base.RestsOn (n + 1) f.openGroup :=
  ⟨h.transforms.duplicate, h.materials.duplicate⟩

theorem RestsOn.closeGroup {base f : Frames α} {n : Nat} (h : base.RestsOn (n + 1) f) :
    base.RestsOn n f.closeGroup := by
  obtain ⟨ts, hts, ht⟩ := h.transforms.pop?
  obtain ⟨ms, hms, hm⟩ := h.materials.pop?
  have hclose : f.closeGroup = ⟨ts, ms⟩ := by simp [Frames.closeGroup, closeGroup?, hts, hms]
  rw [hclose]
  exact ⟨ht, hm⟩

theorem RestsOn.sameBelow {base f g : Frames α} {n : Nat} (h : base.RestsOn (n + 1) f)
    (hfg : f.SameBelow g) : base.RestsOn (n + 1) g :=
  ⟨h.transforms.of_below hfg.transforms, h.materials.of_below hfg.materials⟩

end Frames

/-! ## Lines between `group` and `groupend` -/

namespace Session

variable {α : Type} [Scalar α] [FromWord α]

theorem asks_after (s : Session α) (calls : List (Nat × String)) (c : Command) (line : String) :
    (s.after calls).Asks c line ↔ s.Asks c line := by
  rw [Asks, Asks, (s.after_keeps calls).1]

/-- One line above a base: afterwards the frames rest on the base again, with no frame on top
only if the line is a `groupend` line. -/
theorem restsOn_readLine {s : Session α} (hv : s.vocabulary.OfCommands) {base : Frames α} {n : Nat}
    (h : base.RestsOn (n + 1) s.workspace.frames) (number : Nat) (line : String) :
    ∃ m, base.RestsOn m (s.readLine number line).session.workspace.frames ∧
      (m = 0 → s.Asks .groupend line) := by
  rcases readLine_cases hv line with hline | ⟨c, word, words, hs, hf, hline⟩
  · rw [(hline number).2]
    exact ⟨n + 1, h, nofun⟩
  · rw [hline number]
    by_cases hopen : c = .group
    · subst hopen
      exact ⟨n + 2, h.openGroup, nofun⟩
    by_cases hclose : c = .groupend
    · subst hclose
      refine ⟨n, ?_, fun _ => ⟨word, words, hs, hf⟩⟩
      simp only [Command.frames_outcome_groupend]
      exact h.closeGroup
    · exact ⟨n + 1, h.sameBelow (Command.sameBelow_outcome hopen hclose _ _ _ _), nofun⟩

/-- Calls above a base stay above it, as long as no `groupend` line among them comes down to it. -/
theorem restsOn_after {base : Frames α} : ∀ (calls : List (Nat × String)) {s : Session α} {n : Nat},
    s.vocabulary.OfCommands → base.RestsOn (n + 1) s.workspace.frames →
    (∀ done call, done ++ [call] <+: calls → s.Asks .groupend call.2 →
      (s.after (done ++ [call])).workspace.frames.depth ≠ base.depth) →
    ∃ m, base.RestsOn (m + 1) (s.after calls).workspace.frames
  | [], _, n, _, h, _ => ⟨n, h⟩
  | (number, line) :: calls, s, n, hv, h, hfirst => by
    obtain ⟨m, hm, hzero⟩ := restsOn_readLine hv h number line
    cases m with
    | zero =>
      refine absurd ?_ (hfirst [] (number, line) ⟨calls, rfl⟩ (hzero rfl))
      exact hm.depth.trans (Nat.zero_add _)
    | succ m =>
      refine restsOn_after calls (ofCommands_after hv [(number, line)]) hm fun done call hpre hasks => ?_
      obtain ⟨rest, rfl⟩ := hpre
      exact hfirst ((number, line) :: done) call ⟨rest, rfl⟩
        ((s.asks_after [(number, line)] .groupend call.2).1 hasks)

/-- Calls that open a group and go on to the `groupend` line that closes it: the first one after
which there are as many frames as there were before. -/
structure ClosedGroup (s : Session α) (opening : Nat × String) (inner : List (Nat × String))
    (closing : Nat × String) : Prop where
  opens : s.Asks .group opening.2
  closes : s.Asks .groupend closing.2
  returns : (s.after (opening :: inner ++ [closing])).workspace.frames.depth = s.workspace.frames.depth
  first : ∀ done call, done ++ [call] <+: inner → s.Asks .groupend call.2 →
    (s.after (opening :: (done ++ [call]))).workspace.frames.depth ≠ s.workspace.frames.depth

variable {s : Session α} {opening closing : Nat × String} {inner : List (Nat × String)}

/-- Behind the opening line and before the closing one there is a frame on top of the old ones. -/
theorem ClosedGroup.restsOn_inner (hv : s.vocabulary.OfCommands)
    (h : s.ClosedGroup opening inner closing) {done : List (Nat × String)} (hpre : done <+: inner) :
    ∃ n, s.workspace.frames.RestsOn (n + 1) (s.after (opening :: done)).workspace.frames := by
  obtain ⟨number, line⟩ := opening
  obtain ⟨word, words, hline⟩ := h.opens.readLine
  have hopened : s.workspace.frames.RestsOn 1
      (s.readLine number line).session.workspace.frames := by
    rw [hline number, Command.outcome_group]
    exact (Frames.RestsOn.refl _).openGroup
  refine restsOn_after done (ofCommands_after hv [(number, line)]) hopened fun first call hfirst hasks => ?_
  exact h.first first call (hfirst.trans hpre) ((s.asks_after [(number, line)] .groupend call.2).1 hasks)

/-- The closing line leaves exactly the old frames. -/
theorem ClosedGroup.frames_after (hv : s.vocabulary.OfCommands)
    (h : s.ClosedGroup opening inner closing) :
    (s.after (opening :: inner ++ [closing])).workspace.frames = s.workspace.frames := by
  have hreturns := h.returns
  obtain ⟨n, hn⟩ := h.restsOn_inner hv (List.prefix_refl inner)
  obtain ⟨m, hm, -⟩ := restsOn_readLine (ofCommands_after hv _) hn closing.1 closing.2
  rw [after_append] at hreturns ⊢
  have hdepth := hm.depth
  have hzero : m = 0 := by
    rw [after_cons, after_nil, hdepth] at hreturns
    omega
  subst hzero
  exact hm.eq

/-- Calls that ask for no command that writes to the scene leave the scene as it is. -/
theorem scene_after : ∀ (calls : List (Nat × String)) {s : Session α}, s.vocabulary.OfCommands →
    (∀ call ∈ calls, ∀ c : Command, c.writesScene = true → ¬ s.Asks c call.2) →
    (s.after calls).workspace.scene = s.workspace.scene
  | [], _, _, _ => rfl
  | (number, line) :: calls, s, hv, h => by
    have hline : (s.readLine number line).session.workspace.scene = s.workspace.scene := by
      rcases readLine_cases hv line with hline | ⟨c, word, words, hs, hf, hline⟩
      · rw [(hline number).2]
      · rw [hline number]
        refine Command.scene_outcome ?_ _ _ _ _
        exact Bool.eq_false_iff.2 fun hc => h (number, line) (by simp) c hc ⟨word, words, hs, hf⟩
    refine (scene_after calls (ofCommands_after hv [(number, line)]) ?_).trans hline
    intro call hcall c hc hasks
    exact h call (by simp [hcall]) c hc ((s.asks_after [(number, line)] c call.2).1 hasks)

/-- A group restores the frames: from its `group` line to the `groupend` line that closes it all
frames that were there before stay as they are, and behind it they are all the frames there are,
whatever the lines of the group are and whichever of them fail. A group without a line that
writes to the scene can be left out: the scene is the same, and so is what comes of every later
line, apart from the number of that line. -/
theorem group_restores_frames (hv : s.vocabulary.OfCommands) (h : s.ClosedGroup opening inner closing) :
    (∀ done, done <+: opening :: inner ++ [closing] →
      s.workspace.frames.transforms.toList <:+ (s.after done).workspace.frames.transforms.toList ∧
        s.workspace.frames.materials.toList <:+ (s.after done).workspace.frames.materials.toList) ∧
    (s.after (opening :: inner ++ [closing])).workspace.frames = s.workspace.frames ∧
    ((∀ call ∈ opening :: inner ++ [closing], ∀ c : Command, c.writesScene = true → ¬ s.Asks c call.2) →
      ∀ later later' : List (Nat × String), later.map Prod.snd = later'.map Prod.snd →
        (s.after (opening :: inner ++ [closing] ++ later)).workspace.scene =
            (s.after later').workspace.scene ∧
          ((s.after (opening :: inner ++ [closing])).results later).map unnumbered =
            (s.results later').map unnumbered) := by
  have hframes := h.frames_after hv
  refine ⟨fun done hdone => ?_, hframes, fun hscene later later' hlater => ?_⟩
  · rcases List.prefix_concat_iff.1 hdone with rfl | hdone
    · rw [hframes]
      exact ⟨List.suffix_rfl, List.suffix_rfl⟩
    cases done with
    | nil => exact ⟨List.suffix_rfl, List.suffix_rfl⟩
    | cons call done =>
      obtain ⟨rfl, htail⟩ := List.cons_prefix_cons.1 hdone
      obtain ⟨n, hn⟩ := h.restsOn_inner hv htail
      exact ⟨hn.transforms.suffix, hn.materials.suffix⟩
  · -- without a line that writes to the scene the whole session is as before
    have hsession : s.after (opening :: inner ++ [closing]) = s := by
      obtain ⟨hvocabulary, hpolicy⟩ := s.after_keeps (opening :: inner ++ [closing])
      have hsame := scene_after _ hv hscene
      generalize s.after (opening :: inner ++ [closing]) = t at *
      obtain ⟨⟨scene, frames⟩, vocabulary, policy⟩ := t
      obtain ⟨⟨scene', frames'⟩, vocabulary', policy'⟩ := s
      simp only at hvocabulary hpolicy hsame hframes
      rw [hvocabulary, hpolicy, hsame, hframes]
    obtain ⟨hafter, hresults⟩ := after_renumber hv hlater
    rw [after_append, hsession, hafter]
    exact ⟨rfl, hresults⟩

/-- A group with a group in it and a line that fails. -/
theorem group_restores_frames_nested :
    let s : Session Float := .start {}
    let inner := [(2, "refraction 1 1 1 1.5"), (3, "group"), (4, "material 1"), (5, "groupend")]
    s.vocabulary.OfCommands ∧ s.ClosedGroup (1, "group") inner (6, "groupend") ∧
      (s.readLine 4 "material 1").result.isOk = false ∧
      (s.after ((1, "group") :: inner ++ [(6, "groupend")])).workspace.frames = s.workspace.frames ∧
      ∀ later, (s.after ((1, "group") :: inner ++ [(6, "groupend")] ++ later)).workspace.scene =
        (s.after later).workspace.scene := by
  intro s inner
  have hv : s.vocabulary.OfCommands := Vocabulary.ofCommands_standard
  have hgroup : ClosedGroup s (1, "group") inner (6, "groupend") := by
    refine ⟨⟨"group", [], by decide +kernel, rfl⟩, ⟨"groupend", [], by decide +kernel, rfl⟩,
      by decide +kernel, fun done call hpre _ => ?_⟩
    have hdepth : ∀ n ∈ List.range 5, 0 < n →
        (s.after ((1, "group") :: inner.take n)).workspace.frames.depth ≠ s.workspace.frames.depth := by
      decide +kernel
    rw [List.prefix_iff_eq_take.1 hpre]
    exact hdepth _ (List.mem_range.2 (Nat.lt_succ_of_le hpre.length_le)) (by simp)
  obtain ⟨-, hframes, hscene⟩ := group_restores_frames hv hgroup
  refine ⟨hv, hgroup, by decide +kernel, hframes, fun later => (hscene ?_ later later rfl).1⟩
  have hnames : ∀ call ∈ (1, "group") :: inner ++ [(6, "groupend")], ∀ c ∈ Command.all,
      c.writesScene = true → (statement? call.2).map Prod.fst ≠ some c.name := by
    decide +kernel
  intro call hcall c hc
  rw [asks_iff_of_standard rfl]
  exact hnames call hcall c c.mem_all hc

end Session

end SceneScript.Script
