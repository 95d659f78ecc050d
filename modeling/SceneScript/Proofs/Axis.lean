/-
Axes without a direction. In binary64 a rotation is refused if the sum of the squares of its axis comes out
as zero or as no finite number (`hasDirection_iff`). That is so for the axes that are zero or not finite, but
for others too: the squares of small components are rounded to zero, and those of large ones are infinite.
-/
import SceneScript.Proofs.Rotation
import SceneScript.Proofs.Squares
namespace SceneScript.Space

open Number

/-! ## Directions -/

section
variable (axis : Vec3 Float)

theorem normSq_spec :
    Unsigned (unpacked axis.normSq) ∧
      (isZero (unpacked axis.normSq) = true ↔ ∀ c ∈ axis.toList, isZero (unpacked (c * c)) = true) ∧
      (axis.normSq.isFinite = true → ∀ c ∈ axis.toList, (c * c).isFinite = true) := by
  obtain ⟨x, y, z⟩ := axis
  obtain ⟨hxy, hxy0, hxyf⟩ := add_spec (unsigned_mul_self x) (unsigned_mul_self y)
  obtain ⟨hxyz, hxyz0, hxyzf⟩ := add_spec hxy (unsigned_mul_self z)
  simp only [Vec3.toList, List.forall_mem_cons, List.not_mem_nil, false_implies, implies_true, and_true]
  refine ⟨hxyz, ?_, fun hfinite => ?_⟩
  · exact hxyz0.trans ((and_congr_left' hxy0).trans and_assoc)
  · obtain ⟨hxy', hz⟩ := hxyzf hfinite
    exact ⟨(hxyf hxy').1, (hxyf hxy').2, hz⟩

theorem isFinite_of_normSq {axis : Vec3 Float} (h : axis.normSq.isFinite = true) :
    ∀ c ∈ axis.toList, c.isFinite = true :=
  fun c hc => isFinite_of_mul_self ((normSq_spec axis).2.2 h c hc)

/-- The length is zero or not finite as the sum of the squares is. -/
theorem hasDirection_eq :
    hasDirection axis = (!isZero (unpacked axis.normSq) && axis.normSq.isFinite) := by
  obtain ⟨hzero, hfinite⟩ := sqrt_spec (normSq_spec axis).1
  have hbeq := beq_of_zero (z := Scalar.toZero.zero) rfl axis.norm
  show (!(axis.norm == Scalar.toZero.zero || !axis.norm.isFinite)) = _
  rw [hbeq, Bool.not_or, Bool.not_not]
  exact congrArg₂ (fun zero finite => !zero && finite) hzero hfinite

/-- A direction is what can be told from the squares: their sum must be finite, and one of them must not be
rounded to zero. -/
theorem hasDirection_iff :
    hasDirection axis = true ↔
      axis.normSq.isFinite = true ∧ ∃ c ∈ axis.toList, 2 ^ (-1075 : Int) < magnitudeOf c ^ 2 := by
  rw [hasDirection_eq, Bool.and_eq_true, and_comm]
  refine and_congr_right fun hfinite => ?_
  have hsquare : ∀ c ∈ axis.toList,
      (isZero (unpacked (c * c)) = true ↔ ¬ 2 ^ (-1075 : Int) < magnitudeOf c ^ 2) := fun c hc => by
    rw [isZero_mul_self_iff (isFinite_of_normSq hfinite c hc), not_lt]
  rw [Bool.not_eq_true', ← Bool.not_eq_true, (normSq_spec axis).2.1, forall₂_congr hsquare]
  push Not
  rfl

/-- No component of up to `2 ^ 510` makes the sum of the squares infinite. -/
theorem isFinite_normSq_of_le (h : ∀ c ∈ axis.toList, c.isFinite = true ∧ magnitudeOf c ≤ 2 ^ (510 : Int)) :
    axis.normSq.isFinite = true := by
  obtain ⟨x, y, z⟩ := axis
  have hsquare : ∀ c ∈ [x, y, z], (c * c).isFinite = true ∧ magnitudeOf (c * c) ≤ 2 ^ (510 + 510 : Int) :=
    fun c hc => magnitudeOf_mul_self_le (h c hc).1 (by decide) (by decide) (h c hc).2
  obtain ⟨hx, hy, hz, -⟩ : _ ∧ _ ∧ _ ∧ True := by
    simpa only [List.forall_mem_cons, List.not_mem_nil, false_implies, implies_true] using hsquare
  have hux := unsigned_mul_self x
  have huy := unsigned_mul_self y
  obtain ⟨hxy, hxy'⟩ := magnitudeOf_add_le hux huy hx.1 hy.1 (by decide) (by decide) hx.2 hy.2
  have hz' : magnitudeOf (z * z) ≤ 2 ^ (510 + 510 + 1 : Int) :=
    hz.2.trans (zpow_le_zpow_right₀ one_le_two (by decide))
  exact (magnitudeOf_add_le (add_spec hux huy).1 (unsigned_mul_self z) hxy hz.1 (by decide) (by decide)
    hxy' hz').1

/-- Any component from `2 ^ 512` on does. -/
theorem not_isFinite_normSq (h : ∃ c ∈ axis.toList, 2 ^ (512 : Int) ≤ magnitudeOf c) :
    axis.normSq.isFinite = false := by
  obtain ⟨c, hc, hlarge⟩ := h
  refine Bool.eq_false_iff.2 fun hfinite => ?_
  have hsquare := (normSq_spec axis).2.2 hfinite c hc
  rw [not_isFinite_mul_self hlarge] at hsquare
  cases hsquare

end

end SceneScript.Space

namespace SceneScript.Script

open Space Number

namespace Session

/-! ## Lines that turn -/

/-- A line turns what is placed about an axis: four numbers follow its command, and the axis is the last
three of them. -/
def TurnsAbout {α : Type} [Scalar α] [FromWord α] (s : Session α) (line : String) (axis : Vec3 α) : Prop :=
  ∃ word first words, statement? line = some (word, first :: words) ∧
    s.vocabulary.find? word = some Command.rotate.action ∧ (ofWord? first : Option α).isSome = true ∧
    vector? words = some axis

theorem TurnsAbout.readLine_result {α : Type} [Scalar α] [FromWord α] {s : Session α} {line : String}
    {axis : Vec3 α} (h : s.TurnsAbout line axis) (number : Nat) :
    (s.readLine number line).result =
      if hasDirection axis = true then .ok () else .error (.noAxis number) := by
  obtain ⟨word, first, words, hs, hf, hfirst, haxis⟩ := h
  obtain ⟨degrees, hdegrees⟩ := Option.isSome_iff_exists.1 hfirst
  obtain ⟨wx, wy, wz, rest, rfl⟩ : ∃ wx wy wz rest, words = wx :: wy :: wz :: rest := by
    unfold vector? at haxis
    split at haxis
    · exact ⟨_, _, _, _, rfl⟩
    · cases haxis
  simp only [vector?, Option.bind_eq_bind, Option.bind_eq_some_iff, Option.pure_def, Option.some.injEq] at haxis
  obtain ⟨x, hx, y, hy, z, hz, rfl⟩ := haxis
  have hread : Command.rotate.read (first :: wx :: wy :: wz :: rest) =
      .ok [Directive.rotate degrees ⟨x, y, z⟩] := by
    simp only [Command.read, Command.kinds, List.replicate, readValues, Kind.read?, hdegrees, hx, hy, hz,
      Option.map_some]
    rfl
  rw [readLine_of_action hs hf, perform_action, Command.outcome, hread]
  simp only [List.findSome?_singleton, Directive.fault?]
  cases hasDirection ⟨x, y, z⟩ <;> rfl

/-- When a rotation is refused. An axis that is zero or not finite always is. Exactly refused is an axis
whose squares all are at most half the least positive number, so that they are rounded to zero, or whose
squares have no finite sum; components of up to `2 ^ 510` have one, a component from `2 ^ 512` on has none. A
line with four numbers fails for its axis if and only if the rotation about it is refused. -/
theorem turning_refused (t : Mat4 Float) (angle : Float) (axis : Vec3 Float) :
    ((∀ c ∈ axis.toList, (c == 0) = true) ∨ (∃ c ∈ axis.toList, c.isFinite = false) →
      rotate? t angle axis = none) ∧
    (rotate? t angle axis = none ↔
      (∀ c ∈ axis.toList, magnitudeOf c ^ 2 ≤ 2 ^ (-1075 : Int)) ∨ axis.normSq.isFinite = false) ∧
    ((∀ c ∈ axis.toList, c.isFinite = true ∧ magnitudeOf c ≤ 2 ^ (510 : Int)) →
      axis.normSq.isFinite = true) ∧
    ((∃ c ∈ axis.toList, 2 ^ (512 : Int) ≤ magnitudeOf c) → axis.normSq.isFinite = false) ∧
    ∀ (s : Session Float) (number : Nat) (line : String), s.TurnsAbout line axis →
      ((s.readLine number line).result = .error (.noAxis number) ↔ rotate? t angle axis = none) := by
  have hnone : rotate? t angle axis = none ↔ hasDirection axis = false := by
    rw [← isSome_rotate? t angle axis, Option.isSome_eq_false_iff, Option.isNone_iff_eq_none]
  have hexact : rotate? t angle axis = none ↔
      (∀ c ∈ axis.toList, magnitudeOf c ^ 2 ≤ 2 ^ (-1075 : Int)) ∨ axis.normSq.isFinite = false := by
    rw [hnone, ← Bool.not_eq_true, hasDirection_iff, not_and_or, Bool.not_eq_true, or_comm]
    push Not
    rfl
  refine ⟨fun hzero => hexact.2 ?_, hexact, isFinite_normSq_of_le axis, not_isFinite_normSq axis,
    fun s number line hline => ?_⟩
  · rcases hzero with hzero | ⟨c, hc, hinfinite⟩
    · refine .inl fun c hc => ?_
      rw [magnitudeOf_of_beq_zero (hzero c hc)]
      positivity
    · refine .inr (Bool.eq_false_iff.2 fun hfinite => ?_)
      rw [isFinite_of_normSq hfinite c hc] at hinfinite
      cases hinfinite
  · rw [hline.readLine_result, hnone]
    cases hasDirection axis
    · exact iff_of_true rfl rfl
    · exact iff_of_false nofun nofun

/-- A zero axis, a small one, which a line asks for too, one of a common length and a large one. -/
theorem turning_refused_small :
    rotate? Mat4.identity 1 (⟨0, -0, 0⟩ : Vec3 Float) = none ∧
    rotate? Mat4.identity 1 (⟨0, 0, 1e-200⟩ : Vec3 Float) = none ∧
    (⟨3, -4, 12⟩ : Vec3 Float).normSq.isFinite = true ∧
    (⟨1e200, 1, 0⟩ : Vec3 Float).normSq.isFinite = false ∧
    ((start {} : Session Float).readLine 1 "rotate 45 0 0 1e-200").result = .error (.noAxis 1) := by
  obtain ⟨hzero, -⟩ := turning_refused Mat4.identity 1 ⟨0, -0, 0⟩
  obtain ⟨-, hsmall, -, -, hline⟩ := turning_refused Mat4.identity 1 ⟨0, 0, 1e-200⟩
  obtain ⟨-, -, hcommon, -⟩ := turning_refused Mat4.identity 1 ⟨3, -4, 12⟩
  obtain ⟨-, -, -, hlarge, -⟩ := turning_refused Mat4.identity 1 ⟨1e200, 1, 0⟩
  have hnone := hsmall.2 (.inl (by decide +kernel))
  refine ⟨hzero (.inl (by decide +kernel)), hnone, hcommon (by decide +kernel), hlarge (by decide +kernel),
    (hline (start {}) 1 "rotate 45 0 0 1e-200" ?_).2 hnone⟩
  exact ⟨"rotate", "45", ["0", "0", "1e-200"], by decide +kernel,
    Vocabulary.find?_standard_name Command.rotate, by decide +kernel, by decide +kernel⟩

/-- So a finite axis other than zero may be refused, being too small, and a line may fail for one, being too
large. -/
theorem not_forall_turning_of_ne_zero :
    (¬ ∀ (t : Mat4 Float) (angle : Float) (axis : Vec3 Float), (∀ c ∈ axis.toList, c.isFinite = true) →
      (∃ c ∈ axis.toList, (c == 0) = false) → (rotate? t angle axis).isSome = true) ∧
    ¬ ∀ (s : Session Float) (number : Nat) (line : String) (axis : Vec3 Float), s.TurnsAbout line axis →
      (∀ c ∈ axis.toList, c.isFinite = true) → (∃ c ∈ axis.toList, (c == 0) = false) →
      (s.readLine number line).result ≠ .error (.noAxis number) := by
  refine ⟨fun h => ?_, fun h => ?_⟩
  · have hsome := h Mat4.identity 1 ⟨0, 0, 1e-200⟩ (by decide +kernel) (by decide +kernel)
    rw [isSome_rotate?] at hsome
    exact absurd hsome (by decide +kernel)
  · refine h (start {}) 1 "rotate 45 1e200 1 0" ⟨1e200, 1, 0⟩ ?_ (by decide +kernel) (by decide +kernel)
      (by decide +kernel)
    exact ⟨"rotate", "45", ["1e200", "1", "0"], by decide +kernel,
      Vocabulary.find?_standard_name Command.rotate, by decide +kernel, by decide +kernel⟩

end Session

end SceneScript.Script
