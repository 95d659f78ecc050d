/-
Commands by their signatures: the kinds of a command's arguments, the leftmost argument that is
wrong, and the directives that the values of the arguments make up. Nothing here depends on a
scene or on frames. Carrying out a command is reading its signature first and its directives
next (`perform_action`); only `view` has begun something when an argument is wrong.
-/
import SceneScript.Script.Session
namespace SceneScript.Script

open Space Number

/-! ## Steps -/

namespace Performing

variable {α γ : Type} [Scalar α]

theorem forM_singleton (reader : Reader (Directive α)) (e : Execution α) :
    [reader].forM step e = step reader e := by
  show (forM [reader] step : Action α) e = _
  rw [List.forM_cons, Attempt.bind_apply]
  rcases step reader e with ⟨_ | ⟨⟩, next⟩ <;> rfl

/-- A step that reads one value for a directive that is never refused. -/
theorem step_value [FromWord γ] {wrap : γ → Directive α}
    (hw : ∀ c line frames, (wrap c).fault? line frames = none) (line : Nat) (name : String)
    (taken : Nat) (words : List String) (w : Workspace α) :
    step (Reader.value γ >>= fun c => pure (wrap c)) ⟨⟨line, name, taken, words⟩, w⟩ =
      match words with
      | [] => (.error (.missingArgument line name (taken + 1)), ⟨⟨line, name, taken, []⟩, w⟩)
      | word :: rest =>
        match (ofWord? word : Option γ) with
        | none => (.error (.notANumber line name word), ⟨⟨line, name, taken + 1, rest⟩, w⟩)
        | some c => (.ok (), ⟨⟨line, name, taken + 1, rest⟩, (wrap c).apply w⟩) := by
  cases words with
  | nil =>
    exact step_of_error (Attempt.bind_of_error (Reader.value_nil line name taken) _)
  | cons word rest =>
    cases hc : (ofWord? word : Option γ) with
    | none =>
      have hv := Reader.value_cons_of_none line name taken rest hc
      rw [step_of_error (e := ⟨_, w⟩) (Attempt.bind_of_error hv _)]
      simp only [hc]
    | some c =>
      have hv := Reader.value_cons_of_some line name taken rest hc
      rw [step_of_ok (e := ⟨_, w⟩) (Attempt.bind_of_ok hv _)]
      simp only [carryOut, hw, hc]

end Performing

/-! ## Arguments by their kinds -/

inductive Kind where
  | integer
  | number
deriving Repr, DecidableEq

inductive Value (α : Type) where
  | integer (n : Int32)
  | number (x : α)
deriving Repr, DecidableEq

/-- What is wrong with an argument: there is no word for it, or its word is no number of its kind. -/
inductive Flaw where
  | missing (position : Nat)
  | notANumber (word : String)
deriving Repr, DecidableEq

/-- The fault of a line whose command has a flawed argument. -/
def Flaw.fault (line : Nat) (command : String) : Flaw → Fault
  | missing position => .missingArgument line command position
  | notANumber word => .notANumber line command word

theorem Flaw.fault_injective (line : Nat) (command : String) :
    Function.Injective (Flaw.fault line command) := by
  rintro (_ | _) (_ | _) h <;> cases h <;> rfl

variable {α β γ : Type} [FromWord α]

/-- The value that a word stands for as an argument of a kind. -/
def Kind.read? : Kind → String → Option (Value α)
  | integer, word => (ofWord? word : Option Int32).map .integer
  | number, word => (ofWord? word : Option α).map .number

/-- The values of the first words, one for each kind, or what is wrong with the leftmost argument
that is wrong; further words are not looked at. `taken` words stand in front. -/
def readValues (taken : Nat) : List Kind → List String → Except Flaw (List (Value α))
  | [], _ => .ok []
  | _ :: _, [] => .error (.missing (taken + 1))
  | kind :: kinds, word :: words =>
    match kind.read? word with
    | none => .error (.notANumber word)
    | some value => (readValues (taken + 1) kinds words).map (value :: ·)

variable (α) in
/-- The flaw of the leftmost argument that is wrong: the arguments before it are numbers of their
kinds, and there is no word for it or its word is no number of its kind. -/
def LeftmostFlaw (taken : Nat) (kinds : List Kind) (words : List String) (flaw : Flaw) : Prop :=
  ∃ n kind, kinds[n]? = some kind ∧
    (∀ m < n, ∃ k word, ∃ v : Value α,
      kinds[m]? = some k ∧ words[m]? = some word ∧ k.read? word = some v) ∧
    (words[n]? = none ∧ flaw = .missing (taken + n + 1) ∨
      ∃ word, words[n]? = some word ∧ (kind.read? word : Option (Value α)) = none ∧
        flaw = .notANumber word)

theorem readValues_eq_error_iff {taken : Nat} {kinds : List Kind} {words : List String} {flaw : Flaw} :
    (readValues taken kinds words : Except Flaw (List (Value α))) = .error flaw ↔
      LeftmostFlaw α taken kinds words flaw := by
  unfold LeftmostFlaw
  fun_induction readValues (α := α) taken kinds words with
  | case1 => simp
  | case2 taken kind kinds =>
    constructor
    · rintro ⟨⟩
      exact ⟨0, kind, rfl, nofun, .inl ⟨rfl, rfl⟩⟩
    · rintro ⟨n, k, hk, hbefore, h⟩
      cases n with
      | zero =>
        rcases h with ⟨-, rfl⟩ | ⟨word, hword, -⟩
        · rfl
        · cases hword
      | succ n =>
        obtain ⟨_, _, _, _, hword, _⟩ := hbefore 0 (by omega)
        cases hword
  | case3 taken kind kinds word words hread =>
    constructor
    · rintro ⟨⟩
      exact ⟨0, kind, rfl, nofun, .inr ⟨word, rfl, hread, rfl⟩⟩
    · rintro ⟨n, k, hk, hbefore, h⟩
      cases n with
      | zero =>
        cases hk
        rcases h with ⟨hword, -⟩ | ⟨word', hword, -, rfl⟩
        · cases hword
        · cases hword
          rfl
      | succ n =>
        obtain ⟨k', word', v, hk', hword', hv⟩ := hbefore 0 (by omega)
        cases hk'
        cases hword'
        rw [hread] at hv
        cases hv
  | case4 taken kind kinds word words value hread ih =>
    have hmap : (readValues (α := α) (taken + 1) kinds words).map (value :: ·) = .error flaw ↔
        readValues (α := α) (taken + 1) kinds words = .error flaw := by
      cases readValues (α := α) (taken + 1) kinds words <;> simp [Except.map]
    rw [hmap, ih]
    constructor
    · rintro ⟨n, k, hk, hbefore, h⟩
      refine ⟨n + 1, k, hk, fun m hm => ?_, ?_⟩
      · cases m with
        | zero => exact ⟨kind, word, value, rfl, rfl, hread⟩
        | succ m => exact hbefore m (by omega)
      · simpa [Nat.add_assoc, Nat.add_comm 1] using h
    · rintro ⟨n, k, hk, hbefore, h⟩
      cases n with
      | zero =>
        cases hk
        rcases h with ⟨hword, -⟩ | ⟨word', hword, hnone, -⟩
        · cases hword
        · cases hword
          rw [hread] at hnone
          cases hnone
      | succ n =>
        refine ⟨n, k, hk, fun m hm => hbefore (m + 1) (by omega), ?_⟩
        simpa [Nat.add_assoc, Nat.add_comm 1] using h

/-- `reader` takes one word for each kind, and what it gives is in the relation `P` to their values. -/
def Reads (reader : Reader β) (kinds : List Kind) (P : List (Value α) → β → Prop) : Prop :=
  ∀ args : Arguments,
    match readValues args.taken kinds args.rest with
    | .error flaw => ∃ left, reader args = (.error (flaw.fault args.line args.command), left)
    | .ok values => ∃ b, P values b ∧ reader args =
        (.ok b, { args with taken := args.taken + kinds.length, rest := args.rest.drop kinds.length })

theorem reads_pure {b : β} {P : List (Value α) → β → Prop} (h : P [] b) : Reads (pure b) [] P :=
  fun _ => ⟨b, h, rfl⟩

theorem reads_value [FromWord γ] {kind : Kind} {wrap : γ → Value α} {kinds : List Kind}
    {P : List (Value α) → β → Prop} {f : γ → Reader β}
    (hk : ∀ word, kind.read? word = (ofWord? word).map wrap)
    (h : ∀ c, Reads (f c) kinds fun values b => P (wrap c :: values) b) :
    Reads (Reader.value γ >>= f) (kind :: kinds) P := by
  rintro ⟨line, command, taken, rest⟩
  cases rest with
  | nil => exact ⟨_, Attempt.bind_of_error (Reader.value_nil line command taken) f⟩
  | cons word rest =>
    simp only [readValues, hk]
    cases hw : (ofWord? word : Option γ) with
    | none =>
      exact ⟨_, Attempt.bind_of_error (Reader.value_cons_of_none line command taken rest hw) f⟩
    | some c =>
      have hb := Attempt.bind_of_ok (Reader.value_cons_of_some line command taken rest hw) f
      have hf := h c ⟨line, command, taken + 1, rest⟩
      simp only [Option.map_some]
      -- the rest of the reader starts behind this word
      cases hr : (readValues (taken + 1) kinds rest : Except Flaw (List (Value α))) with
      | error flaw =>
        rw [hr] at hf
        obtain ⟨left, hf⟩ := hf
        exact ⟨left, hb.trans hf⟩
      | ok values =>
        rw [hr] at hf
        obtain ⟨b, hP, hf⟩ := hf
        refine ⟨b, hP, (hb.trans hf).trans ?_⟩
        simp [Nat.add_assoc, Nat.add_comm 1]

theorem reads_number {kinds : List Kind} {P : List (Value α) → β → Prop} {f : α → Reader β}
    (h : ∀ x, Reads (f x) kinds fun values b => P (.number x :: values) b) :
    Reads (Reader.value α >>= f) (.number :: kinds) P :=
  reads_value (fun _ => rfl) h

theorem reads_vector {kinds : List Kind} {P : List (Value α) → β → Prop} {f : Vec3 α → Reader β}
    (h : ∀ x y z, Reads (f ⟨x, y, z⟩) kinds fun values b =>
      P (.number x :: .number y :: .number z :: values) b) :
    Reads (Reader.vector α >>= f) (.number :: .number :: .number :: kinds) P := by
  simp only [Reader.vector, bind_assoc, pure_bind]
  exact reads_number fun x => reads_number fun y => reads_number fun z => h x y z

/-! ## Commands -/

namespace Command

/-- The kinds of the arguments of a command. -/
def kinds : Command → List Kind
  | view => [.integer, .number]
  | background | ambient | move | scale => .replicate 3 .number
  | refraction | rotate => .replicate 4 .number
  | light => .replicate 6 .number
  | material => .replicate 7 .number
  | group | groupend | sphere | texture => []

/-- What a command asks for, given the values of its arguments. -/
def directives [Scalar α] : Command → List (Value α) → List (Directive α)
  | view, [.integer size, .number distance] => [.imageSize size, .cornerDistance distance]
  | background, [.number r, .number g, .number b] => [.background ⟨r, g, b⟩]
  | ambient, [.number r, .number g, .number b] => [.ambient ⟨r, g, b⟩]
  | light, [.number r, .number g, .number b, .number x, .number y, .number z] =>
    [.light { position := ⟨x, y, z⟩, color := ⟨r, g, b⟩ }]
  | group, _ => [.openGroup]
  | groupend, _ => [.closeGroup]
  | sphere, _ => [.sphere]
  | material, [.number dr, .number dg, .number db, .number sr, .number sg, .number sb, .number s] =>
    [.material
      { diffuse := ⟨dr, dg, db⟩, specular := ⟨sr, sg, sb⟩, shininess := s, refraction := ⟨0, 0, 0⟩,
        refractiveIndex := 0 }]
  | refraction, [.number r, .number g, .number b, .number index] => [.refraction ⟨r, g, b⟩ index]
  | move, [.number x, .number y, .number z] => [.move ⟨x, y, z⟩]
  | scale, [.number x, .number y, .number z] => [.scale ⟨x, y, z⟩]
  | rotate, [.number degrees, .number x, .number y, .number z] => [.rotate degrees ⟨x, y, z⟩]
  | texture, _ => [.skip]
  | _, _ => []

/-- What a command with these argument words asks for, or what is wrong with them. -/
def read [Scalar α] (c : Command) (words : List String) : Except Flaw (List (Directive α)) :=
  (readValues 0 c.kinds words).map c.directives

/-- What a command has done when one of its arguments turns out to be flawed: `view` has set the
size if that is not the flawed one. -/
def begun [Scalar α] (c : Command) (words : List String) (w : Workspace α) : Workspace α :=
  match c, words with
  | view, word :: _ =>
    match (ofWord? word : Option Int32) with
    | some size => (Directive.imageSize size).apply w
    | none => w
  | _, _ => w

/-- What comes of a command: its arguments are read first, then its directives are carried out
unless one of them is refused. -/
def outcome [Scalar α] (c : Command) (line : Nat) (name : String) (words : List String)
    (w : Workspace α) : Except Fault Unit × Workspace α :=
  match (c.read words : Except Flaw (List (Directive α))) with
  | .error flaw => (.error (flaw.fault line name), c.begun words w)
  | .ok ds =>
    match ds.findSome? (Directive.fault? line w.frames) with
    | some fault => (.error fault, w)
    | none => (.ok (), ds.foldl Directive.apply w)

variable [Scalar α]

omit [FromWord α] in
theorem begun_of_ne {c : Command} (hc : c ≠ view) (words : List String) (w : Workspace α) :
    c.begun words w = w := by
  unfold begun
  split
  · exact absurd rfl hc
  · rfl

/-- Every command but `view` is one step, which reads the signature of the command. -/
theorem steps_eq (c : Command) (hc : c ≠ view) :
    ∃ reader : Reader (Directive α), c.steps = [reader] ∧
      Reads reader c.kinds fun values d => c.directives values = [d] := by
  cases c with
  | view => exact absurd rfl hc
  | background => exact ⟨_, rfl, reads_vector fun _ _ _ => reads_pure rfl⟩
  | ambient => exact ⟨_, rfl, reads_vector fun _ _ _ => reads_pure rfl⟩
  | light =>
    exact ⟨_, rfl, reads_vector fun _ _ _ => reads_vector fun _ _ _ => reads_pure rfl⟩
  | group => exact ⟨_, rfl, reads_pure rfl⟩
  | groupend => exact ⟨_, rfl, reads_pure rfl⟩
  | sphere => exact ⟨_, rfl, reads_pure rfl⟩
  | material =>
    exact ⟨_, rfl, reads_vector fun _ _ _ => reads_vector fun _ _ _ => reads_number fun _ =>
      reads_pure rfl⟩
  | refraction => exact ⟨_, rfl, reads_vector fun _ _ _ => reads_number fun _ => reads_pure rfl⟩
  | move => exact ⟨_, rfl, reads_vector fun _ _ _ => reads_pure rfl⟩
  | scale => exact ⟨_, rfl, reads_vector fun _ _ _ => reads_pure rfl⟩
  | rotate => exact ⟨_, rfl, reads_number fun _ => reads_vector fun _ _ _ => reads_pure rfl⟩
  | texture => exact ⟨_, rfl, reads_pure rfl⟩

/-- What `view` does with its first argument is not undone when the second one is flawed. -/
theorem action_view (line : Nat) (name : String) (words : List String) (w : Workspace α) :
    ∃ left, action view ⟨.ofWords line name words, w⟩ =
      ((view.outcome line name words w).1, ⟨left, (view.outcome line name words w).2⟩) := by
  have haction : (action view : Action α) =
      Performing.step (Reader.value Int32 >>= fun size => pure (Directive.imageSize size)) >>=
        fun _ => [Reader.value α >>= fun x => pure (Directive.cornerDistance x)].forM
          Performing.step := rfl
  rw [haction, Attempt.bind_apply, Arguments.ofWords, Performing.step_value fun _ _ _ => rfl]
  simp only [outcome, read, kinds]
  cases words with
  | nil => exact ⟨_, rfl⟩
  | cons word words =>
    simp only [readValues, Kind.read?, begun]
    cases (ofWord? word : Option Int32) with
    | none => exact ⟨_, rfl⟩
    | some size =>
      simp only [Performing.forM_singleton]
      rw [Performing.step_value fun _ _ _ => rfl]
      cases words with
      | nil => exact ⟨_, rfl⟩
      | cons word words =>
        simp only [readValues, Kind.read?]
        cases (ofWord? word : Option α) with
        | none => exact ⟨_, rfl⟩
        | some distance => exact ⟨_, rfl⟩

theorem action_eq (c : Command) (line : Nat) (name : String) (words : List String)
    (w : Workspace α) :
    ∃ left, c.action ⟨.ofWords line name words, w⟩ =
      ((c.outcome line name words w).1, ⟨left, (c.outcome line name words w).2⟩) := by
  by_cases hc : c = view
  · subst hc
    exact action_view line name words w
  obtain ⟨reader, hsteps, hreads⟩ := c.steps_eq (α := α) hc
  have hread := hreads ⟨line, name, 0, words⟩
  rw [action, hsteps, Performing.forM_singleton, outcome, read, Arguments.ofWords]
  cases hv : (readValues 0 c.kinds words : Except Flaw (List (Value α))) with
  | error flaw =>
    simp only [hv] at hread
    obtain ⟨left, hread⟩ := hread
    refine ⟨left, ?_⟩
    rw [Performing.step_of_error (e := ⟨_, w⟩) hread]
    simp only [Except.map, begun_of_ne hc]
  | ok values =>
    simp only [hv] at hread
    obtain ⟨d, hd, hread⟩ := hread
    rw [Performing.step_of_ok (e := ⟨_, w⟩) hread, Performing.carryOut]
    simp only [Except.map, hd, List.findSome?_singleton, List.foldl_cons, List.foldl_nil]
    cases d.fault? line w.frames with
    | none => exact ⟨_, rfl⟩
    | some fault => exact ⟨_, rfl⟩

end Command

/-- Carrying out a command with the words of a line changes the workspace as its outcome says. -/
theorem perform_action [Scalar α] (c : Command) (s : Session α) (line : Nat) (name : String)
    (words : List String) :
    s.perform c.action (.ofWords line name words) =
      ((c.outcome line name words s.workspace).1,
        { s with workspace := (c.outcome line name words s.workspace).2 }) := by
  obtain ⟨left, h⟩ := c.action_eq line name words s.workspace
  simp only [Session.perform, h]

end SceneScript.Script
