/-
Reads of arguments, one after the other on one line, the caller going on after failures. The words that
reads take, put together, are the words at the front of the line, each taken once (`reads_take`). A read
takes as many words as it gives values; one that is refused has taken the words up to the first that
stands for no value, so the next read starts behind that word; and one that finds too few words has taken
them all, after which every read fails in the same way.
-/
import Mathlib.Control.Monad.Basic
import SceneScript.Script.Arguments
namespace SceneScript.Script

open Space Number

/-! ## Reads -/

/-- How many values a read is for: one, or the three of a vector or a point. -/
inductive Shape where
  | single
  | triple
deriving Repr, DecidableEq

def Shape.count : Shape → Nat
  | single => 1
  | triple => 3

/-- A read of values of any type. -/
structure Read where
  Item : Type
  [fromWord : FromWord Item]
  shape : Shape

attribute [instance] Read.fromWord

namespace Read

/-- The values of a read in order. -/
def reader (r : Read) : Reader (List r.Item) :=
  match r.shape with
  | .single => do return [← Reader.value r.Item]
  | .triple => do return (← Reader.vector r.Item).toList

/-- The arguments behind a row of reads, whatever came of each of them. -/
def behind (args : Arguments) (reads : List Read) : Arguments :=
  reads.foldl (fun args r => (r.reader args).2) args

end Read

/-- A read in a row of reads: where it starts, what comes of it and where it ends. -/
structure Passage where
  read : Read
  start : Arguments
  result : Except Fault (List read.Item)
  stop : Arguments

namespace Passage

/-- The reads of a row, each starting where the one before it ended. -/
def row : Arguments → List Read → List Passage
  | _, [] => []
  | args, r :: reads => ⟨r, args, (r.reader args).1, (r.reader args).2⟩ :: row (r.reader args).2 reads

/-- The words of a line that a read takes. -/
def taken (words : List String) (p : Passage) : List String := words.extract p.start.taken p.stop.taken

end Passage

/-! ## The words of one read -/

/-- What comes of a read of `count` values of a type, by the words that it takes and those that are left
behind it, on a line of `total` words. -/
inductive Takes (line : Nat) (command : String) (total : Nat) {β : Type} [FromWord β] (count : Nat) :
    List String → List String → Except Fault (List β) → Prop
  /-- As many words as there are values, in order. -/
  | values {taken left : List String} {items : List β} (hcount : items.length = count)
      (hitems : taken.map ofWord? = items.map some) : Takes line command total count taken left (.ok items)
  /-- The first word that stands for no value is the last one taken. -/
  | refused (good : List String) {left : List String} {bad : String} (hcount : good.length < count)
      (hgood : ∀ word ∈ good, (ofWord? word : Option β).isSome) (hbad : (ofWord? bad : Option β) = none) :
      Takes line command total count (good ++ [bad]) left (.error (.notANumber line command bad))
  /-- All words stand for values, but there are too few of them. -/
  | exhausted {good : List String} (hcount : good.length < count)
      (hgood : ∀ word ∈ good, (ofWord? word : Option β).isSome) :
      Takes line command total count good [] (.error (.missingArgument line command (total + 1)))

namespace Reader

variable {β : Type} [FromWord β] (line : Nat) (command : String)

/-- The next words as values of a type. -/
def values (β : Type) [FromWord β] : Nat → Reader (List β)
  | 0 => pure []
  | count + 1 => do
    let b ← value β
    let bs ← values β count
    pure (b :: bs)

theorem value_eq_values : (do return [← value β]) = values β 1 := by
  simp only [values, pure_bind]

theorem vector_eq_values : (do return (← vector β).toList) = values β 3 := by
  simp only [vector, values, bind_assoc, pure_bind, Vec3.toList]

/-- A vector is read as three values are, up to the first that fails. -/
theorem vector_apply (args : Arguments) : vector β args =
    match value β args with
    | (.error fault, stop) => (.error fault, stop)
    | (.ok x, next) =>
      match value β next with
      | (.error fault, stop) => (.error fault, stop)
      | (.ok y, next) =>
        match value β next with
        | (.error fault, stop) => (.error fault, stop)
        | (.ok z, stop) => (.ok ⟨x, y, z⟩, stop) := by
  simp only [vector, Attempt.bind_apply, Attempt.pure_apply]
  rcases value β args with ⟨_ | x, next⟩
  · rfl
  dsimp only
  rcases value β next with ⟨_ | y, next⟩
  · rfl
  dsimp only
  rcases value β next with ⟨_ | z, stop⟩ <;> rfl

/-- Values are read off the front of the words, and the words taken are counted. -/
theorem values_takes : ∀ (count taken : Nat) (rest : List String),
    ∃ front left, rest = front ++ left ∧ ∃ result,
      values β count ⟨line, command, taken, rest⟩ = (result, ⟨line, command, taken + front.length, left⟩) ∧
      Takes line command (taken + rest.length) count front left result
  | 0, _, rest => ⟨[], rest, rfl, _, rfl, .values rfl rfl⟩
  | count + 1, taken, [] =>
    ⟨[], [], rfl, _, Attempt.bind_of_error (value_nil line command taken) _, .exhausted (by simp) nofun⟩
  | count + 1, taken, word :: rest => by
    cases hword : (ofWord? word : Option β) with
    | none =>
      exact ⟨[word], rest, rfl, _, Attempt.bind_of_error (value_cons_of_none line command taken rest hword) _,
        .refused [] (by simp) nofun hword⟩
    | some b =>
      have hsome : (ofWord? word : Option β).isSome := by rw [hword]; rfl
      obtain ⟨front, left, hrest, result, hvalues, htakes⟩ := values_takes count (taken + 1) rest
      have hrun := Attempt.bind_of_ok (value_cons_of_some line command taken rest hword) fun b => do
        let bs ← values β count
        pure (b :: bs)
      have hlength : taken + 1 + front.length = taken + (word :: front).length := by
        rw [List.length_cons]; omega
      have htotal : taken + 1 + rest.length = taken + (word :: rest).length := by
        rw [List.length_cons]; omega
      rw [hlength] at hvalues
      rw [htotal] at htakes
      refine ⟨word :: front, left, by rw [hrest, List.cons_append], ?_⟩
      cases htakes with
      | values hcount hitems =>
        refine ⟨_, hrun.trans (Attempt.bind_of_ok hvalues _), .values (by rw [List.length_cons, hcount]) ?_⟩
        rw [List.map_cons, List.map_cons, hword, hitems]
      | @refused good _ bad hcount hgood hbad =>
        exact ⟨_, hrun.trans (Attempt.bind_of_error hvalues _), .refused (word :: good)
          (by simpa using hcount) (List.forall_mem_cons.2 ⟨hsome, hgood⟩) hbad⟩
      | exhausted hcount hgood =>
        exact ⟨_, hrun.trans (Attempt.bind_of_error hvalues _), .exhausted (by simpa using hcount)
          (List.forall_mem_cons.2 ⟨hsome, hgood⟩)⟩

end Reader

/-! ## Reads in a row -/

variable (line : Nat) (command : String) {words : List String}

theorem Read.reader_eq_values (r : Read) : r.reader = Reader.values r.Item r.shape.count := by
  unfold reader
  cases r.shape with
  | single => exact Reader.value_eq_values
  | triple => exact Reader.vector_eq_values

/-- A read that starts behind the first `start` words of a line stops behind the first `stop` of them. -/
theorem Read.reader_takes (r : Read) {start : Nat} (h : start ≤ words.length) :
    ∃ stop result, start ≤ stop ∧ stop ≤ words.length ∧
      r.reader ⟨line, command, start, words.drop start⟩ = (result, ⟨line, command, stop, words.drop stop⟩) ∧
      Takes line command words.length r.shape.count (words.extract start stop) (words.drop stop) result := by
  obtain ⟨front, left, hwords, result, hread, htakes⟩ :=
    Reader.values_takes (β := r.Item) line command r.shape.count start (words.drop start)
  have htotal : start + (words.drop start).length = words.length := by rw [List.length_drop]; omega
  have hlength : start + (front.length + left.length) = words.length := by
    rw [← htotal, hwords, List.length_append]
  have hleft : left = words.drop (start + front.length) := by
    rw [← List.drop_drop, hwords, List.drop_left]
  have hfront : words.extract start (start + front.length) = front := by
    rw [List.extract_eq_take_drop, Nat.add_sub_cancel_left, hwords, List.take_left]
  rw [← r.reader_eq_values, hleft] at hread
  rw [htotal, hleft] at htakes
  refine ⟨start + front.length, result, by omega, by omega, hread, ?_⟩
  rw [hfront]
  exact htakes

/-- Where no word is left, a read fails and stays where it is. -/
theorem Read.reader_nil (r : Read) (taken : Nat) :
    r.reader ⟨line, command, taken, []⟩ =
      (.error (.missingArgument line command (taken + 1)), ⟨line, command, taken, []⟩) := by
  rw [reader_eq_values]
  cases r.shape <;> exact Attempt.bind_of_error (Reader.value_nil line command taken) _

namespace Passage

/-- Every read of a row takes the words between the place where it starts and the one where it stops. -/
theorem takes_of_mem_row {start : Nat} (hstart : start ≤ words.length) (reads : List Read) :
    ∀ p ∈ row ⟨line, command, start, words.drop start⟩ reads,
      p.start.rest = words.drop p.start.taken ∧ p.stop.taken ≤ words.length ∧
        Takes line command words.length p.read.shape.count (p.taken words) (words.drop p.stop.taken)
          p.result := by
  induction reads generalizing start with
  | nil => nofun
  | cons r reads ih =>
    obtain ⟨stop, result, -, hstop, hread, htakes⟩ := r.reader_takes line command hstart
    intro p hp
    rw [row, List.mem_cons, hread] at hp
    rcases hp with rfl | hp
    · exact ⟨rfl, hstop, htakes⟩
    · exact ih hstop p hp

/-- The words that the reads of a row take are those between its first place and its last one. -/
theorem flatten_taken_row {start : Nat} (hstart : start ≤ words.length) (reads : List Read) :
    ∃ stop, start ≤ stop ∧ stop ≤ words.length ∧
      (Read.behind ⟨line, command, start, words.drop start⟩ reads).taken = stop ∧
      ((row ⟨line, command, start, words.drop start⟩ reads).map (taken words)).flatten =
        words.extract start stop := by
  induction reads generalizing start with
  | nil => exact ⟨start, Nat.le_refl _, hstart, rfl, by simp [row, List.extract_eq_take_drop]⟩
  | cons r reads ih =>
    obtain ⟨middle, result, hmiddle, hmiddle', hread, -⟩ := r.reader_takes line command hstart
    obtain ⟨stop, hstop, hstop', hbehind, hflatten⟩ := ih hmiddle'
    refine ⟨stop, by omega, hstop', ?_, ?_⟩
    · rw [Read.behind, List.foldl_cons, hread]
      exact hbehind
    · rw [row, List.map_cons, List.flatten_cons, hread, hflatten]
      -- the words up to the middle, and from the middle on
      have hdrop : words.drop middle = (words.drop start).drop (middle - start) := by
        rw [List.drop_drop, Nat.add_sub_cancel' hmiddle]
      have hsplit : stop - start = middle - start + (stop - middle) := by omega
      simp only [taken, List.extract_eq_take_drop]
      rw [hdrop, hsplit, List.take_add]

/-- Where no word is left, every read of a row fails in the same way. -/
theorem result_of_mem_row_nil (taken : Nat) (reads : List Read) :
    ∀ p ∈ row ⟨line, command, taken, []⟩ reads,
      p.result = .error (.missingArgument line command (taken + 1)) := by
  induction reads with
  | nil => nofun
  | cons r reads ih =>
    intro p hp
    rw [row, List.mem_cons, r.reader_nil] at hp
    rcases hp with rfl | hp
    · rfl
    · exact ih p hp

/-- A read that finds too few words leaves none, so all later ones fail in the same way. -/
theorem result_of_exhausted {position : Nat} : ∀ (reads : List Read) {start : Nat}, start ≤ words.length →
    ∀ {earlier later : List Passage} {p : Passage},
      row ⟨line, command, start, words.drop start⟩ reads = earlier ++ p :: later →
      p.result = .error (.missingArgument line command position) →
      ∀ q ∈ later, q.result = .error (.missingArgument line command position)
  | [], _, _, earlier, _, _, hrow, _ => by
    cases earlier <;> cases hrow
  | r :: reads, start, hstart, earlier, later, p, hrow, hp => by
    obtain ⟨stop, result, -, hstop, hread, htakes⟩ := r.reader_takes line command hstart
    rw [row, hread] at hrow
    cases earlier with
    | nil =>
      obtain ⟨rfl, rfl⟩ := List.cons.inj hrow
      obtain rfl : result = .error (.missingArgument line command position) := hp
      have hleft : words.drop stop = [] ∧ position = words.length + 1 := by
        generalize words.extract start stop = front, words.drop stop = left at htakes
        cases htakes
        exact ⟨rfl, rfl⟩
      have hend : stop = words.length := Nat.le_antisymm hstop (List.drop_eq_nil_iff.1 hleft.1)
      rw [hleft.1, hleft.2, ← hend]
      exact result_of_mem_row_nil line command stop reads
    | cons first earlier =>
      exact result_of_exhausted reads hstop (List.cons.inj hrow).2 hp

/-- Reads of any types, made one after the other on the words of a line whatever came of each of them, take
the words from left to right, each of them once: put together, the words that they take are the words at
the front of the line, and none starts or stops behind its end. Each read starts at the first word that
none before it has taken. It gives the values of the words that it takes, one for a single value and three
for a vector or a point; or it is refused for the first of its words that stands for no value, which it
takes as the last one; or it takes all words that are left, each of which stands for a value, and the
argument behind the last word of the line is missing. In that case every later read fails in the very same
way. A vector is read as three single values are, up to the first that fails. -/
theorem reads_take (words : List String) (reads : List Read) :
    (∀ p ∈ row (.ofWords line command words) reads,
      p.start.rest = words.drop p.start.taken ∧ p.stop.taken ≤ words.length ∧
        Takes line command words.length p.read.shape.count (p.taken words) (words.drop p.stop.taken)
          p.result) ∧
    ((Read.behind (.ofWords line command words) reads).taken ≤ words.length ∧
      ((row (.ofWords line command words) reads).map (taken words)).flatten =
        words.take (Read.behind (.ofWords line command words) reads).taken) ∧
    (∀ earlier p later position, row (.ofWords line command words) reads = earlier ++ p :: later →
      p.result = .error (.missingArgument line command position) →
      ∀ q ∈ later, q.result = .error (.missingArgument line command position)) ∧
    ∀ (β : Type) [FromWord β] (args : Arguments), Reader.vector β args =
      match Reader.value β args with
      | (.error fault, stop) => (.error fault, stop)
      | (.ok x, next) =>
        match Reader.value β next with
        | (.error fault, stop) => (.error fault, stop)
        | (.ok y, next) =>
          match Reader.value β next with
          | (.error fault, stop) => (.error fault, stop)
          | (.ok z, stop) => (.ok ⟨x, y, z⟩, stop) := by
  have hstart : 0 ≤ words.length := Nat.zero_le _
  obtain ⟨stop, -, hstop, hbehind, hflatten⟩ := flatten_taken_row line command hstart reads
  refine ⟨takes_of_mem_row line command hstart reads, ?_, ?_, ?_⟩
  · rw [List.drop_zero] at hbehind hflatten
    rw [Arguments.ofWords, hbehind, hflatten, List.extract_eq_take_drop, List.drop_zero, Nat.sub_zero]
    exact ⟨hstop, rfl⟩
  · exact fun _ _ _ _ hrow => result_of_exhausted line command reads hstart hrow
  · exact fun β _ args => Reader.vector_apply args

/-- Vectors and single values of several types, with a word that is refused in the middle of a vector, one
that is no value of its type only, and too few words for the last vector. -/
theorem reads_take_mixed :
    let words := ["1", "x", "300", "-0", "+2.5e1", "inf", "7", "8"]
    let reads : List Read := [⟨Float, .triple⟩, ⟨Int8, .single⟩, ⟨Float, .triple⟩, ⟨Float, .triple⟩,
      ⟨UInt32, .single⟩, ⟨Float, .triple⟩]
    let passages := row (.ofWords 4 "light" words) reads
    let missing := Fault.missingArgument 4 "light" 9
    passages.map (fun p => (p.taken words, p.result.map List.length)) =
      [(["1", "x"], .error (.notANumber 4 "light" "x")), (["300"], .error (.notANumber 4 "light" "300")),
        (["-0", "+2.5e1", "inf"], .ok 3), (["7", "8"], .error missing), ([], .error missing),
        ([], .error missing)] ∧
      (passages.map (taken words)).flatten = words ∧
      ∀ q ∈ passages.drop 4, q.result = .error missing := by
  intro words reads passages missing
  have hrow : passages.map (fun p => (p.taken words, p.result.map List.length)) =
      [(["1", "x"], .error (.notANumber 4 "light" "x")), (["300"], .error (.notANumber 4 "light" "300")),
        (["-0", "+2.5e1", "inf"], .ok 3), (["7", "8"], .error missing), ([], .error missing),
        ([], .error missing)] := by
    decide +kernel
  obtain ⟨-, ⟨-, hflatten⟩, hlater, -⟩ := reads_take 4 "light" words reads
  refine ⟨hrow, hflatten, ?_⟩
  exact hlater (passages.take 3) _ (passages.drop 4) 9 rfl (by decide +kernel)

end Passage

end SceneScript.Script
