/-
Integers of a width. Of the words that spell an integer an integer type reads those whose integer lies in its
range, and gives precisely that integer; all others are refused (`ReadsRange`). Nothing is wrapped around or cut
off at the ends, so the size that `view` stores is the one written.
-/
import SceneScript.Proofs.Atomic
import SceneScript.Proofs.Digits
namespace SceneScript.Number

open Script

/-! ## Ranges -/

/-- The next word is read as an integer of a type if it spells one of its range, with a minus sign only if the
type is `signed`, and any other word is refused. -/
structure ReadsRange (β : Type) [FromWord β] (toInt : β → Int) (signed : Bool) (least greatest : Int) :
    Prop where
  read : ∀ {word : String} {n : Int}, SpellsInteger signed word.toList n → least ≤ n → n ≤ greatest →
    ∃ b : β, toInt b = n ∧ ∀ line command taken rest,
      Reader.value β ⟨line, command, taken, word :: rest⟩ = (.ok b, ⟨line, command, taken + 1, rest⟩)
  refused : ∀ {word : String}, (∀ n, SpellsInteger signed word.toList n → n < least ∨ greatest < n) →
    ∀ line command taken rest, Reader.value β ⟨line, command, taken, word :: rest⟩ =
      (.error (.notANumber line command word), ⟨line, command, taken + 1, rest⟩)

section
variable {β : Type} [FromWord β] {toInt : β → Int} {signed : Bool} {least greatest : Int}

/-- A type reads its range if its words are those of the integers in the range. -/
theorem readsRange_of_words {integer? : String → Option Int} (ofInt : Int → β)
    (hread : ∀ word n, integer? word = some n ↔
      SpellsInteger signed word.toList n ∧ least ≤ n ∧ n ≤ greatest)
    (hword : ∀ word, ofWord? word = (integer? word).map ofInt)
    (hint : ∀ n, least ≤ n → n ≤ greatest → toInt (ofInt n) = n) :
    ReadsRange β toInt signed least greatest where
  read := fun {word n} hspells hl hg => by
    have hsome : ofWord? word = some (ofInt n) := by
      rw [hword, (hread word n).2 ⟨hspells, hl, hg⟩]
      rfl
    exact ⟨ofInt n, hint n hl hg, fun line command taken rest =>
      Reader.value_cons_of_some line command taken rest hsome⟩
  refused := fun {word} hnone line command taken rest => by
    refine Reader.value_cons_of_none line command taken rest ?_
    rw [hword, Option.map_eq_none_iff, Option.eq_none_iff_forall_ne_some]
    intro n hn
    obtain ⟨hspells, hl, hg⟩ := (hread word n).1 hn
    have := hnone n hspells
    omega

theorem ReadsRange.ofWord?_eq_some (h : ReadsRange β toInt signed least greatest) {word : String} {n : Int}
    (hspells : SpellsInteger signed word.toList n) (hl : least ≤ n) (hg : n ≤ greatest) :
    ∃ b : β, toInt b = n ∧ ofWord? word = some b := by
  obtain ⟨b, hb, hread⟩ := h.read hspells hl hg
  refine ⟨b, hb, ?_⟩
  cases hword : (ofWord? word : Option β) with
  | none =>
    cases (Reader.value_cons_of_none 0 "" 0 [] hword).symm.trans (hread 0 "" 0 [])
  | some c =>
    cases (Reader.value_cons_of_some 0 "" 0 [] hword).symm.trans (hread 0 "" 0 [])
    rfl

theorem ReadsRange.ofWord?_eq_none (h : ReadsRange β toInt signed least greatest) {word : String}
    (hnone : ∀ n, SpellsInteger signed word.toList n → n < least ∨ greatest < n) :
    (ofWord? word : Option β) = none := by
  cases hword : (ofWord? word : Option β) with
  | none => rfl
  | some c =>
    cases (Reader.value_cons_of_some 0 "" 0 [] hword).symm.trans (h.refused hnone 0 "" 0 [])

theorem integerWithin?_eq_some_iff (word : String) (n : Int) :
    integerWithin? least greatest word = some n ↔
      SpellsInteger true word.toList n ∧ least ≤ n ∧ n ≤ greatest := by
  rw [integerWithin?, Option.filter_eq_some_iff, integer?_eq_some_iff, decide_eq_true_eq]

theorem naturalBelow?_eq_some_iff {bound : Nat} (word : String) (n : Int) :
    (naturalBelow? bound word).map (Nat.cast : Nat → Int) = some n ↔
      SpellsInteger false word.toList n ∧ 0 ≤ n ∧ n ≤ bound - 1 := by
  rw [Option.map_eq_some_iff]
  constructor
  · rintro ⟨m, hm, rfl⟩
    rw [naturalBelow?, Option.filter_eq_some_iff, natural?_eq_some_iff, decide_eq_true_eq] at hm
    exact ⟨hm.1, by omega, by omega⟩
  · rintro ⟨hspells, hl, hg⟩
    obtain ⟨m, rfl⟩ := Int.eq_ofNat_of_zero_le hl
    refine ⟨m, ?_, rfl⟩
    rw [naturalBelow?, Option.filter_eq_some_iff, natural?_eq_some_iff, decide_eq_true_eq]
    exact ⟨hspells, by omega⟩

end

theorem readsRange_unsigned {β : Type} [FromWord β] {bound : Nat} {toInt : β → Int} {ofNat : Nat → β}
    (hword : ∀ word, ofWord? word = (naturalBelow? bound word).map ofNat)
    (hnat : ∀ n < bound, toInt (ofNat n) = n) : ReadsRange β toInt false 0 (bound - 1) := by
  refine readsRange_of_words (fun n => ofNat n.toNat) naturalBelow?_eq_some_iff (fun word => ?_)
    fun n hl hg => ?_
  · rw [hword, Option.map_map]
    rfl
  · rw [hnat _ (by omega), Int.toNat_of_nonneg hl]

theorem readsRange_int8 : ReadsRange Int8 Int8.toInt true (-2 ^ 7) (2 ^ 7 - 1) :=
  readsRange_of_words Int8.ofInt integerWithin?_eq_some_iff (fun _ => rfl)
    fun _ hl hg => Int8.toInt_ofInt_of_le hl (by omega)

theorem readsRange_int32 : ReadsRange Int32 Int32.toInt true (-2 ^ 31) (2 ^ 31 - 1) :=
  readsRange_of_words Int32.ofInt integerWithin?_eq_some_iff (fun _ => rfl)
    fun _ hl hg => Int32.toInt_ofInt_of_le hl (by omega)

theorem readsRange_int64 : ReadsRange Int64 Int64.toInt true (-2 ^ 63) (2 ^ 63 - 1) :=
  readsRange_of_words Int64.ofInt integerWithin?_eq_some_iff (fun _ => rfl)
    fun _ hl hg => Int64.toInt_ofInt_of_le hl (by omega)

end SceneScript.Number

namespace SceneScript.Script

open Space Number

namespace Session

variable {α : Type} [Scalar α] [FromWord α]

/-- A line that `view` begins, with a first argument. -/
def Views (s : Session α) (line word first : String) (words : List String) : Prop :=
  statement? line = some (word, first :: words) ∧ s.vocabulary.find? word = some Command.view.action

theorem Views.readLine_of_none {s : Session α} {line word first : String} {words : List String}
    (h : s.Views line word first words) (hfirst : (ofWord? first : Option Int32) = none) (number : Nat) :
    (s.readLine number line).result = .error (.notANumber number word first) ∧
      (s.readLine number line).session = s := by
  rw [readLine_of_action h.1 h.2, perform_action]
  simp only [Command.outcome, Command.read, Command.kinds, readValues, Kind.read?, hfirst, Option.map_none,
    Except.map, Command.begun, Flaw.fault, and_self]

end Session

/-- The integer types read their whole ranges and nothing else, and give the integers written. So a line that
`view` begins stores the size that its first argument spells, from the least size of 32 bits to the greatest,
whatever comes of the line; where that argument spells no size, the line fails for it and changes nothing. -/
theorem integers_read :
    ReadsRange Int8 Int8.toInt true (-2 ^ 7) (2 ^ 7 - 1) ∧
    ReadsRange Int32 Int32.toInt true (-2 ^ 31) (2 ^ 31 - 1) ∧
    ReadsRange Int64 Int64.toInt true (-2 ^ 63) (2 ^ 63 - 1) ∧
    ReadsRange UInt8 (fun b => b.toNat) false 0 (2 ^ 8 - 1) ∧
    ReadsRange UInt32 (fun b => b.toNat) false 0 (2 ^ 32 - 1) ∧
    ReadsRange UInt64 (fun b => b.toNat) false 0 (2 ^ 64 - 1) ∧
    ∀ (s : Session Float) (number : Nat) (line word first : String) (words : List String),
      s.Views line word first words →
      (∀ n, SpellsInteger true first.toList n → -2 ^ 31 ≤ n → n ≤ 2 ^ 31 - 1 →
        (s.readLine number line).session.workspace.scene.imageSize.toInt = n) ∧
      ((∀ n, SpellsInteger true first.toList n → n < -2 ^ 31 ∨ 2 ^ 31 - 1 < n) →
        (s.readLine number line).result = .error (.notANumber number word first) ∧
        (s.readLine number line).session = s) := by
  refine ⟨readsRange_int8, readsRange_int32, readsRange_int64,
    readsRange_unsigned (fun _ => rfl) fun n hn => ?_, readsRange_unsigned (fun _ => rfl) fun n hn => ?_,
    readsRange_unsigned (fun _ => rfl) fun n hn => ?_, fun s number line word first words hline =>
      ⟨fun n hspells hl hg => ?_, fun hnone => ?_⟩⟩
  · rw [UInt8.toNat_ofNat_of_lt' hn]
  · rw [UInt32.toNat_ofNat_of_lt' hn]
  · rw [UInt64.toNat_ofNat_of_lt' hn]
  · obtain ⟨size, rfl, hsize⟩ := readsRange_int32.ofWord?_eq_some hspells hl hg
    have hstores : s.Stores line size := ⟨word, first, words, hline.1, hline.2, hsize⟩
    rw [hstores.imageSize]
  · exact hline.readLine_of_none (readsRange_int32.ofWord?_eq_none hnone) number

/-- The least and the greatest integer of a type, one beyond, a minus sign before a zero, a point, and two lines
with sizes at an end of the range and beyond it. -/
theorem integers_read_ends :
    (∃ b : Int8, b.toInt = -128 ∧
      Reader.value Int8 ⟨3, "size", 0, ["-128", "1"]⟩ = (.ok b, ⟨3, "size", 1, ["1"]⟩)) ∧
    Reader.value Int8 ⟨3, "size", 0, ["128"]⟩ = (.error (.notANumber 3 "size" "128"), ⟨3, "size", 1, []⟩) ∧
    (∃ b : UInt64, (b.toNat : Int) = 2 ^ 64 - 1 ∧
      Reader.value UInt64 ⟨3, "size", 0, ["+0018446744073709551615"]⟩ = (.ok b, ⟨3, "size", 1, []⟩)) ∧
    Reader.value UInt32 ⟨3, "size", 0, ["-0"]⟩ = (.error (.notANumber 3 "size" "-0"), ⟨3, "size", 1, []⟩) ∧
    Reader.value UInt8 ⟨3, "size", 0, ["25.5"]⟩ =
      (.error (.notANumber 3 "size" "25.5"), ⟨3, "size", 1, []⟩) ∧
    ((Session.start {} : Session Float).readLine 1 "view -2147483648 wide").session.workspace.scene.imageSize.toInt
      = -2 ^ 31 ∧
    ((Session.start {} : Session Float).readLine 1 "view 2147483648 1.5").result =
      .error (.notANumber 1 "view" "2147483648") := by
  obtain ⟨hint8, -, -, huint8, huint32, huint64, hview⟩ := integers_read
  have hone {cs : List Char} {m n : Int} (hm : integer? cs = some m) (h : SpellsInteger true cs n) : n = m :=
    Option.some.inj ((integer?_eq_some_iff.2 h).symm.trans hm)
  have hnone {cs : List Char} {n : Int} (hcs : integer? cs = none) (h : SpellsInteger true cs n) : False := by
    cases (integer?_eq_some_iff.2 h).symm.trans hcs
  have hleast : SpellsInteger true "-128".toList (-128) := integer?_eq_some_iff.1 (by decide +kernel)
  have hgreatest : SpellsInteger false "+0018446744073709551615".toList ((2 ^ 64 - 1 : Nat) : Int) :=
    natural?_eq_some_iff.1 (by decide +kernel)
  obtain ⟨b, hb, hleast⟩ := hint8.read hleast (by decide) (by decide)
  obtain ⟨c, hc, hgreatest⟩ := huint64.read hgreatest (by decide) (by decide)
  refine ⟨⟨b, hb, hleast 3 "size" 0 ["1"]⟩, hint8.refused (fun n h => ?_) 3 "size" 0 [],
    ⟨c, hc, hgreatest 3 "size" 0 []⟩, huint32.refused (fun n h => absurd rfl (h.of_false.2 ['0'])) 3 "size" 0 [],
    huint8.refused (fun n h => ?_) 3 "size" 0 [], ?_, ?_⟩
  · rw [hone (m := 128) (by decide +kernel) h]
    decide
  · exact (hnone (by decide +kernel) h.of_false.1).elim
  · exact (hview (Session.start {}) 1 "view -2147483648 wide" "view" "-2147483648" ["wide"]
      ⟨by decide +kernel, Vocabulary.find?_standard_name Command.view⟩).1 _
      (integer?_eq_some_iff.1 (by decide +kernel)) (by decide) (by decide)
  · refine ((hview (Session.start {}) 1 "view 2147483648 1.5" "view" "2147483648" ["1.5"]
      ⟨by decide +kernel, Vocabulary.find?_standard_name Command.view⟩).2 fun n h => ?_).1
    rw [hone (m := 2147483648) (by decide +kernel) h]
    decide

end SceneScript.Script
