/-
Indentation. Read from left to right, the brackets of a text that are still open form a stack (`openAfter?`), and a
line is aligned if it stands four blanks in for each of them, not counting one that it begins by closing
(`IsAligned`). In a document spread over lines every line is aligned (`Document.wellIndented_spread`). On one line a
document holds no line feed, so both forms are one text without blanks (`Document.settled_spread_eq`).
-/
import SceneScript.Proofs.Skeleton
namespace SceneScript.Text

/-! ## Open brackets -/

/-- The brackets open behind a character, the innermost first. Only the innermost one can be closed. -/
def openBehind? : List Bracket → Char → Option (List Bracket)
  | opened, '[' => some (.square :: opened)
  | opened, '(' => some (.round :: opened)
  | opened, '\x7b' => some (.curly :: opened)
  | .square :: opened, ']' => some opened
  | .round :: opened, ')' => some opened
  | .curly :: opened, '\x7d' => some opened
  | opened, c => if isClosing c then none else some opened

/-- The brackets still open behind a text, if each bracket that it closes is the innermost one there. -/
def openAfter? (opened : List Bracket) (text : List Char) : Option (List Bracket) :=
  text.foldlM openBehind? opened

@[simp] theorem openBehind?_mark (opened : List Bracket) (b : Bracket) :
    openBehind? opened b.mark = some (b :: opened) := by
  cases b <;> simp [openBehind?, Bracket.mark]

@[simp] theorem openBehind?_closing (opened : List Bracket) (b : Bracket) :
    openBehind? (b :: opened) b.closing = some opened := by
  cases b <;> simp [openBehind?, Bracket.closing]

theorem openBehind?_of_ne_mark {c : Char} (hmark : ∀ b : Bracket, c ≠ b.mark) (hclosing : isClosing c = false)
    (opened : List Bracket) : openBehind? opened c = some opened := by
  unfold openBehind?
  split
  · exact absurd rfl (hmark .square)
  · exact absurd rfl (hmark .round)
  · exact absurd rfl (hmark .curly)
  · cases hclosing
  · cases hclosing
  · cases hclosing
  · simp [hclosing]

/-! ## Aligned lines -/

/-- A line stands four blanks in for each open bracket, not counting one that it begins by closing. -/
def IsAligned (opened : List Bracket) (line : List Char) : Prop :=
  ∃ depth c rest, line = List.replicate (4 * depth) ' ' ++ c :: rest ∧ isSpacing c = false ∧
    opened.length = depth + if isClosing c then 1 else 0

/-- A line of a text, with what stands before and behind it. -/
structure LineOf (text before line after : List Char) : Prop where
  text_eq : text = before ++ (line ++ after)
  starts : before = [] ∨ before.getLast? = some '\n'
  ends : after = [] ∨ after.head? = some '\n'
  feed_not_mem : '\n' ∉ line

/-- Every line of a text is aligned with the brackets that are still open before it. -/
def WellIndented (text : List Char) : Prop :=
  ∀ before line after, LineOf text before line after →
    ∃ opened, openAfter? [] before = some opened ∧ IsAligned opened line

/-- A text read on where brackets are open: behind each of its line feeds stands an aligned line. -/
inductive Indented : List Bracket → List Char → Prop
  | nil {opened : List Bracket} : Indented opened []
  | feed {opened : List Bracket} {rest : List Char} :
    IsAligned opened rest → Indented opened rest → Indented opened ('\n' :: rest)
  | cons {opened opened' : List Bracket} {c : Char} {rest : List Char} :
    c ≠ '\n' → openBehind? opened c = some opened' → Indented opened' rest → Indented opened (c :: rest)

theorem openBehind?_feed (opened : List Bracket) : openBehind? opened '\n' = some opened :=
  openBehind?_of_ne_mark (fun b => by cases b <;> decide) rfl opened

theorem Indented.exists_openAfter? {opened : List Bracket} {before rest : List Char}
    (h : Indented opened (before ++ rest)) :
    ∃ opened', openAfter? opened before = some opened' ∧ Indented opened' rest := by
  induction before generalizing opened with
  | nil => exact ⟨opened, rfl, h⟩
  | cons c before ih =>
    rw [List.cons_append] at h
    unfold openAfter?
    rw [List.foldlM_cons]
    cases h with
    | feed _ h =>
      rw [openBehind?_feed]
      exact ih h
    | cons _ hc h =>
      rw [hc]
      exact ih h

/-- The blanks of a line and what it begins with stand before its line feed. -/
theorem IsAligned.of_append {opened : List Bracket} {line after : List Char} (h : IsAligned opened (line ++ after))
    (hafter : after = [] ∨ after.head? = some '\n') : IsAligned opened line := by
  rcases hafter with rfl | hfeed
  · rwa [List.append_nil] at h
  obtain ⟨later, rfl⟩ := List.head?_eq_some_iff.1 hfeed
  obtain ⟨depth, c, rest, heq, hc, hdepth⟩ := h
  obtain ⟨blanks, hblanks, hrest⟩ | ⟨content, hline, hrest⟩ := List.append_eq_append_iff.1 heq
  · -- the line would end within its blanks, so the feed would be one of them or the character behind them
    exfalso
    cases blanks with
    | nil =>
      obtain ⟨rfl, -⟩ := List.cons.inj hrest
      cases hc
    | cons d blanks =>
      obtain ⟨rfl, -⟩ := List.cons.inj hrest
      have hblank : '\n' ∈ List.replicate (4 * depth) ' ' := by simp [hblanks]
      cases List.eq_of_mem_replicate hblank
  · cases content with
    | nil =>
      obtain ⟨rfl, -⟩ := List.cons.inj hrest
      cases hc
    | cons d content =>
      obtain ⟨rfl, -⟩ := List.cons.inj hrest
      exact ⟨depth, c, content, hline, hc, hdepth⟩

/-- A text that is indented throughout and begins with an aligned line has aligned lines only. -/
theorem Indented.wellIndented {text : List Char} (h : Indented [] text) (hfirst : IsAligned [] text) :
    WellIndented text := by
  rintro before line after ⟨rfl, hstarts, hends, -⟩
  rcases hstarts with rfl | hfeed
  · have hline : IsAligned [] (line ++ after) := hfirst
    exact ⟨[], rfl, hline.of_append hends⟩
  · obtain ⟨before, rfl⟩ := List.getLast?_eq_some_iff.1 hfeed
    rw [List.append_assoc] at h
    obtain ⟨opened, hopened, h⟩ := h.exists_openAfter?
    refine ⟨opened, ?_, ?_⟩
    · unfold openAfter? at hopened ⊢
      rw [List.foldlM_append, hopened]
      exact congrArg (· >>= pure) (openBehind?_feed opened)
    · have hline : IsAligned opened (line ++ after) := by
        cases h with
        | feed haligned _ => exact haligned
        | cons hne _ _ => exact absurd rfl hne
      exact hline.of_append hends

/-! ## Reading over what opens and closes nothing -/

/-- A text on one line without brackets. -/
def Unbracketed (text : List Char) : Prop := ∀ c ∈ text, c ≠ '\n' ∧ ∀ opened, openBehind? opened c = some opened

theorem Indented.unbracketed {text : List Char} (htext : Unbracketed text) {opened : List Bracket} {x : List Char}
    (h : Indented opened x) : Indented opened (text ++ x) := by
  induction text with
  | nil => exact h
  | cons c text ih =>
    obtain ⟨hne, hc⟩ := htext c List.mem_cons_self
    exact .cons hne (hc opened) (ih fun d hd => htext d (List.mem_cons_of_mem c hd))

theorem Unbracketed.append {x y : List Char} (hx : Unbracketed x) (hy : Unbracketed y) : Unbracketed (x ++ y) := by
  intro c hc
  rcases List.mem_append.1 hc with h | h
  · exact hx c h
  · exact hy c h

theorem Solid.unbracketed {text : List Char} (h : Solid text) : Unbracketed text := by
  intro c hc
  obtain ⟨hmark, hspacing⟩ := h c hc
  refine ⟨?_, openBehind?_of_ne_mark (fun b hb => ?_) (h.isClosing hc)⟩
  · rintro rfl
    cases hspacing
  · rw [hb, b.isMark_mark] at hmark
    cases hmark

theorem unbracketed_of_mem {text : List Char} (h : ∀ c ∈ text, c = ' ' ∨ c = ',' ∨ c = ':') : Unbracketed text := by
  intro c hc
  rcases h c hc with rfl | rfl | rfl <;>
    exact ⟨by decide, openBehind?_of_ne_mark (fun b => by cases b <;> decide) rfl⟩

theorem unbracketed_indent (depth : Nat) : Unbracketed (indent depth) :=
  unbracketed_of_mem fun _ hc => .inl (List.eq_of_mem_replicate hc)

theorem unbracketed_labelText {label : List Char} (h : Solid label) : Unbracketed (labelText label) := by
  unfold labelText
  split
  · exact nofun
  · exact h.unbracketed.append (unbracketed_of_mem (by simp))

theorem Indented.opening {opened : List Bracket} {b : Bracket} {x : List Char} (h : Indented (b :: opened) x) :
    Indented opened (b.opening ++ x) := by
  have hmark : Indented opened (b.mark :: x) := .cons (by cases b <;> decide) (openBehind?_mark opened b) h
  cases b with
  | square => exact hmark
  | round => exact hmark
  | curly => exact hmark.unbracketed (unbracketed_of_mem (by simp) : Unbracketed [' '])

theorem Indented.closing {opened : List Bracket} {b : Bracket} {x : List Char} (h : Indented opened x) :
    Indented (b :: opened) (b.closing :: x) :=
  .cons (by cases b <;> decide) (openBehind?_closing opened b) h

/-! ## Documents spread over lines -/

mutual
/-- Every curly block has a name; without one it would begin with the space before its mark. -/
def Document.Titled : Document → Prop
  | .plain _ => True
  | .block name bracket items => (bracket = .curly → name ≠ []) ∧ items.Titled
def Items.Titled : Items → Prop
  | .nil => True
  | .cons _ value rest => value.Titled ∧ rest.Titled
end

/-- A text begins with a character that is neither blank nor a closing bracket. -/
def Begins (text : List Char) : Prop := ∃ c rest, text = c :: rest ∧ isSpacing c = false ∧ isClosing c = false

theorem Begins.append {text : List Char} (h : Begins text) (x : List Char) : Begins (text ++ x) := by
  obtain ⟨c, rest, rfl, hc⟩ := h
  exact ⟨c, rest ++ x, rfl, hc⟩

theorem Solid.begins {text : List Char} (h : Solid text) (hne : text ≠ []) : Begins text := by
  cases text with
  | nil => exact absurd rfl hne
  | cons c text => exact ⟨c, text, rfl, (h c List.mem_cons_self).2, h.isClosing List.mem_cons_self⟩

theorem Document.begins_spread {d : Document} (h : d.Legible) (ht : d.Titled) (depth : Nat) :
    Begins (d.spread depth) := by
  cases d with
  | plain text =>
    unfold Document.spread
    exact h.2.begins h.1
  | block name bracket items =>
    unfold Document.spread
    rw [List.append_assoc, List.append_assoc]
    by_cases hname : name = []
    · subst hname
      cases bracket with
      | square => exact ⟨'[', _, rfl, rfl, rfl⟩
      | round => exact ⟨'(', _, rfl, rfl, rfl⟩
      | curly => exact absurd rfl (ht.1 rfl)
    · exact (h.1.begins hname).append _

theorem Items.begins_spread {label : List Char} {value : Document} {rest : Items}
    (h : (Items.cons label value rest).Legible) (ht : (Items.cons label value rest).Titled) (depth : Nat) :
    Begins (labelText label ++ value.spread depth) := by
  unfold labelText
  split
  · exact Document.begins_spread h.2.1 ht.1 depth
  · rename_i hlabel
    exact ((h.1.begins hlabel).append _).append _

theorem Begins.isAligned {text : List Char} (h : Begins text) (opened : List Bracket) :
    IsAligned opened (indent opened.length ++ text) := by
  obtain ⟨c, rest, rfl, hspacing, hclosing⟩ := h
  exact ⟨opened.length, c, rest, rfl, hspacing, by simp [hclosing]⟩

theorem Bracket.isAligned_closing (b : Bracket) (opened : List Bracket) (x : List Char) :
    IsAligned (b :: opened) (indent opened.length ++ b.closing :: x) :=
  ⟨opened.length, b.closing, x, rfl, by cases b <;> decide, by simp⟩

/-- Where items are due a line begins: that of the first item, or the one behind them. -/
theorem Items.isAligned_spread {items : Items} (h : items.Legible) (ht : items.Titled) {opened : List Bracket}
    {x : List Char} (hx : IsAligned opened x) : IsAligned opened (items.spread opened.length ++ x) := by
  cases items with
  | nil => exact hx
  | cons label value rest =>
    unfold Items.spread
    have hbegins := Items.begins_spread h ht opened.length
    have haligned := (hbegins.append (',' :: '\n' :: rest.spread opened.length ++ x)).isAligned opened
    simpa only [List.append_assoc, List.cons_append] using haligned

-- By induction on the document, over any stack of open brackets: the depth is its height, and a block adds its own
-- bracket for its items. The line behind the last item is that of the closing bracket, which only the block knows.
mutual
theorem Document.indented_spread : ∀ {d : Document}, d.Legible → d.Titled → ∀ {opened : List Bracket}
    {x : List Char}, Indented opened x → Indented opened (d.spread opened.length ++ x)
  | .plain text, h, _, opened, x, hx => by
    unfold Document.spread
    exact hx.unbracketed h.2.unbracketed
  | .block name bracket items, h, ht, opened, x, hx => by
    have hclosing : Indented (bracket :: opened) (bracket.closing :: x) := hx.closing
    have hitems : Indented (bracket :: opened)
        ((if items.isEmpty then [] else '\n' :: items.spread (opened.length + 1) ++ indent opened.length) ++
          bracket.closing :: x) := by
      split
      · exact hclosing
      · rw [List.cons_append, List.cons_append, List.append_assoc]
        refine .feed ?_ ?_
        · exact Items.isAligned_spread h.2 ht.2 (bracket.isAligned_closing opened x)
        · exact Items.indented_spread h.2 ht.2 (bracket.isAligned_closing opened x)
            (hclosing.unbracketed (unbracketed_indent _))
    unfold Document.spread
    simp only [List.append_assoc, List.singleton_append]
    exact hitems.opening.unbracketed h.1.unbracketed
theorem Items.indented_spread : ∀ {items : Items}, items.Legible → items.Titled → ∀ {opened : List Bracket}
    {x : List Char}, IsAligned opened x → Indented opened x → Indented opened (items.spread opened.length ++ x)
  | .nil, _, _, opened, x, _, hx => hx
  | .cons label value rest, h, ht, opened, x, haligned, hx => by
    have hrest : Indented opened ('\n' :: (rest.spread opened.length ++ x)) :=
      .feed (Items.isAligned_spread h.2.2 ht.2 haligned) (Items.indented_spread h.2.2 ht.2 haligned hx)
    have hcomma : Indented opened (',' :: '\n' :: (rest.spread opened.length ++ x)) :=
      hrest.unbracketed (unbracketed_of_mem (by simp) : Unbracketed [','])
    have hvalue := Document.indented_spread h.2.1 ht.1 hcomma
    unfold Items.spread
    simp only [List.append_assoc, List.cons_append]
    exact (hvalue.unbracketed (unbracketed_labelText h.1)).unbracketed (unbracketed_indent _)
end

/-- Every line of a document spread over lines is aligned. -/
theorem Document.wellIndented_spread {d : Document} (h : d.Legible) (ht : d.Titled) : WellIndented (d.spread 0) := by
  have hindented : Indented [] (d.spread 0 ++ []) := Document.indented_spread h ht .nil
  rw [List.append_nil] at hindented
  exact hindented.wellIndented ((Document.begins_spread h ht 0).isAligned [])

/-! ## Without spaces -/

theorem Solid.feed_not_mem {text : List Char} (h : Solid text) : '\n' ∉ text := fun hfeed => by
  cases (h '\n' hfeed).2

mutual
theorem Document.feed_not_mem_compact : ∀ {d : Document}, d.Legible → '\n' ∉ d.compact
  | .plain text, h => by
    unfold Document.compact
    exact h.2.feed_not_mem
  | .block name bracket items, h => by
    have hname := h.1.feed_not_mem
    have hitems := Items.feed_not_mem_compact h.2
    unfold Document.compact
    cases bracket <;> split <;>
      simp [Bracket.opening, Bracket.padding, Bracket.closing, hname, hitems]
theorem Items.feed_not_mem_compact : ∀ {items : Items}, items.Legible → '\n' ∉ items.compact
  | .nil, _ => nofun
  | .cons label value rest, h => by
    have hlabel := h.1.feed_not_mem
    have hvalue := Document.feed_not_mem_compact h.2.1
    have hrest := Items.feed_not_mem_compact h.2.2
    unfold Items.compact labelText
    split <;> split <;> simp [hlabel, hvalue, hrest]
end

/-- Without spaces and line feeds, and without the commas before closing brackets, a document spread over lines is
the one on one line without its spaces. -/
theorem Document.settled_spread_eq {d : Document} (h : d.Legible) (depth : Nat) :
    settled (unspaced (d.spread depth)) = d.compact.filter (· ≠ ' ') := by
  have hfilter : unspaced d.compact = d.compact.filter (· ≠ ' ') := by
    refine List.filter_congr fun c hc => ?_
    have hne : c ≠ '\n' := fun hfeed => Document.feed_not_mem_compact h (hfeed ▸ hc)
    simp [isSpacing, hne]
  have hspread := Document.settled_spread h depth []
  rw [List.append_nil] at hspread
  rw [hspread, ← hfilter, Document.unspaced_compact h]
  exact List.append_nil _

end SceneScript.Text
