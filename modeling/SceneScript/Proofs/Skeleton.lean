/-
The skeletons of documents: names, texts and marks, without blanks and without a comma before a closing bracket.
Both forms of a document are its skeleton with such things added (`unspaced_compact`, `settled_spread`), and a
skeleton shows where each text, item and block ends, so it tells documents apart (`skeleton_injective`).
-/
import SceneScript.Text.Document
namespace SceneScript.Text

/-! ## Marks and blanks -/

/-- The mark that opens a pair of brackets, without the space before it. -/
def Bracket.mark : Bracket → Char
  | square => '['
  | round => '('
  | curly => '\x7b'

/-- A closing bracket. -/
def isClosing (c : Char) : Bool := c = ']' ∨ c = ')' ∨ c = '\x7d'

/-- A bracket, a comma or a colon. -/
def isMark (c : Char) : Bool := c = '[' ∨ c = '(' ∨ c = '\x7b' ∨ c = ',' ∨ c = ':' ∨ isClosing c

/-- A space or a line feed. -/
def isSpacing (c : Char) : Bool := c = ' ' ∨ c = '\n'

/-- A text without marks and blanks. -/
def Solid (text : List Char) : Prop := ∀ c ∈ text, isMark c = false ∧ isSpacing c = false

@[simp] theorem Bracket.isClosing_closing (b : Bracket) : isClosing b.closing = true := by cases b <;> decide

@[simp] theorem Bracket.isClosing_mark (b : Bracket) : isClosing b.mark = false := by cases b <;> decide

theorem isMark_of_isClosing {c : Char} (h : isClosing c = true) : isMark c = true := by
  simp [isMark, h]

theorem Bracket.isMark_mark (b : Bracket) : isMark b.mark = true := by cases b <;> decide

theorem Bracket.mark_injective {b b' : Bracket} (h : b.mark = b'.mark) : b = b' := by
  cases b <;> cases b' <;> first | rfl | exact absurd h (by decide)

theorem Solid.isClosing {text : List Char} (h : Solid text) {c : Char} (hc : c ∈ text) :
    Text.isClosing c = false := by
  refine Bool.eq_false_iff.2 fun hclosing => ?_
  have hmark := isMark_of_isClosing hclosing
  rw [(h c hc).1] at hmark
  cases hmark

/-! ## Skeletons -/

/-- A label and its colon. -/
def tagged (label : List Char) : List Char := if label = [] then [] else label ++ [':']

mutual
/-- A document on one line without blanks. -/
def Document.skeleton : Document → List Char
  | .plain text => text
  | .block name bracket items => name ++ bracket.mark :: (items.skeleton ++ [bracket.closing])
/-- Items, a comma between any two. -/
def Items.skeleton : Items → List Char
  | .nil => []
  | .cons label value rest =>
    tagged label ++ value.skeleton ++ (if rest.isEmpty then [] else ',' :: rest.skeleton)
end

mutual
/-- The texts of a document are solid, and where one is due there is one. -/
def Document.Legible : Document → Prop
  | .plain text => text ≠ [] ∧ Solid text
  | .block name _ items => Solid name ∧ items.Legible
def Items.Legible : Items → Prop
  | .nil => True
  | .cons label value rest => Solid label ∧ value.Legible ∧ rest.Legible
end

/-! ## Both forms -/

/-- A text without its spaces and line feeds. -/
def unspaced (text : List Char) : List Char := text.filter fun c => !isSpacing c

/-- A text without the commas that stand directly before a closing bracket. -/
def settled : List Char → List Char
  | [] => []
  | c :: cs => if c = ',' ∧ cs.head?.any isClosing = true then settled cs else c :: settled cs

theorem unspaced_append (x y : List Char) : unspaced (x ++ y) = unspaced x ++ unspaced y := List.filter_append ..

theorem Solid.unspaced {text : List Char} (h : Solid text) : Text.unspaced text = text :=
  List.filter_eq_self.2 fun c hc => by rw [(h c hc).2]; rfl

theorem Bracket.unspaced_marks (b : Bracket) :
    unspaced b.opening = [b.mark] ∧ unspaced b.padding = [] ∧ unspaced [b.closing] = [b.closing] := by
  cases b <;> exact ⟨rfl, rfl, rfl⟩

theorem unspaced_labelText {label : List Char} (h : Solid label) :
    unspaced (labelText label) = tagged label := by
  rw [labelText, tagged]
  split
  · rfl
  · rw [unspaced_append, h.unspaced]
    rfl

mutual
theorem Document.unspaced_compact : ∀ {d : Document}, d.Legible → unspaced d.compact = d.skeleton
  | .plain text, h => h.2.unspaced
  | .block name bracket items, h => by
    obtain ⟨hopening, hpadding, hclosing⟩ := bracket.unspaced_marks
    have hitems : unspaced (if items.isEmpty then [] else bracket.padding ++ items.compact ++ bracket.padding) =
        items.skeleton := by
      split
      · rename_i hempty
        cases items with
        | nil => rfl
        | cons => cases hempty
      · rw [unspaced_append, unspaced_append, hpadding, Items.unspaced_compact h.2, List.nil_append,
          List.append_nil]
    rw [Document.compact, Document.skeleton, unspaced_append, unspaced_append, unspaced_append,
      h.1.unspaced, hopening, hclosing, hitems, List.append_assoc, List.append_assoc]
    rfl
theorem Items.unspaced_compact : ∀ {items : Items}, items.Legible → unspaced items.compact = items.skeleton
  | .nil, _ => rfl
  | .cons label value rest, h => by
    have hrest : unspaced (if rest.isEmpty then [] else ',' :: ' ' :: rest.compact) =
        if rest.isEmpty then [] else ',' :: rest.skeleton := by
      split
      · rfl
      · rw [← Items.unspaced_compact h.2.2]
        rfl
    rw [Items.compact, Items.skeleton, unspaced_append, unspaced_append, unspaced_labelText h.1,
      Document.unspaced_compact h.2.1, hrest]
end

theorem settled_cons_of_ne {c : Char} (h : c ≠ ',') (cs : List Char) : settled (c :: cs) = c :: settled cs := by
  rw [settled, if_neg fun hcomma => h hcomma.1]

theorem Solid.settled_append {text : List Char} (h : Solid text) (rest : List Char) :
    settled (text ++ rest) = text ++ settled rest := by
  induction text with
  | nil => rfl
  | cons c text ih =>
    have hc : c ≠ ',' := fun hcomma => by
      have hmark := (h c List.mem_cons_self).1
      rw [hcomma] at hmark
      cases hmark
    rw [List.cons_append, settled_cons_of_ne hc, ih fun d hd => h d (List.mem_cons_of_mem c hd)]
    rfl

theorem Solid.settled_tagged {label : List Char} (h : Solid label) (rest : List Char) :
    settled (tagged label ++ rest) = tagged label ++ settled rest := by
  rw [tagged]
  split
  · rfl
  · rw [List.append_assoc, h.settled_append, List.append_assoc]
    rfl

/-- A comma stays unless a closing bracket follows. -/
theorem settled_comma {c : Char} {cs : List Char} (h : isClosing c = false) :
    settled (',' :: c :: cs) = ',' :: settled (c :: cs) := by
  rw [settled, if_neg fun hcomma => by simp [h] at hcomma]

theorem settled_comma_closing {c : Char} {cs : List Char} (h : isClosing c = true) :
    settled (',' :: c :: cs) = settled (c :: cs) := by
  rw [settled, if_pos ⟨rfl, by simpa using h⟩]

theorem settled_closing {c : Char} (h : isClosing c = true) (cs : List Char) :
    settled (c :: cs) = c :: settled cs := by
  refine settled_cons_of_ne (fun hcomma => ?_) cs
  rw [hcomma] at h
  cases h

/-- No document and no item begins with a closing bracket. -/
def Opens (text : List Char) : Prop := ∃ c rest, text = c :: rest ∧ isClosing c = false

theorem Solid.opens {text : List Char} (h : Solid text) (hne : text ≠ []) (rest : List Char) :
    Opens (text ++ rest) := by
  cases text with
  | nil => exact absurd rfl hne
  | cons c text => exact ⟨c, text ++ rest, rfl, h.isClosing List.mem_cons_self⟩

theorem Solid.opens_mark {name : List Char} (h : Solid name) (bracket : Bracket) (rest : List Char) :
    Opens (name ++ bracket.mark :: rest) := by
  cases name with
  | nil => exact ⟨bracket.mark, rest, rfl, bracket.isClosing_mark⟩
  | cons c name => exact ⟨c, name ++ bracket.mark :: rest, rfl, h.isClosing List.mem_cons_self⟩

theorem Solid.opens_tagged {label : List Char} (h : Solid label) {rest : List Char} (hrest : Opens rest) :
    Opens (tagged label ++ rest) := by
  rw [tagged]
  split
  · exact hrest
  · rename_i hne
    rw [List.append_assoc]
    exact h.opens hne _

theorem unspaced_indent (depth : Nat) : unspaced (indent depth) = [] := by
  rw [unspaced, indent, List.filter_replicate_of_neg (by decide)]

theorem unspaced_spread_block {name : List Char} (h : Solid name) (bracket : Bracket) (items : Items)
    (depth : Nat) :
    unspaced ((Document.block name bracket items).spread depth) =
      name ++ bracket.mark :: (unspaced (items.spread (depth + 1)) ++ [bracket.closing]) := by
  obtain ⟨hopening, -, hclosing⟩ := bracket.unspaced_marks
  have hitems : unspaced (if items.isEmpty then [] else '\n' :: items.spread (depth + 1) ++ indent depth) =
      unspaced (items.spread (depth + 1)) := by
    split
    · rename_i hempty
      cases items with
      | nil => rfl
      | cons => cases hempty
    · rw [List.cons_append, unspaced, List.filter_cons_of_neg (by decide)]
      exact (unspaced_append ..).trans (by rw [unspaced_indent, List.append_nil])
  rw [Document.spread, unspaced_append, unspaced_append, unspaced_append, h.unspaced, hopening, hclosing, hitems,
    List.append_assoc, List.append_assoc]
  rfl

theorem unspaced_spread_cons {label : List Char} (h : Solid label) (value : Document) (rest : Items)
    (depth : Nat) : unspaced ((Items.cons label value rest).spread depth) =
      tagged label ++ unspaced (value.spread depth) ++ ',' :: unspaced (rest.spread depth) := by
  rw [Items.spread, unspaced_append, unspaced_append, unspaced_append, unspaced_indent, unspaced_labelText h,
    List.nil_append]
  rfl

theorem Document.opens_spread {d : Document} (h : d.Legible) (depth : Nat) (rest : List Char) :
    Opens (unspaced (d.spread depth) ++ rest) := by
  cases d with
  | plain text =>
    rw [Document.spread, h.2.unspaced]
    exact h.2.opens h.1 rest
  | block name bracket items =>
    rw [unspaced_spread_block h.1, List.append_assoc, List.cons_append]
    exact h.1.opens_mark bracket _

theorem Items.opens_spread {label : List Char} {value : Document} {rest : Items}
    (h : (Items.cons label value rest).Legible) (depth : Nat) (x : List Char) :
    Opens (unspaced ((Items.cons label value rest).spread depth) ++ x) := by
  rw [unspaced_spread_cons h.1, List.append_assoc, List.append_assoc]
  exact h.1.opens_tagged (Document.opens_spread h.2.1 depth _)

-- Whether a comma stays is decided by what stands behind it, so both say what becomes of a longer text: a document
-- stands before anything, items before the bracket that closes their block.
mutual
theorem Document.settled_spread : ∀ {d : Document}, d.Legible → ∀ (depth : Nat) (x : List Char),
    settled (unspaced (d.spread depth) ++ x) = d.skeleton ++ settled x
  | .plain text, h, depth, x => by
    rw [Document.spread, h.2.unspaced, h.2.settled_append]
    rfl
  | .block name bracket items, h, depth, x => by
    have hmark : bracket.mark ≠ ',' := by cases bracket <;> decide
    rw [unspaced_spread_block h.1, List.append_assoc, h.1.settled_append, List.cons_append,
      settled_cons_of_ne hmark, List.append_assoc, List.singleton_append,
      Items.settled_spread h.2 _ bracket.isClosing_closing, Document.skeleton, List.append_assoc,
      List.cons_append, List.append_assoc, List.singleton_append]
theorem Items.settled_spread : ∀ {items : Items}, items.Legible → ∀ (depth : Nat) {c : Char},
    isClosing c = true → ∀ x, settled (unspaced (items.spread depth) ++ c :: x) = items.skeleton ++ c :: settled x
  | .nil, _, _, c, hc, x => settled_closing hc x
  | .cons label value rest, h, depth, c, hc, x => by
    have hrest : settled (',' :: (unspaced (rest.spread depth) ++ c :: x)) =
        (if rest.isEmpty then [] else ',' :: rest.skeleton) ++ c :: settled x := by
      cases rest with
      | nil => exact (settled_comma_closing hc).trans (settled_closing hc x)
      | cons label' value' rest' =>
        obtain ⟨d, later, heq, hd⟩ := Items.opens_spread h.2.2 depth (c :: x)
        rw [heq, settled_comma hd, ← heq, Items.settled_spread h.2.2 depth hc]
        rfl
    rw [unspaced_spread_cons h.1, List.append_assoc, List.append_assoc, h.1.settled_tagged, List.cons_append,
      Document.settled_spread h.2.1, hrest, Items.skeleton, List.append_assoc, List.append_assoc]
end

/-! ## Telling documents apart -/

/-- What stands behind a text without marks: nothing, or a mark. -/
def Stops (x : List Char) : Prop := ∀ c rest, x = c :: rest → isMark c = true

/-- What stands behind a document: nothing, a comma or a closing bracket. -/
def Follows (x : List Char) : Prop := ∀ c rest, x = c :: rest → c = ',' ∨ isClosing c = true

theorem Solid.append_inj {text text' : List Char} (h : Solid text) (h' : Solid text') {x x' : List Char}
    (hx : Stops x) (hx' : Stops x') (heq : text ++ x = text' ++ x') : text = text' ∧ x = x' := by
  induction text generalizing text' with
  | nil =>
    cases text' with
    | nil => exact ⟨rfl, heq⟩
    | cons c text' =>
      have hmark := hx c _ heq
      rw [(h' c List.mem_cons_self).1] at hmark
      cases hmark
  | cons c text ih =>
    cases text' with
    | nil =>
      have hmark := hx' c _ heq.symm
      rw [(h c List.mem_cons_self).1] at hmark
      cases hmark
    | cons c' text' =>
      obtain ⟨rfl, htail⟩ := List.cons.inj heq
      obtain ⟨rfl, hrest⟩ := ih (fun d hd => h d (List.mem_cons_of_mem c hd))
        (fun d hd => h' d (List.mem_cons_of_mem c hd)) htail
      exact ⟨rfl, hrest⟩

theorem stops_cons {c : Char} (h : isMark c = true) (rest : List Char) : Stops (c :: rest) := by
  rintro d later ⟨⟩
  exact h

theorem Follows.stops {x : List Char} (h : Follows x) : Stops x := fun c rest heq => by
  rcases h c rest heq with rfl | hclosing
  · rfl
  · exact isMark_of_isClosing hclosing

theorem not_follows_mark (bracket : Bracket) (rest : List Char) : ¬ Follows (bracket.mark :: rest) := fun h => by
  rcases h _ _ rfl with hcomma | hclosing
  · revert hcomma
    cases bracket <;> decide
  · rw [bracket.isClosing_mark] at hclosing
    cases hclosing

/-- What begins a document with a text before its first mark. -/
theorem Document.skeleton_append {d : Document} (h : d.Legible) {x : List Char} (hx : Follows x) :
    ∃ text y, d.skeleton ++ x = text ++ y ∧ Solid text ∧ Stops y ∧ ∀ rest, y ≠ ':' :: rest := by
  cases d with
  | plain text =>
    refine ⟨text, x, rfl, h.2, hx.stops, ?_⟩
    rintro rest rfl
    rcases hx _ _ rfl with hcomma | hclosing
    · revert hcomma
      decide
    · revert hclosing
      decide
  | block name bracket items =>
    refine ⟨name, bracket.mark :: (items.skeleton ++ [bracket.closing] ++ x), ?_, h.1,
      stops_cons bracket.isMark_mark _, ?_⟩
    · rw [Document.skeleton, List.append_assoc, List.cons_append]
    · intro rest heq
      have hcolon := (List.cons.inj heq).1
      revert hcolon
      cases bracket <;> decide

theorem Document.opens_skeleton {d : Document} (h : d.Legible) (x : List Char) : Opens (d.skeleton ++ x) := by
  cases d with
  | plain text => exact h.2.opens h.1 x
  | block name bracket items =>
    rw [Document.skeleton, List.append_assoc, List.cons_append]
    exact h.1.opens_mark bracket _

theorem Items.opens_skeleton {label : List Char} {value : Document} {rest : Items}
    (h : (Items.cons label value rest).Legible) (x : List Char) :
    Opens ((Items.cons label value rest).skeleton ++ x) := by
  rw [Items.skeleton, List.append_assoc, List.append_assoc]
  exact h.1.opens_tagged (Document.opens_skeleton h.2.1 _)

/-- A label is told from the text at the beginning of a document by the colon behind it. -/
theorem label_inj {label label' : List Char} (h : Solid label) (h' : Solid label') {d d' : Document}
    (hd : d.Legible) (hd' : d'.Legible) {x x' : List Char} (hx : Follows x) (hx' : Follows x')
    (heq : tagged label ++ (d.skeleton ++ x) = tagged label' ++ (d'.skeleton ++ x')) :
    label = label' ∧ d.skeleton ++ x = d'.skeleton ++ x' := by
  have hcolon (z : List Char) : Stops (':' :: z) := stops_cons rfl z
  obtain ⟨text, y, hy, htext, hstops, hne⟩ := Document.skeleton_append hd hx
  obtain ⟨text', y', hy', htext', hstops', hne'⟩ := Document.skeleton_append hd' hx'
  by_cases hl : label = []
  · by_cases hl' : label' = []
    · rw [tagged, tagged, if_pos hl, if_pos hl'] at heq
      exact ⟨hl.trans hl'.symm, heq⟩
    · rw [tagged, tagged, if_pos hl, if_neg hl', List.nil_append, hy, List.append_assoc] at heq
      exact absurd (htext.append_inj h' hstops (hcolon _) heq).2 (hne _)
  · by_cases hl' : label' = []
    · rw [tagged, tagged, if_neg hl, if_pos hl', List.nil_append, hy', List.append_assoc] at heq
      exact absurd (h.append_inj htext' (hcolon _) hstops' heq).2.symm (hne' _)
    · rw [tagged, tagged, if_neg hl, if_neg hl', List.append_assoc, List.append_assoc] at heq
      obtain ⟨hlabel, hrest⟩ := h.append_inj h' (hcolon _) (hcolon _) heq
      exact ⟨hlabel, (List.cons.inj hrest).2⟩

theorem follows_rest (rest : Items) {c : Char} (hc : isClosing c = true) (x : List Char) :
    Follows ((if rest.isEmpty then [] else ',' :: rest.skeleton) ++ c :: x) := by
  split
  · rintro d later ⟨⟩
    exact .inr hc
  · rintro d later ⟨⟩
    exact .inl rfl

-- By cases on both documents: a name or a text ends at the first mark, and that mark tells a block from a text and
-- gives the block its bracket.
mutual
theorem Document.skeleton_inj : ∀ {d d' : Document} {x x' : List Char}, d.Legible → d'.Legible →
    Follows x → Follows x' → d.skeleton ++ x = d'.skeleton ++ x' → d = d' ∧ x = x'
  | .plain text, .plain text', x, x', h, h', hx, hx', heq => by
    obtain ⟨rfl, rfl⟩ := h.2.append_inj h'.2 hx.stops hx'.stops heq
    exact ⟨rfl, rfl⟩
  | .plain text, .block name bracket items, x, x', h, h', hx, hx', heq => by
    rw [Document.skeleton, Document.skeleton, List.append_assoc, List.cons_append] at heq
    obtain ⟨rfl, rfl⟩ := h.2.append_inj h'.1 hx.stops (stops_cons bracket.isMark_mark _) heq
    exact absurd hx (not_follows_mark bracket _)
  | .block name bracket items, .plain text, x, x', h, h', hx, hx', heq => by
    rw [Document.skeleton, Document.skeleton, List.append_assoc, List.cons_append] at heq
    obtain ⟨rfl, rfl⟩ := h.1.append_inj h'.2 (stops_cons bracket.isMark_mark _) hx'.stops heq
    exact absurd hx' (not_follows_mark bracket _)
  | .block name bracket items, .block name' bracket' items', x, x', h, h', hx, hx', heq => by
    rw [Document.skeleton, Document.skeleton, List.append_assoc, List.append_assoc, List.cons_append,
      List.cons_append] at heq
    obtain ⟨rfl, htail⟩ := h.1.append_inj h'.1 (stops_cons bracket.isMark_mark _)
      (stops_cons bracket'.isMark_mark _) heq
    obtain ⟨hmark, hitems⟩ := List.cons.inj htail
    obtain rfl := Bracket.mark_injective hmark
    rw [List.append_assoc, List.append_assoc] at hitems
    obtain ⟨rfl, rfl⟩ := Items.skeleton_inj h.2 h'.2 bracket.isClosing_closing hitems
    exact ⟨rfl, rfl⟩
theorem Items.skeleton_inj : ∀ {items items' : Items} {c : Char} {x x' : List Char}, items.Legible →
    items'.Legible → isClosing c = true → items.skeleton ++ c :: x = items'.skeleton ++ c :: x' →
    items = items' ∧ x = x'
  | .nil, .nil, c, x, x', _, _, _, heq => ⟨rfl, (List.cons.inj heq).2⟩
  | .nil, .cons label value rest, c, x, x', _, h', hc, heq => by
    obtain ⟨d, later, hd, hopens⟩ := Items.opens_skeleton h' (c :: x')
    rw [hd] at heq
    rw [← (List.cons.inj heq).1, hc] at hopens
    cases hopens
  | .cons label value rest, .nil, c, x, x', h, _, hc, heq => by
    obtain ⟨d, later, hd, hopens⟩ := Items.opens_skeleton h (c :: x)
    rw [hd] at heq
    rw [(List.cons.inj heq).1, hc] at hopens
    cases hopens
  | .cons label value rest, .cons label' value' rest', c, x, x', h, h', hc, heq => by
    rw [Items.skeleton, Items.skeleton, List.append_assoc, List.append_assoc, List.append_assoc,
      List.append_assoc] at heq
    have hfollows := follows_rest rest hc x
    have hfollows' := follows_rest rest' hc x'
    obtain ⟨rfl, hvalue⟩ := label_inj h.1 h'.1 h.2.1 h'.2.1 hfollows hfollows' heq
    obtain ⟨rfl, hrest⟩ := Document.skeleton_inj h.2.1 h'.2.1 hfollows hfollows' hvalue
    have hcomma : c ≠ ',' := by
      rintro rfl
      cases hc
    cases rest with
    | nil =>
      cases rest' with
      | nil => exact ⟨rfl, (List.cons.inj hrest).2⟩
      | cons => exact absurd (List.cons.inj hrest).1 hcomma
    | cons =>
      cases rest' with
      | nil => exact absurd (List.cons.inj hrest).1.symm hcomma
      | cons =>
        obtain ⟨htail, hx⟩ := Items.skeleton_inj h.2.2 h'.2.2 hc (List.cons.inj hrest).2
        exact ⟨by rw [htail], hx⟩
end

theorem follows_nil : Follows [] := nofun

/-- Documents of one skeleton are one. -/
theorem Document.skeleton_injective {d d' : Document} (h : d.Legible) (h' : d'.Legible)
    (heq : d.skeleton = d'.skeleton) : d = d' :=
  (Document.skeleton_inj h h' follows_nil follows_nil (congrArg (· ++ []) heq)).1

/-- Documents of one form, on one line or spread over lines, are one. -/
theorem Document.eq_of_compact {d d' : Document} (h : d.Legible) (h' : d'.Legible) (heq : d.compact = d'.compact) :
    d = d' := by
  refine Document.skeleton_injective h h' ?_
  rw [← Document.unspaced_compact h, ← Document.unspaced_compact h', heq]

theorem Document.eq_of_spread {d d' : Document} (h : d.Legible) (h' : d'.Legible) {depth : Nat}
    (heq : d.spread depth = d'.spread depth) : d = d' := by
  have hd := Document.settled_spread h depth []
  have hd' := Document.settled_spread h' depth []
  rw [heq, hd'] at hd
  exact (Document.skeleton_inj h' h follows_nil follows_nil hd).1.symm

end SceneScript.Text
