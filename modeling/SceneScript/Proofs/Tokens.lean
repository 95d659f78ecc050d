/-
Tokens. What a dump says is in its tokens, the longest texts in it without marks and blanks. Both forms of a document
have the same ones, which are its names, labels and texts in order (`Document.solids_compact`,
`Document.solids_spread`). So the tokens of a scene's dump are known, field by field (`tokens_dump`): each number of
the scene is a token of its own, behind the name of its field, and it reads back (`printed_numbers_read_back`).
-/
import SceneScript.Console.Outcome
import SceneScript.Proofs.Dumps
namespace SceneScript

open Number Space Text

namespace Number

theorem toList_toString_int (n : Int) : (toString n).toList = integerText n := by
  cases n with
  | ofNat m => exact String.toList_ofList
  | negSucc m =>
    rw [integerText, if_pos (Int.negSucc_lt_zero m)]
    show ("-" ++ Nat.repr (m + 1)).toList = '-' :: Nat.toDigits 10 (m + 1)
    rw [String.toList_append, Nat.toList_repr]
    rfl

theorem ofList_integerText (n : Int) : String.ofList (integerText n) = toString n := by
  rw [← toList_toString_int, String.ofList_toList]

end Number

/-! ## Solid parts -/

namespace Text

/-- A character that belongs to no token. -/
def isDivider (c : Char) : Bool := isMark c || isSpacing c

/-- The longest parts of a text without marks and blanks, in order. -/
def solids (text : List Char) : List (List Char) := (text.splitOnP isDivider).filter (· ≠ [])

/-- The tokens of a text, in order. -/
def tokens (text : String) : List String := (solids text.toList).map String.ofList

theorem solids_nil : solids [] = [] := by decide

/-- A divider ends what stands before it, and nothing else. -/
theorem solids_append_divider {c : Char} (hc : isDivider c = true) (x y : List Char) :
    solids (x ++ c :: y) = solids x ++ solids y := by
  rw [solids, List.splitOnP_append_cons _ _ hc, List.filter_append]
  rfl

theorem Solid.solids {text : List Char} (h : Solid text) : Text.solids text = [text].filter (· ≠ []) := by
  have hdivider : ∀ c ∈ text, isDivider c = false := by
    intro c hc
    rw [isDivider, (h c hc).1, (h c hc).2, Bool.or_self]
  rw [Text.solids, List.splitOnP_eq_singleton hdivider]

/-- A text of dividers only. -/
def Divides (text : List Char) : Prop := ∀ c ∈ text, isDivider c = true

instance (text : List Char) : Decidable (Divides text) := List.decidableBAll (isDivider · = true) text

theorem Bracket.divides (b : Bracket) : Divides b.opening ∧ b.opening ≠ [] ∧ Divides b.padding := by
  cases b <;> decide

theorem Divides.solids_append {dividers : List Char} (h : Divides dividers) (x : List Char) :
    solids (dividers ++ x) = solids x := by
  induction dividers with
  | nil => rfl
  | cons c dividers ih =>
    have hc := solids_append_divider (h c List.mem_cons_self) [] (dividers ++ x)
    exact hc.trans (ih fun d hd => h d (List.mem_cons_of_mem c hd))

/-- Dividers between two texts part them. -/
theorem Divides.solids_between {dividers : List Char} (h : Divides dividers) (hne : dividers ≠ []) (x y : List Char) :
    solids (x ++ (dividers ++ y)) = solids x ++ solids y := by
  cases dividers with
  | nil => exact absurd rfl hne
  | cons c dividers =>
    have hlater : Divides dividers := fun d hd => h d (List.mem_cons_of_mem c hd)
    rw [List.cons_append, solids_append_divider (h c List.mem_cons_self), hlater.solids_append]

theorem Divides.append_solids {dividers : List Char} (h : Divides dividers) (x : List Char) :
    solids (x ++ dividers) = solids x := by
  by_cases hne : dividers = []
  · rw [hne, List.append_nil]
  · have hbetween := h.solids_between hne x []
    rwa [List.append_nil, solids_nil, List.append_nil] at hbetween

/-- The marks of a block, and the blanks next to them, part its name from its items. -/
theorem solids_block {items : Items} {text before behind : List Char} (hempty : items = .nil → text = [])
    (hbefore : Divides before) (hbehind : Divides behind) (name : List Char) (bracket : Bracket) :
    solids (name ++ bracket.opening ++ (if items.isEmpty then [] else before ++ text ++ behind) ++
      [bracket.closing]) = solids name ++ solids text := by
  obtain ⟨hopening, hne, -⟩ := bracket.divides
  have hclosing : isDivider bracket.closing = true := by
    rw [isDivider, isMark_of_isClosing bracket.isClosing_closing, Bool.true_or]
  rw [solids_append_divider hclosing, solids_nil, List.append_nil, List.append_assoc,
    hopening.solids_between hne]
  cases items with
  | nil =>
    rw [hempty rfl]
    rfl
  | cons => exact congrArg (_ ++ ·) ((hbehind.append_solids _).trans (hbefore.solids_append _))

theorem solids_labelText_append (label x : List Char) : solids (labelText label ++ x) = solids label ++ solids x := by
  have hcolon : Divides [':', ' '] := by decide
  unfold labelText
  split
  · rename_i hlabel
    rw [hlabel, solids_nil]
    rfl
  · rw [List.append_assoc, hcolon.solids_between (by decide)]

/-! ## Documents -/

mutual
/-- The names, labels and texts of a document, in order. -/
def Document.solids : Document → List (List Char)
  | .plain text => [text]
  | .block name _ items => [name].filter (· ≠ []) ++ items.solids
def Items.solids : Items → List (List Char)
  | .nil => []
  | .cons label value rest => [label].filter (· ≠ []) ++ value.solids ++ rest.solids
end

mutual
theorem Document.solids_compact : ∀ {d : Document}, d.Legible → Text.solids d.compact = d.solids
  | .plain text, h => by
    rw [Document.compact, h.2.solids, Document.solids, List.filter_cons_of_pos (by simpa using h.1)]
    rfl
  | .block name bracket items, h => by
    have hpadding := bracket.divides.2.2
    have hempty : items = .nil → items.compact = [] := by
      rintro rfl
      rfl
    rw [Document.compact, solids_block hempty hpadding hpadding, h.1.solids, Items.solids_compact h.2,
      Document.solids]
theorem Items.solids_compact : ∀ {items : Items}, items.Legible → Text.solids items.compact = items.solids
  | .nil, _ => solids_nil
  | .cons label value rest, h => by
    have hcomma : Divides [',', ' '] := by decide
    have hrest : Text.solids (value.compact ++ if rest.isEmpty then [] else ',' :: ' ' :: rest.compact) =
        value.solids ++ rest.solids := by
      rw [← Document.solids_compact h.2.1, ← Items.solids_compact h.2.2]
      split
      · cases rest with
        | nil => rw [List.append_nil, Items.compact, solids_nil, List.append_nil]
        | cons => contradiction
      · exact hcomma.solids_between (by decide) _ _
    rw [Items.compact, List.append_assoc, solids_labelText_append, h.1.solids, hrest, Items.solids,
      List.append_assoc]
end

theorem divides_indent (depth : Nat) : Divides (indent depth) := by
  intro c hc
  rw [List.eq_of_mem_replicate hc]
  rfl

mutual
theorem Document.solids_spread : ∀ {d : Document}, d.Legible → ∀ depth, Text.solids (d.spread depth) = d.solids
  | .plain text, h, depth => by
    rw [Document.spread, h.2.solids, Document.solids, List.filter_cons_of_pos (by simpa using h.1)]
    rfl
  | .block name bracket items, h, depth => by
    have hfeed : Divides ['\n'] := by decide
    have hempty : items = .nil → items.spread (depth + 1) = [] := by
      rintro rfl
      rfl
    have hblock := solids_block hempty hfeed (divides_indent depth) name bracket
    rw [Items.solids_spread h.2, h.1.solids] at hblock
    rw [Document.spread, Document.solids]
    exact hblock
theorem Items.solids_spread : ∀ {items : Items}, items.Legible → ∀ depth,
    Text.solids (items.spread depth) = items.solids
  | .nil, _, _ => solids_nil
  | .cons label value rest, h, depth => by
    have hcomma : Divides [',', '\n'] := by decide
    have hrest : Text.solids (value.spread depth ++ ',' :: '\n' :: rest.spread depth) =
        value.solids ++ rest.solids := by
      rw [← Document.solids_spread h.2.1 depth, ← Items.solids_spread h.2.2 depth]
      exact hcomma.solids_between (by decide) _ _
    rw [Items.spread, List.append_assoc, List.append_assoc, (divides_indent depth).solids_append,
      solids_labelText_append, h.1.solids, hrest, Items.solids, List.append_assoc]
end

/-- The names, labels and texts of a document as strings. -/
def Document.tokens (d : Document) : List String := d.solids.map String.ofList

theorem solids_ofList (items : List (List Char × Document)) : (Items.ofList items).solids =
    items.flatMap fun item => [item.1].filter (· ≠ []) ++ item.2.solids := by
  induction items with
  | nil => rfl
  | cons item items ih => rw [Items.ofList, Items.solids, ih, List.flatMap_cons]

theorem map_filter_toList (name : String) :
    ([name.toList].filter (· ≠ [])).map String.ofList = [name].filter (· ≠ "") := by
  by_cases hname : name = "" <;> simp [hname]

theorem tokens_values (values : List Document) :
    (Items.ofList (values.map fun value => ([], value))).solids.map String.ofList =
      values.flatMap Document.tokens := by
  rw [solids_ofList, List.flatMap_map, List.map_flatMap]
  rfl

@[simp] theorem tokens_plain (text : List Char) : (Document.plain text).tokens = [String.ofList text] := rfl

@[simp] theorem tokens_list (values : List Document) :
    (Document.list values).tokens = values.flatMap Document.tokens := tokens_values values

@[simp] theorem tokens_call (name : String) (values : List Document) :
    (Document.call name values).tokens = [name].filter (· ≠ "") ++ values.flatMap Document.tokens := by
  rw [Document.tokens, Document.call, Document.solids, List.map_append, map_filter_toList, tokens_values]

@[simp] theorem tokens_record (name : String) (fields : List (String × Document)) :
    (Document.record name fields).tokens =
      [name].filter (· ≠ "") ++ fields.flatMap fun field => [field.1].filter (· ≠ "") ++ field.2.tokens := by
  rw [Document.tokens, Document.record, Document.solids, List.map_append, map_filter_toList, solids_ofList,
    List.flatMap_map, List.map_flatMap]
  simp only [List.map_append, map_filter_toList]
  rfl

end Text

/-! ## What dumps say -/

open Dump (style)

def Space.Vec3.tokens (v : Vec3 Float) : List String := [style.text v.x, style.text v.y, style.text v.z]

/-- Column by column. -/
def Space.Mat4.tokens (m : Mat4 Float) : List String :=
  [style.text m.row0.x, style.text m.row1.x, style.text m.row2.x, style.text m.row3.x,
    style.text m.row0.y, style.text m.row1.y, style.text m.row2.y, style.text m.row3.y,
    style.text m.row0.z, style.text m.row1.z, style.text m.row2.z, style.text m.row3.z,
    style.text m.row0.w, style.text m.row1.w, style.text m.row2.w, style.text m.row3.w]

def Light.tokens (l : Light Float) : List String :=
  "Light" :: "position" :: l.position.tokens ++ "color" :: l.color.tokens

def Material.tokens (m : Material Float) : List String :=
  "Material" :: "diffuse" :: m.diffuse.tokens ++ "specular" :: m.specular.tokens ++
    "shininess" :: style.text m.shininess :: "refraction" :: m.refraction.tokens ++
    ["refractive_index", style.text m.refractiveIndex]

def SceneObject.tokens : SceneObject Float → List String
  | .sphere s => "Sphere" :: "Sphere" :: "transform" :: s.transform.tokens ++ "material" :: s.material.tokens

/-- What the dump of a scene says: each field by its name, followed by its numbers. -/
def Scene.tokens (s : Scene Float) : List String :=
  "Scene" :: "image_size" :: toString s.imageSize.toInt :: "corner_dist" :: style.text s.cornerDistance ::
    "bg_color" :: s.background.tokens ++ "ambient_light" :: s.ambient.tokens ++
    "lights" :: s.lights.toList.flatMap Light.tokens ++ "objects" :: s.objects.toList.flatMap SceneObject.tokens

namespace Dump

@[simp] theorem tokens_number (x : Float) : (number x).tokens = [style.text x] := rfl

@[simp] theorem tokens_point (v : Vec3 Float) : (point v).tokens = v.tokens := by
  simp [point, Vec3.toList, Vec3.tokens]

@[simp] theorem tokens_vector (v : Vec3 Float) : (vector v).tokens = v.tokens := by
  simp [vector]

@[simp] theorem tokens_matrix (m : Mat4 Float) : (matrix m).tokens = m.tokens := by
  simp [matrix, Mat4.transpose, Mat4.rows, Vec4.toList, Mat4.tokens]

@[simp] theorem tokens_light (l : Light Float) : (light l).tokens = l.tokens := by
  simp [light, Light.tokens]

@[simp] theorem tokens_material (m : Material Float) : (material m).tokens = m.tokens := by
  simp [material, Material.tokens]

@[simp] theorem tokens_object : ∀ o : SceneObject Float, (object o).tokens = o.tokens
  | .sphere s => by simp [object, sphere, SceneObject.tokens]

theorem tokens_scene (s : Scene Float) : (scene s).tokens = s.tokens := by
  simp only [scene, Scene.tokens, ← ofList_integerText]
  simp [List.flatMap_map]

end Dump

theorem tokens_dump (s : Scene Float) : tokens s.dump = s.tokens := by
  rw [tokens, Scene.dump, String.toList_ofList, Document.solids_compact (Dump.legible_scene s)]
  exact Dump.tokens_scene s

theorem tokens_spreadDump (s : Scene Float) : tokens s.spreadDump = s.tokens := by
  rw [tokens, Scene.spreadDump, String.toList_ofList, Document.solids_spread (Dump.legible_scene s)]
  exact Dump.tokens_scene s

/-- Numbers read back as they are printed. In both dumps of a scene every number of the scene is a token, behind the
name of its field, and the summary says the corner distance. In a dump the smallest and the largest numbers have an
exponent, in the summary none has. -/
theorem printed_numbers_read_back :
    Dump.style.ReadsBack ∧ Console.summaryStyle.ReadsBack ∧
    (∀ scene : Scene Float, tokens scene.dump = scene.tokens ∧ tokens scene.spreadDump = scene.tokens) ∧
    (∀ scene : Scene Float, ∃ before behind, Console.summary scene =
      before ++ ", corner distance " ++ Console.summaryStyle.text scene.cornerDistance ++ ", " ++ behind) ∧
    (∀ x : Float, 'e' ∈ Dump.style.number x ↔ x.isFinite = true ∧ magnitudeOf x ≠ 0 ∧
      (magnitudeOf x < 1 / 10 ^ 4 ∨ 10 ^ 16 ≤ magnitudeOf x)) ∧
    ∀ x : Float, 'e' ∉ Console.summaryStyle.number x := by
  refine ⟨readsBack (.inr rfl), readsBack (.inl rfl), fun scene => ⟨tokens_dump scene, tokens_spreadDump scene⟩,
    fun scene => ?_, Dump.mark_mem_number_iff, fun x hmem => ?_⟩
  · refine ⟨"scene: " ++ toString scene.imageSize.toInt ++ "x" ++ toString scene.imageSize.toInt,
      toString scene.lights.size ++ " light(s), " ++ toString scene.objects.size ++ " object(s)\n", ?_⟩
    unfold Console.summary
    simp only [String.append_assoc]
    rfl
  · cases ((mark_mem_number_iff (.inl rfl) x).1 hmem).2

end SceneScript
