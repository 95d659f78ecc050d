/-
What a dump says. The names, numbers and labels of a scene's dump hold no mark of a document, so the dump shows
where each of them ends, and a number is told by its text. So a scene can be told from its dump, in either form.
Values are one if their bits are (`Number.ofBits_toBits`): the zeros are two values, the undefined value is one.
Both forms hold the same text but for blanks and commas before closing brackets, and a dump spread over lines is
indented by its open brackets (`dumps_agree`).
-/
import SceneScript.Proofs.Printing
import SceneScript.Proofs.Indentation
namespace SceneScript

open Number Space Text

/-! ## Legible dumps -/

namespace Text

instance (text : List Char) : Decidable (Solid text) :=
  List.decidableBAll (fun c => isMark c = false ∧ isSpacing c = false) text

theorem legible_ofList {items : List (List Char × Document)} (h : ∀ item ∈ items, Solid item.1 ∧ item.2.Legible) :
    (Items.ofList items).Legible := by
  induction items with
  | nil => trivial
  | cons item items ih =>
    rw [List.forall_mem_cons] at h
    exact ⟨h.1.1, h.1.2, ih h.2⟩

theorem legible_values {values : List Document} (h : ∀ value ∈ values, value.Legible) :
    (Items.ofList (values.map fun value => ([], value))).Legible := by
  refine legible_ofList fun item hitem => ?_
  obtain ⟨value, hvalue, rfl⟩ := List.mem_map.1 hitem
  exact ⟨nofun, h value hvalue⟩

theorem legible_list {values : List Document} (h : ∀ value ∈ values, value.Legible) :
    (Document.list values).Legible := ⟨nofun, legible_values h⟩

theorem legible_record {name : String} {fields : List (String × Document)} (hname : Solid name.toList)
    (h : ∀ field ∈ fields, Solid field.1.toList ∧ field.2.Legible) : (Document.record name fields).Legible := by
  refine ⟨hname, legible_ofList fun item hitem => ?_⟩
  obtain ⟨field, hfield, rfl⟩ := List.mem_map.1 hitem
  exact h field hfield

theorem ofList_injective : Function.Injective Items.ofList := by
  intro items
  induction items with
  | nil =>
    rintro (_ | ⟨item, items'⟩) h
    · rfl
    · cases h
  | cons item items ih =>
    rintro (_ | ⟨item', items'⟩) h
    · cases h
    · obtain ⟨hlabel, hvalue, hrest⟩ := Items.cons.inj h
      rw [Prod.ext hlabel hvalue, ih hrest]

theorem values_injective : Function.Injective fun values : List Document =>
    Items.ofList (values.map fun value => ([], value)) :=
  ofList_injective.comp (List.map_injective_iff.2 fun _ _ h => (Prod.mk.inj h).2)

theorem list_injective : Function.Injective Document.list := fun _ _ h =>
  values_injective (Document.block.inj h).2.2

theorem record_inj {name name' : String} {fields fields' : List (String × Document)}
    (h : Document.record name fields = .record name' fields') : fields = fields' := by
  have hfields := ofList_injective (Document.block.inj h).2.2
  refine List.map_injective_iff.2 (fun f f' hf => ?_) hfields
  obtain ⟨hlabel, hvalue⟩ := Prod.mk.inj hf
  exact Prod.ext (String.toList_inj.1 hlabel) hvalue

end Text

namespace Dump

theorem solid_of_numeralChars {cs : List Char} (h : ∀ c ∈ cs, IsNumeralChar c) : Solid cs := fun c hc =>
  ⟨(h c hc).eq_false (by decide) (by decide), (h c hc).eq_false (by decide) (by decide)⟩

theorem legible_integer (n : Int32) : (Document.plain (integerText n.toInt)).Legible := by
  have hspells := spellsInteger_integerText n.toInt
  exact ⟨hspells.ne_nil, solid_of_numeralChars hspells.chars⟩

theorem legible_number (x : Float) : (number x).Legible := by
  obtain ⟨hne, hchars⟩ : style.number x ≠ [] ∧ _ := number_chars (.inr rfl) x
  exact ⟨hne, solid_of_numeralChars hchars⟩

theorem legible_numbers (xs : List Float) : (Document.list (xs.map number)).Legible :=
  legible_list (List.forall_mem_map.2 fun x _ => legible_number x)

theorem legible_vector (v : Vec3 Float) : (vector v).Legible :=
  legible_list (List.forall_mem_singleton.2 (legible_numbers v.toList))

theorem legible_matrix (m : Mat4 Float) : (matrix m).Legible :=
  legible_list (List.forall_mem_map.2 fun column _ => legible_numbers column.toList)

theorem legible_light (l : Light Float) : (light l).Legible := by
  refine legible_record (by decide) ?_
  simp only [List.forall_mem_cons]
  exact ⟨⟨by decide, legible_numbers _⟩, ⟨by decide, legible_vector _⟩, nofun⟩

theorem legible_material (m : Material Float) : (material m).Legible := by
  refine legible_record (by decide) ?_
  simp only [List.forall_mem_cons]
  exact ⟨⟨by decide, legible_vector _⟩, ⟨by decide, legible_vector _⟩, ⟨by decide, legible_number _⟩,
    ⟨by decide, legible_vector _⟩, ⟨by decide, legible_number _⟩, nofun⟩

theorem legible_sphere (s : Sphere Float) : (sphere s).Legible := by
  refine legible_record (by decide) ?_
  simp only [List.forall_mem_cons]
  exact ⟨⟨by decide, legible_matrix _⟩, ⟨by decide, legible_material _⟩, nofun⟩

theorem legible_object : ∀ o : SceneObject Float, (object o).Legible
  | .sphere s => ⟨by decide, legible_values (List.forall_mem_singleton.2 (legible_sphere s))⟩

theorem legible_scene (s : Scene Float) : (scene s).Legible := by
  refine legible_record (by decide) ?_
  simp only [List.forall_mem_cons]
  exact ⟨⟨by decide, legible_integer _⟩, ⟨by decide, legible_number _⟩, ⟨by decide, legible_vector _⟩,
    ⟨by decide, legible_vector _⟩,
    ⟨by decide, legible_list (List.forall_mem_map.2 fun l _ => legible_light l)⟩,
    ⟨by decide, legible_list (List.forall_mem_map.2 fun o _ => legible_object o)⟩, nofun⟩

end Dump

/-! ## Titled dumps -/

namespace Text

@[simp] theorem titled_plain (text : List Char) : (Document.plain text).Titled := trivial

@[simp] theorem titled_ofList {items : List (List Char × Document)} :
    (Items.ofList items).Titled ↔ ∀ item ∈ items, item.2.Titled := by
  induction items with
  | nil => simp [Items.ofList, Items.Titled]
  | cons item items ih => simp [Items.ofList, Items.Titled, ih]

@[simp] theorem titled_list {values : List Document} :
    (Document.list values).Titled ↔ ∀ value ∈ values, value.Titled := by
  simp [Document.list, Document.Titled]

@[simp] theorem titled_call {name : String} {values : List Document} :
    (Document.call name values).Titled ↔ ∀ value ∈ values, value.Titled := by
  simp [Document.call, Document.Titled]

@[simp] theorem titled_record {name : String} {fields : List (String × Document)} :
    (Document.record name fields).Titled ↔ name ≠ "" ∧ ∀ field ∈ fields, field.2.Titled := by
  rw [Document.record, Document.Titled, titled_ofList, List.forall_mem_map]
  simp

end Text

namespace Dump

@[simp] theorem titled_number (x : Float) : (number x).Titled := trivial

@[simp] theorem titled_vector (v : Vec3 Float) : (vector v).Titled := by
  simp [vector, point]

@[simp] theorem titled_light (l : Light Float) : (light l).Titled := by
  simp [light, point]

@[simp] theorem titled_material (m : Material Float) : (material m).Titled := by
  simp [material]

@[simp] theorem titled_object : ∀ o : SceneObject Float, (object o).Titled
  | .sphere s => by simp [object, sphere, matrix]

theorem titled_scene (s : Scene Float) : (scene s).Titled := by
  simp [scene]

/-! ## What each part says -/

theorem number_injective : Function.Injective number := fun _ _ h =>
  Number.number_injective (.inr rfl) (Document.plain.inj h)

theorem numbers_injective : Function.Injective fun xs : List Float => Document.list (xs.map number) :=
  list_injective.comp (List.map_injective_iff.2 number_injective)

theorem integer_injective : Function.Injective fun n : Int32 => Document.plain (integerText n.toInt) := by
  intro n m h
  have hn := ofWord?_integerText n
  rw [Document.plain.inj h, ofWord?_integerText m] at hn
  exact (Option.some.inj hn).symm

theorem point_injective : Function.Injective point := by
  rintro ⟨x, y, z⟩ ⟨x', y', z'⟩ h
  have hlist := numbers_injective h
  simp only [Vec3.toList, List.cons.injEq] at hlist
  obtain ⟨rfl, rfl, rfl, -⟩ := hlist
  rfl

theorem vector_injective : Function.Injective vector := fun _ _ h =>
  point_injective (List.cons.inj (list_injective h)).1

theorem column_injective :
    Function.Injective fun column : Vec4 Float => Document.list (column.toList.map number) := by
  rintro ⟨x, y, z, w⟩ ⟨x', y', z', w'⟩ h
  have hlist := numbers_injective h
  simp only [Vec4.toList, List.cons.injEq] at hlist
  obtain ⟨rfl, rfl, rfl, rfl, -⟩ := hlist
  rfl

theorem rows_injective : Function.Injective (Mat4.rows : Mat4 Float → List (Vec4 Float)) := by
  rintro ⟨r0, r1, r2, r3⟩ ⟨r0', r1', r2', r3'⟩ h
  simp only [Mat4.rows, List.cons.injEq] at h
  obtain ⟨rfl, rfl, rfl, rfl, -⟩ := h
  rfl

theorem matrix_injective : Function.Injective matrix := by
  intro m m' h
  have hcolumns := rows_injective (List.map_injective_iff.2 column_injective (list_injective h))
  rw [← Mat4.transpose_transpose m, hcolumns, Mat4.transpose_transpose]

theorem light_injective : Function.Injective light := by
  rintro ⟨position, color⟩ ⟨position', color'⟩ h
  have hfields := record_inj h
  simp only [List.cons.injEq, Prod.mk.injEq, true_and, and_true] at hfields
  rw [point_injective hfields.1, vector_injective hfields.2]

theorem material_injective : Function.Injective material := by
  rintro ⟨diffuse, specular, shininess, refraction, index⟩ ⟨diffuse', specular', shininess', refraction', index'⟩ h
  have hfields := record_inj h
  simp only [List.cons.injEq, Prod.mk.injEq, true_and, and_true] at hfields
  obtain ⟨hdiffuse, hspecular, hshininess, hrefraction, hindex⟩ := hfields
  rw [vector_injective hdiffuse, vector_injective hspecular, number_injective hshininess,
    vector_injective hrefraction, number_injective hindex]

theorem sphere_injective : Function.Injective sphere := by
  rintro ⟨transform, material⟩ ⟨transform', material'⟩ h
  have hfields := record_inj h
  simp only [List.cons.injEq, Prod.mk.injEq, true_and, and_true] at hfields
  rw [matrix_injective hfields.1, material_injective hfields.2]

theorem object_injective : Function.Injective object := by
  rintro ⟨s⟩ ⟨s'⟩ h
  have hvalues := values_injective (Document.block.inj h).2.2
  rw [sphere_injective (List.cons.inj hvalues).1]

theorem scene_injective : Function.Injective scene := by
  rintro ⟨size, distance, background, ambient, lights, objects⟩
    ⟨size', distance', background', ambient', lights', objects'⟩ h
  have hfields := record_inj h
  simp only [List.cons.injEq, Prod.mk.injEq, true_and, and_true] at hfields
  obtain ⟨hsize, hdistance, hbackground, hambient, hlights, hobjects⟩ := hfields
  have hlights' := List.map_injective_iff.2 light_injective (list_injective hlights)
  have hobjects' := List.map_injective_iff.2 object_injective (list_injective hobjects)
  rw [integer_injective hsize, number_injective hdistance, vector_injective hbackground,
    vector_injective hambient, Array.toList_inj.1 hlights', Array.toList_inj.1 hobjects']

end Dump

namespace Scene

theorem dump_injective : Function.Injective dump := by
  intro s t h
  have hcompact := String.ofList_injective h
  exact Dump.scene_injective (Document.eq_of_compact (Dump.legible_scene s) (Dump.legible_scene t) hcompact)

theorem spreadDump_injective : Function.Injective spreadDump := by
  intro s t h
  have hspread := String.ofList_injective h
  exact Dump.scene_injective (Document.eq_of_spread (Dump.legible_scene s) (Dump.legible_scene t) hspread)

theorem wellIndented_spreadDump (s : Scene Float) : WellIndented s.spreadDump.toList := by
  rw [spreadDump, String.toList_ofList]
  exact Document.wellIndented_spread (Dump.legible_scene s) (Dump.titled_scene s)

end Scene

/-- A scene can be told from its dump, on one line or spread over lines. -/
theorem dumps_identify (s t : Scene Float) :
    (s.dump = t.dump ↔ s = t) ∧ (s.spreadDump = t.spreadDump ↔ s = t) :=
  ⟨Scene.dump_injective.eq_iff, Scene.spreadDump_injective.eq_iff⟩

/-- Both dumps of a scene say the same, and the lines of the one spread over lines stand as far in as brackets are
open before them. -/
theorem dumps_agree (s : Scene Float) :
    settled (unspaced s.spreadDump.toList) = s.dump.toList.filter (· ≠ ' ') ∧
      WellIndented s.spreadDump.toList := by
  refine ⟨?_, s.wellIndented_spreadDump⟩
  rw [Scene.spreadDump, Scene.dump, String.toList_ofList, String.toList_ofList]
  exact Document.settled_spread_eq (Dump.legible_scene s) 0

/-- In the dump of an empty scene a line closes the inner list of the background. -/
theorem dumps_agree_empty :
    let dump := (Scene.empty : Scene Float).spreadDump.toList
    let line := List.replicate 8 ' ' ++ [']', ',']
    LineOf dump (dump.take 126) line (dump.drop 136) ∧
      openAfter? [] (dump.take 126) = some [.square, .square, .curly] ∧
      IsAligned [.square, .square, .curly] line := by
  intro dump line
  have hdump : dump = (Dump.scene Scene.empty).spread 0 := String.toList_ofList
  have hline : LineOf dump (dump.take 126) line (dump.drop 136) := by
    rw [hdump]
    exact ⟨by decide +kernel, .inr (by decide +kernel), .inr (by decide +kernel), by decide⟩
  have hopened : openAfter? [] (dump.take 126) = some [.square, .square, .curly] := by
    rw [hdump]
    decide +kernel
  obtain ⟨opened, hbefore, haligned⟩ := (dumps_agree Scene.empty).2 _ _ _ hline
  rw [hopened] at hbefore
  obtain rfl := Option.some.inj hbefore
  exact ⟨hline, hopened, haligned⟩

end SceneScript
