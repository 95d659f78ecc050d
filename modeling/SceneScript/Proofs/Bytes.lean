/-
Files and texts: cutting bytes into lines and decoding each line is decoding the whole and cutting
the text, since no character but the line feed has the byte of a line feed in its encoding
(`cut_encode`). Conversely bytes whose lines can all be decoded are a text
(`exists_encode_of_cut`). So a file that is a text is read as that text, and any other file is
read up to its first line that is no text (`readScript_bytes`).
-/
import SceneScript.Proofs.Calls
namespace SceneScript.Text

/-! ## The bytes of characters -/

/-- The bytes that encode some characters. -/
def encode (cs : List Char) : List UInt8 := cs.flatMap String.utf8EncodeChar

@[simp] theorem encode_nil : encode [] = [] := rfl

@[simp] theorem encode_append (cs ds : List Char) : encode (cs ++ ds) = encode cs ++ encode ds :=
  List.flatMap_append

theorem encode_singleton (c : Char) : encode [c] = String.utf8EncodeChar c := by simp [encode]

theorem encode_cons (c : Char) (cs : List Char) : encode (c :: cs) = encode [c] ++ encode cs :=
  encode_append [c] cs

theorem encode_ne_nil {cs : List Char} (h : cs ≠ []) : encode cs ≠ [] := by
  cases cs with
  | nil => exact absurd rfl h
  | cons c cs => simp [encode]

theorem toByteArray_eq_iff {bytes : List UInt8} {text : String} :
    text.toByteArray = ⟨bytes.toArray⟩ ↔ bytes = encode text.toList := by
  have hencode : text.toByteArray = (encode text.toList).toByteArray := by
    conv => lhs; rw [← String.ofList_toList (s := text), String.toByteArray_ofList]
    rfl
  rw [hencode, ByteArray.ext_iff, List.data_toByteArray]
  constructor
  · intro h
    exact (List.toArray_inj h).symm
  · rintro rfl
    rfl

/-- Bytes are decoded to a text iff they are the encoding of its characters. -/
theorem fromUTF8?_eq_some_iff {bytes : List UInt8} {text : String} :
    String.fromUTF8? ⟨bytes.toArray⟩ = some text ↔ bytes = encode text.toList := by
  rw [← toByteArray_eq_iff, String.fromUTF8?]
  split
  · rw [Option.some.injEq, ← String.toByteArray_inj]
    exact eq_comm
  · rename_i hinvalid
    refine ⟨nofun, fun h => absurd ?_ hinvalid⟩
    rw [← h]
    exact text.isValidUTF8

/-- A character below 128 is its own byte, and every byte of any other character is at least 128. -/
theorem encode_singleton_cases (c : Char) :
    (c.toNat < 128 ∧ encode [c] = [UInt8.ofNat c.toNat]) ∨
      (128 ≤ c.toNat ∧ ∀ b ∈ encode [c], 128 ≤ b.toNat) := by
  have hval : c.val.toNat = c.toNat := rfl
  rw [encode_singleton, String.utf8EncodeChar]
  simp only [hval]
  split
  · exact .inl ⟨by omega, rfl⟩
  · refine .inr ⟨by omega, fun b hb => ?_⟩
    split at hb
    · simp only [List.mem_cons, List.not_mem_nil, or_false] at hb
      rcases hb with rfl | rfl <;> rw [UInt8.toNat_ofNat'] <;> omega
    split at hb
    · simp only [List.mem_cons, List.not_mem_nil, or_false] at hb
      rcases hb with rfl | rfl | rfl <;> rw [UInt8.toNat_ofNat'] <;> omega
    · simp only [List.mem_cons, List.not_mem_nil, or_false] at hb
      rcases hb with rfl | rfl | rfl | rfl <;> rw [UInt8.toNat_ofNat'] <;> omega

/-! ## Cutting encoded characters -/

/-- The byte of a character below 128. -/
def byteOf (c : Char) : UInt8 := UInt8.ofNat c.toNat

section
variable {mark : Char} (hm : mark.toNat < 128)

include hm in
theorem encode_mark : encode [mark] = [byteOf mark] := by
  rcases encode_singleton_cases mark with ⟨-, h⟩ | ⟨h, -⟩
  · exact h
  · omega

include hm in
/-- The byte of a mark only encodes the mark. -/
theorem mem_encode_singleton_iff {c : Char} : byteOf mark ∈ encode [c] ↔ mark = c := by
  constructor
  · intro h
    have hbyte : (byteOf mark).toNat = mark.toNat := by
      rw [byteOf, UInt8.toNat_ofNat']
      omega
    rcases encode_singleton_cases c with ⟨hc, hcode⟩ | ⟨-, hlarge⟩
    · rw [hcode, List.mem_singleton] at h
      have hnat := congrArg UInt8.toNat h
      rw [hbyte, UInt8.toNat_ofNat'] at hnat
      exact Char.toNat_inj.1 (by omega)
    · have := hlarge _ h
      omega
  · rintro rfl
    simp [encode_mark hm]

include hm in
theorem mem_encode_iff {cs : List Char} : byteOf mark ∈ encode cs ↔ mark ∈ cs := by
  induction cs with
  | nil => simp
  | cons c cs ih => rw [encode_cons, List.mem_append, mem_encode_singleton_iff hm, ih, List.mem_cons]

include hm in
/-- A mark at the end of characters is its byte at the end of their encoding. -/
theorem dropReturn_encode (cs : List Char) :
    dropReturn (byteOf mark) (encode cs) = encode (dropReturn mark cs) := by
  rcases List.eq_nil_or_concat cs with rfl | ⟨cs, c, rfl⟩
  · rfl
  rw [List.concat_eq_append, encode_append]
  by_cases hc : c = mark
  · subst hc
    simp [dropReturn, encode_mark hm]
  · have hlast : (encode cs ++ encode [c]).getLast? ≠ some (byteOf mark) := by
      obtain ⟨init, b, hb⟩ := (List.eq_nil_or_concat (encode [c])).resolve_left
        (encode_ne_nil (List.cons_ne_nil c []))
      intro h
      rw [hb, List.concat_eq_append, List.getLast?_append, List.getLast?_concat, Option.some_or,
        Option.some.injEq] at h
      have hmem : byteOf mark ∈ encode [c] := by simp [hb, h]
      exact hc ((mem_encode_singleton_iff hm).1 hmem).symm
    rw [dropReturn, if_neg hlast, dropReturn, if_neg (by simpa using hc), encode_append]

end

/-- A sequence has no feed, or it is a line, a feed and a shorter sequence. -/
theorem feed_induction {α : Type} [DecidableEq α] (feed : α) {P : List α → Prop}
    (last : ∀ w, feed ∉ w → P w) (line : ∀ w rest, feed ∉ w → P rest → P (w ++ feed :: rest))
    (as : List α) : P as := by
  induction hn : as.length using Nat.strongRecOn generalizing as with
  | _ n ih =>
    by_cases hmem : feed ∈ as
    · obtain ⟨w, rest, rfl, hw⟩ := List.eq_append_cons_of_mem hmem
      rw [List.length_append, List.length_cons] at hn
      exact line w rest hw (ih rest.length (by omega) rest rfl)
    · exact last as hmem

section
variable (feed ret : Char) (hf : feed.toNat < 128) (hr : ret.toNat < 128)

include hf hr

/-- Cutting the encoding of some characters is cutting the characters and encoding each piece. -/
theorem cut_encode (cs : List Char) :
    cut (byteOf feed) (byteOf ret) (encode cs) = (cut feed ret cs).map encode := by
  induction cs using feed_induction feed with
  | last w hw =>
    have hw' : byteOf feed ∉ encode w := fun h => hw ((mem_encode_iff hf).1 h)
    by_cases hne : w = []
    · subst hne
      rfl
    · rw [cut_of_not_mem hw hne, cut_of_not_mem hw' (encode_ne_nil hne)]
      rfl
  | line w rest hw ih =>
    have hw' : byteOf feed ∉ encode w := fun h => hw ((mem_encode_iff hf).1 h)
    rw [encode_append, encode_cons, encode_mark hf, List.singleton_append, cut_feed hw', cut_feed hw,
      List.map_cons, dropReturn_encode hr, ih]

/-- Bytes whose lines are all encodings are an encoding. -/
theorem exists_encode_of_cut (bytes : List UInt8) :
    (∀ line ∈ cut (byteOf feed) (byteOf ret) bytes, ∃ cs, line = encode cs) →
      ∃ cs, bytes = encode cs := by
  induction bytes using feed_induction (byteOf feed) with
  | last w hw =>
    intro h
    by_cases hne : w = []
    · exact ⟨[], hne⟩
    · rw [cut_of_not_mem hw hne] at h
      exact h w (List.mem_singleton.2 rfl)
  | line w rest hw ih =>
    intro h
    rw [cut_feed hw] at h
    obtain ⟨ds, rfl⟩ := ih fun line hline => h line (by simp [hline])
    obtain ⟨cs, hcs⟩ := h _ List.mem_cons_self
    -- the line as it stands has at most one more return than the line that was cut
    obtain ⟨cs', rfl⟩ : ∃ cs', w = encode cs' := by
      by_cases hlast : w.getLast? = some (byteOf ret)
      · rw [dropReturn, if_pos hlast] at hcs
        obtain ⟨init, rfl⟩ := List.getLast?_eq_some_iff.1 hlast
        rw [List.dropLast_concat] at hcs
        exact ⟨cs ++ [ret], by rw [encode_append, encode_mark hr, hcs]⟩
      · rw [dropReturn, if_neg hlast] at hcs
        exact ⟨cs, hcs⟩
    exact ⟨cs' ++ feed :: ds, by rw [encode_append, encode_cons, encode_mark hf]; rfl⟩

end

/-! ## Lines of bytes and lines of texts -/

/-- The lines of the encoding of a text are those of the text. -/
theorem linesOfBytes_encode (text : String) :
    linesOfBytes (encode text.toList) = (lines text).map some := by
  have hcut : cut 0x0A 0x0D (encode text.toList) = (cut '\n' '\r' text.toList).map encode :=
    cut_encode '\n' '\r' (by decide) (by decide) text.toList
  rw [linesOfBytes, lines, hcut, List.map_map, List.map_map]
  refine List.map_congr_left fun cs _ => ?_
  exact fromUTF8?_eq_some_iff.2 (by rw [String.toList_ofList])

theorem exists_eq_map_some_append {β : Type} : ∀ {xs : List (Option β)}, none ∈ xs →
    ∃ (before : List β) (later : List (Option β)), xs = before.map some ++ none :: later
  | none :: xs, _ => ⟨[], xs, rfl⟩
  | some b :: xs, h => by
    have hmem : none ∈ xs := by simpa using h
    obtain ⟨before, later, rfl⟩ := exists_eq_map_some_append hmem
    exact ⟨b :: before, later, rfl⟩

/-- Bytes that are no text have a line that is none; the lines before it are texts. -/
theorem exists_linesOfBytes_eq {bytes : List UInt8}
    (h : String.fromUTF8? ⟨bytes.toArray⟩ = none) :
    ∃ (before : List String) (later : List (Option String)),
      linesOfBytes bytes = before.map some ++ none :: later := by
  have hnone : none ∈ linesOfBytes bytes := by
    refine Decidable.byContradiction fun hall => ?_
    have hlines : ∀ line ∈ cut (byteOf '\n') (byteOf '\r') bytes, ∃ cs, line = encode cs := by
      intro line hline
      cases hd : String.fromUTF8? ⟨line.toArray⟩ with
      | none => exact absurd (List.mem_map.2 ⟨line, hline, hd⟩) hall
      | some text => exact ⟨text.toList, fromUTF8?_eq_some_iff.1 hd⟩
    obtain ⟨cs, rfl⟩ := exists_encode_of_cut '\n' '\r' (by decide) (by decide) bytes hlines
    rw [fromUTF8?_eq_some_iff.2 (by rw [String.toList_ofList])] at h
    cases h
  exact exists_eq_map_some_append hnone

end SceneScript.Text

namespace SceneScript.Script

open Space Number Text

variable {α : Type} [Scalar α] [FromWord α]

/-- A file that is a text is read as that text: it has the same lines, and the result and the log
are the same. Any other file has a first line that is no text. If one of the lines before it fails,
the file is refused for that fault with the log up to there; otherwise it is refused because it is
no text, whatever that line and the lines behind it are. -/
theorem readScript_bytes (policy : Policy) (path : String) (bytes : List UInt8) :
    match String.fromUTF8? ⟨bytes.toArray⟩ with
    | some text => linesOfBytes bytes = (lines text).map some ∧
      (readScript policy path (.ok bytes) : Report α) = readText policy text
    | none => ∃ (before : List String) (later : List (Option String)),
      linesOfBytes bytes = before.map some ++ none :: later ∧
        (readScript policy path (.ok bytes) : Report α) =
          match (Session.start policy : Session α).advance 1 before with
          | (.error fault, log) => ⟨.error fault, log⟩
          | (.ok _, log) => ⟨.error (.unreadable path notText), log⟩ := by
  cases htext : String.fromUTF8? ⟨bytes.toArray⟩ with
  | some text =>
    have hlines : linesOfBytes bytes = (lines text).map some := by
      rw [fromUTF8?_eq_some_iff.1 htext, linesOfBytes_encode]
    refine ⟨hlines, ?_⟩
    rw [readScript, readBytes, hlines, readText, List.map_map]
    rfl
  | none =>
    obtain ⟨before, later, hlines⟩ := exists_linesOfBytes_eq htext
    refine ⟨before, later, hlines, ?_⟩
    have hitems : (linesOfBytes bytes).map (decoded path) =
        before.map .ok ++ .error (.unreadable path notText) :: later.map (decoded path) := by
      rw [hlines, List.map_append, List.map_map, List.map_cons]
      rfl
    rw [readScript, readBytes, hitems, Session.run, Session.runFrom_append]
    rcases (Session.start policy : Session α).advance 1 before with ⟨fault | session, log⟩
    · rfl
    · simp only [Session.runFrom_error, List.append_nil]

end SceneScript.Script
