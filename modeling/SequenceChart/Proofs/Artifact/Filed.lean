import SequenceChart.Proofs.Artifact.RoundTrip
import SequenceChart.Proofs.Json.Plain
import SequenceChart.Proofs.Scanning.Lines
import SequenceChart.Proofs.Text.Utf8
set_option autoImplicit false

/-!
# Stored layouts in files

A text goes into a file as UTF-8, and reading the file takes every carriage return for a line feed,
with the line feed that follows it if there is one.  A text without a line break comes back as it
was.  Main statement: the text of a stored layout is one line of printable ASCII, so the file says
what the text says, and a layout whose fields are what they should be is read back from it.
-/

namespace SequenceChart

namespace Text

/-! ## Bytes of a text -/

theorem toList_loop_eq (bytes : ByteArray) (i : Nat) (front : List UInt8) :
    ByteArray.toList.loop bytes i front = front.reverse ++ bytes.data.toList.drop i := by
  fun_induction ByteArray.toList.loop bytes i front with
  | case1 i front hi ih =>
    have hi' : i < bytes.data.toList.length := by simpa using hi
    have hget : bytes.get! i = bytes.data.toList[i] := by
      rw [Array.getElem_toList]
      exact getElem!_pos bytes.data i hi
    rw [ih, List.drop_eq_getElem_cons hi', hget, List.reverse_cons, List.append_assoc]
    rfl
  | case2 i front hi =>
    rw [List.drop_eq_nil_of_le (by simpa using hi), List.append_nil]

/-- The bytes of a text are the encodings of its characters in order. -/
theorem encodeUtf8_eq (cs : List Char) : encodeUtf8 cs = cs.flatMap String.utf8EncodeChar := by
  rw [encodeUtf8, String.toUTF8_eq_toByteArray, String.toByteArray_ofList, List.utf8Encode,
    ByteArray.toList, toList_loop_eq, List.toList_data_toByteArray]
  rfl

/-- The bytes of a text are read as the text. -/
theorem decodeUtf8_encodeUtf8 (cs : List Char) : decodeUtf8 (encodeUtf8 cs) = .ok cs :=
  decodeUtf8_eq_ok_iff.2 (encodeUtf8_eq cs)

/-! ## Line breaks -/

theorem normalizeBreaks_of_not_mem {cs : List Char} (h : '\r' ∉ cs) : normalizeBreaks cs = cs := by
  fun_induction normalizeBreaks cs with
  | case1 => rfl
  | case2 => exact absurd List.mem_cons_self h
  | case3 c rest _ ih =>
    have hc : c ≠ '\r' := fun hc => h (hc ▸ List.mem_cons_self)
    rw [if_neg hc, ih fun hmem => h (List.mem_cons_of_mem c hmem)]

/-- No printable character of ASCII ends a line. -/
theorem Plain.unbroken {cs : List Char} (h : Plain cs) : Unbroken cs := by
  intro c hc
  have hplain := h c hc
  have hne (d : Char) (hd : ¬(0x20 ≤ d.toNat ∧ d.toNat ≤ 0x7e)) : ¬c = d := by
    rintro rfl
    exact hd hplain
  simp [isLineBoundary, hne '\n' (by decide), hne '\r' (by decide), hne '\x0b' (by decide),
    hne '\x0c' (by decide), hne '\x1c' (by decide), hne '\x1d' (by decide), hne '\x1e' (by decide),
    hne '\x85' (by decide), hne '\u2028' (by decide), hne '\u2029' (by decide)]

theorem Unbroken.return_not_mem {cs : List Char} (h : Unbroken cs) : '\r' ∉ cs := by
  intro hmem
  cases h '\r' hmem

end Text

namespace Artifact

/-- How a stored layout goes into a file and comes back. -/
structure Filed (a : Artifact) : Prop where
  /-- It has a text if its fields are kept: its doubles may be any, and its integers are within the
  limit of digits.  Those of a layout without an overlong place are kept (`kept_ofLayout`). -/
  written : a.Has .kept → ∃ text, a.serialize = .ok text
  /-- Its text is printable ASCII. -/
  plain : ∀ text, a.serialize = .ok text → Text.Plain text
  /-- Its text is one line, whatever may end a line. -/
  oneLine : ∀ text, a.serialize = .ok text → Text.lines text = [text]
  /-- The bytes of the file are read as that text, and as a file is read it stays as it is.  So the
  file is read as the text is. -/
  text : ∀ text, a.serialize = .ok text → ∃ bytes, a.fileBytes = .ok bytes ∧
    (Text.decodeUtf8 bytes).map Text.normalizeBreaks = .ok text ∧
    ofBytes bytes = (decode text).mapError .content
  /-- If its fields are what they should be, it is read back as it was, and equals what is read. -/
  back : a.Has .typed → ∃ bytes, a.fileBytes = .ok bytes ∧ ofBytes bytes = .ok a ∧ a.equal a = true

theorem eq_encode_of_serialize {a : Artifact} {text : List Char} (h : a.serialize = .ok text) :
    text = a.encode :=
  (Json.legible_of_dump h).2

theorem fileBytes_of_serialize {a : Artifact} {text : List Char} (h : a.serialize = .ok text) :
    a.fileBytes = .ok a.toBytes := by
  rw [fileBytes, h, toBytes, ← eq_encode_of_serialize h]
  rfl

theorem plain_encode (a : Artifact) : Text.Plain a.encode :=
  Json.plain_write Json.plain_escapeAscii a.toJson

theorem encode_ne_nil (a : Artifact) : a.encode ≠ [] := by
  rw [encode, toJson, Json.write]
  exact List.cons_ne_nil _ _

theorem normalizeBreaks_encode (a : Artifact) : Text.normalizeBreaks a.encode = a.encode :=
  Text.normalizeBreaks_of_not_mem a.plain_encode.unbroken.return_not_mem

theorem ofBytes_toBytes (a : Artifact) :
    ofBytes a.toBytes = (decode a.encode).mapError .content := by
  rw [ofBytes, toBytes, Text.decodeUtf8_encodeUtf8]
  dsimp only
  rw [normalizeBreaks_encode]
  cases decode a.encode <;> rfl

/-- Every stored layout that has a text goes into a file as one line of printable ASCII and comes
back from it. -/
theorem filed (a : Artifact) : Filed a where
  written := fun h => ⟨a.encode, serialize_of_kept h⟩
  plain := by
    intro text h
    rw [eq_encode_of_serialize h]
    exact a.plain_encode
  oneLine := by
    intro text h
    rw [eq_encode_of_serialize h]
    exact Text.lines_of_unbroken a.plain_encode.unbroken a.encode_ne_nil
  text := by
    intro text h
    refine ⟨a.toBytes, fileBytes_of_serialize h, ?_, ?_⟩
    · rw [toBytes, Text.decodeUtf8_encodeUtf8, eq_encode_of_serialize h]
      exact congrArg Except.ok a.normalizeBreaks_encode
    · rw [eq_encode_of_serialize h]
      exact a.ofBytes_toBytes
  back := by
    intro htyped
    have hkept := htyped.imp Kinds.typed_kept
    refine ⟨a.toBytes, fileBytes_of_serialize (serialize_of_kept hkept), ?_,
      (htyped.imp Kinds.typed_reflexive).equal_self⟩
    rw [ofBytes_toBytes, decode_encode_of_kept hkept]
    rfl

/-- Line breaks of every kind, a control and a character beyond the first plane in its texts, and
infinite lengths and a negative zero. -/
theorem filed_breaks :
    let l : Layout Float :=
      { lifelines := [⟨"\r\n\u2028", [⟨-0.0, 1.0 / 0.0, 0.1, 1e-7⟩], [0]⟩, ⟨"\r", [], []⟩]
        arrows := [⟨⟨0, some 0, 1e22⟩, ⟨1, none, -1.0 / 0.0⟩, some "\x85\x7f\"😀", true⟩]
        height := 20.0 }
    Filed (ofLayout l) ∧ (ofLayout l).Has .typed ∧ ∃ bytes, (ofLayout l).fileBytes = .ok bytes ∧
      ofBytes bytes = .ok (ofLayout l) ∧ (ofLayout l).equal (ofLayout l) = true := by
  intro l
  have htyped : (ofLayout l).Has .typed := typed_ofLayout (by decide +kernel) (by decide +kernel)
  exact ⟨filed (ofLayout l), htyped, (filed (ofLayout l)).back htyped⟩

/-- A layout whose open box stands at a place of 4301 digits has no text and no file, though all its
lengths are numbers. -/
theorem fileBytes_long :
    let l : Layout Float := { lifelines := [⟨"A", [], [10 ^ 4300]⟩], arrows := [], height := 0.0 }
    (∀ x ∈ lengths l, (Json.float x).isNaN = false) ∧
      (ofLayout l).serialize = .error .longInteger ∧
      (ofLayout l).fileBytes = .error .longInteger := by
  intro l
  have hlong : (ofLayout l).serialize = .error .longInteger := serialize_of_long (by decide +kernel)
  refine ⟨by decide +kernel, hlong, ?_⟩
  rw [fileBytes, hlong]
  rfl

end Artifact

end SequenceChart
