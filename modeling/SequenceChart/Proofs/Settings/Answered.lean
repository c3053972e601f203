import SequenceChart.Proofs.Text.Utf8
import SequenceChart.Settings.File
set_option autoImplicit false

/-!
# Files that are answered with settings or a refusal

Main statement: a file is answered with settings or with a refusal exactly if its bytes are a text,
the reader of the text gives a value or finds a rule of YAML broken, the integer keys can be shown,
and no size with an integer too large for a double is looked at.  What breaks one of these
conditions escapes as another fault.  The reader is a parameter: nothing else is asked of it.
-/

namespace SequenceChart

namespace Settings

/-- Settings, or a refusal of the file. -/
def IsAnswer {α : Type} (r : Except Fault α) : Prop :=
  (∃ a, r = .ok a) ∨ ∃ why, r = .error (.refused why)

/-- The value is a positive number with a finite double. -/
def isSize : Yaml.Value → Bool
  | .scalar (.int n) => 0 < n && (Decimal.ofInt? n).isSome
  | .scalar (.float x) => Decimal.magnitude x < Decimal.infinityBits && 0 < x
  | _ => false

/-- The value is an integer too large for a double. -/
def isLarge : Yaml.Value → Bool
  | .scalar (.int n) => (Decimal.ofInt? n).isNone
  | _ => false

/-- Every integer too large for a double stands behind a value that is no size. -/
def ShieldsLarge (entries : List (Yaml.Scalar × Yaml.Value)) : Prop :=
  ∀ before e after, entries = before ++ e :: after → isLarge e.2 → ∃ f ∈ before, ¬isSize f.2

/-- No key is an integer with too many digits to be shown. -/
def KeysShown (entries : List (Yaml.Scalar × Yaml.Value)) : Prop :=
  ∀ e ∈ entries, ∀ n, e.1 = .int n → (Decimal.natDigits n.natAbs).length ≤ Decimal.digitLimit

/-- The keys of a mapping can be shown, and if all of them are sizes, the first of their values that
is no size is not too large for a double. -/
structure IsTold (entries : List (Yaml.Scalar × Yaml.Value)) : Prop where
  shown : KeysShown entries
  shields : (∀ e ∈ entries, (Size.ofKey? e.1).isSome) → ShieldsLarge entries

section IsAnswer

variable {α : Type} {fault : Fault}

theorem isAnswer_ok (a : α) : IsAnswer (.ok a) := Or.inl ⟨a, rfl⟩

theorem isAnswer_refused (why : Refusal) : IsAnswer (.error (.refused why) : Except Fault α) :=
  Or.inr ⟨why, rfl⟩

/-- A fault that is no refusal escapes. -/
theorem not_isAnswer_error (h : ∀ why, fault ≠ .refused why) :
    ¬IsAnswer (.error fault : Except Fault α) := by
  rintro (⟨a, ha⟩ | ⟨why, hwhy⟩)
  · cases ha
  · exact h why (Except.error.inj hwhy)

end IsAnswer

/-! ## The value of a size -/

section Size

variable {which : Size} {v : Yaml.Value}

/-- A value gives a size its double, or it is too large, or it is refused. -/
theorem sizeOf_cases (which : Size) (v : Yaml.Value) :
    (isSize v ∧ ∃ x, sizeOf which v = .ok x) ∨
      (isLarge v ∧ sizeOf which v = .error .largeSize) ∨
      (¬isSize v ∧ ¬isLarge v ∧
        ∃ problem, sizeOf which v = .error (.refused (.size which problem))) := by
  cases v with
  | collection => exact Or.inr (Or.inr ⟨Bool.false_ne_true, Bool.false_ne_true, _, rfl⟩)
  | scalar s =>
    cases s with
    | int n =>
      cases hx : Decimal.ofInt? n with
      | none => exact Or.inr (Or.inl ⟨by simp [isLarge, hx], by simp [sizeOf, hx]⟩)
      | some x =>
        by_cases hn : 0 < n
        · exact Or.inl ⟨by simp [isSize, hx, hn], x, by simp [sizeOf, hx, hn]⟩
        · exact Or.inr (Or.inr ⟨by simp [isSize, hn], by simp [isLarge, hx], .notPositive,
            by simp [sizeOf, hx, hn]⟩)
    | float x =>
      by_cases hfinite : Decimal.infinityBits ≤ Decimal.magnitude x
      · exact Or.inr (Or.inr ⟨by simp [isSize, Nat.not_lt.2 hfinite], Bool.false_ne_true, .notFinite,
          by simp [sizeOf, hfinite]⟩)
      · by_cases hx : 0 < x
        · exact Or.inl ⟨by simpa [isSize, hx] using hfinite, x, by simp [sizeOf, hfinite, hx]⟩
        · exact Or.inr (Or.inr ⟨by simp [isSize, hx], Bool.false_ne_true, .notPositive,
            by simp [sizeOf, hfinite, hx]⟩)
    | _ => exact Or.inr (Or.inr ⟨Bool.false_ne_true, Bool.false_ne_true, _, rfl⟩)

theorem not_isLarge_of_isSize (h : isSize v) : ¬isLarge v := by
  cases v with
  | collection => nofun
  | scalar s =>
    cases s with
    | int n =>
      obtain ⟨-, hsome⟩ := (Bool.and_eq_true _ _).mp h
      simp only [isLarge, Option.isNone_iff_eq_none]
      exact Option.isSome_iff_ne_none.1 hsome
    | _ => nofun

end Size

theorem shieldsLarge_cons {e : Yaml.Scalar × Yaml.Value} {rest : List (Yaml.Scalar × Yaml.Value)} :
    ShieldsLarge (e :: rest) ↔ ¬isLarge e.2 ∧ (isSize e.2 → ShieldsLarge rest) := by
  constructor
  · intro h
    refine ⟨fun hlarge => ?_, fun hsize before f after hrest hlarge => ?_⟩
    · obtain ⟨f, hf, -⟩ := h [] e rest rfl hlarge
      cases hf
    · obtain ⟨g, hg, hnone⟩ := h (e :: before) f after (by rw [hrest]; rfl) hlarge
      rcases List.mem_cons.1 hg with rfl | hg
      · exact absurd hsize hnone
      · exact ⟨g, hg, hnone⟩
  · rintro ⟨hsmall, hrest⟩ before f after hentries hlarge
    cases before with
    | nil =>
      obtain ⟨rfl, -⟩ := List.cons.inj hentries
      exact absurd hlarge hsmall
    | cons first before =>
      obtain ⟨rfl, htail⟩ := List.cons.inj hentries
      by_cases hsize : isSize e.2
      · obtain ⟨g, hg, hnone⟩ := hrest hsize before f after htail hlarge
        exact ⟨g, List.mem_cons_of_mem _ hg, hnone⟩
      · exact ⟨e, List.mem_cons_self, hsize⟩

theorem enter_eq {e : Yaml.Scalar × Yaml.Value} {which : Size} (h : Size.ofKey? e.1 = some which)
    (s : Settings Float) : enter s e = (sizeOf which e.2).map (s.set which) := by
  rw [enter, h]
  rfl

/-- Sizes are entered until one of them is refused or too large, so only the first that is no size
counts. -/
theorem isAnswer_foldlM_enter_iff {entries : List (Yaml.Scalar × Yaml.Value)}
    (hkeys : ∀ e ∈ entries, (Size.ofKey? e.1).isSome) (s : Settings Float) :
    IsAnswer (entries.foldlM enter s) ↔ ShieldsLarge entries := by
  induction entries generalizing s with
  | nil => exact iff_of_true (isAnswer_ok s) fun before e after h => by simp at h
  | cons e rest ih =>
    obtain ⟨which, hwhich⟩ := Option.isSome_iff_exists.1 (hkeys e List.mem_cons_self)
    rw [List.foldlM_cons, enter_eq hwhich, shieldsLarge_cons]
    obtain ⟨hsize, x, hx⟩ | ⟨hlarge, hx⟩ | ⟨hnone, hsmall, problem, hx⟩ := sizeOf_cases which e.2
    · rw [hx]
      show IsAnswer (rest.foldlM enter (s.set which x)) ↔ _
      rw [ih fun f hf => hkeys f (List.mem_cons_of_mem e hf)]
      exact ⟨fun h => ⟨not_isLarge_of_isSize hsize, fun _ => h⟩, fun h => h.2 hsize⟩
    · rw [hx]
      exact iff_of_false (not_isAnswer_error nofun) fun h => h.1 hlarge
    · rw [hx]
      exact iff_of_true (isAnswer_refused _) ⟨hsmall, fun h => absurd h hnone⟩

/-! ## The names in a mapping -/

/-- Only an integer with too many digits cannot be shown. -/
theorem shown?_ne_none_iff {key : Yaml.Scalar} :
    key.shown? ≠ none ↔
      ∀ n, key = .int n → (Decimal.natDigits n.natAbs).length ≤ Decimal.digitLimit := by
  cases key with
  | int n => simp [Yaml.Scalar.shown?, Decimal.shownInt?]
  | _ => simp [Yaml.Scalar.shown?]

theorem keysShown_cons {e : Yaml.Scalar × Yaml.Value} {rest : List (Yaml.Scalar × Yaml.Value)} :
    KeysShown (e :: rest) ↔ e.1.shown? ≠ none ∧ KeysShown rest := by
  rw [KeysShown, List.forall_mem_cons, shown?_ne_none_iff]
  rfl

theorem shown?_of_ofKey? {key : Yaml.Scalar} {which : Size} (h : Size.ofKey? key = some which) :
    key.shown? ≠ none := by
  cases key with
  | text s => nofun
  | _ => cases h

theorem unknownNames_known {e : Yaml.Scalar × Yaml.Value} {which : Size}
    (h : Size.ofKey? e.1 = some which) (rest : List (Yaml.Scalar × Yaml.Value)) :
    unknownNames (e :: rest) = unknownNames rest := by
  unfold unknownNames
  rw [List.filter_cons_of_neg (by simp [h])]

theorem unknownNames_unknown {e : Yaml.Scalar × Yaml.Value} (h : Size.ofKey? e.1 = none)
    (rest : List (Yaml.Scalar × Yaml.Value)) :
    unknownNames (e :: rest) =
      match e.1.shown? with
      | some name => (unknownNames rest).map (name :: ·)
      | none => .error .longName := by
  unfold unknownNames
  rw [List.filter_cons_of_pos (by simp [h]), List.mapM_cons]
  cases e.1.shown? <;> rfl

/-- The names that are no sizes are told, unless a key is an integer that cannot be shown. -/
theorem unknownNames_cases (entries : List (Yaml.Scalar × Yaml.Value)) :
    (KeysShown entries ∧ ∃ names, unknownNames entries = .ok names ∧
        (names = [] ↔ ∀ e ∈ entries, (Size.ofKey? e.1).isSome)) ∨
      (¬KeysShown entries ∧ unknownNames entries = .error .longName) := by
  induction entries with
  | nil => exact Or.inl ⟨nofun, [], rfl, by simp⟩
  | cons e rest ih =>
    rw [keysShown_cons]
    simp only [List.forall_mem_cons]
    cases hkey : Size.ofKey? e.1 with
    | some which =>
      rw [unknownNames_known hkey]
      simpa [shown?_of_ofKey? hkey] using ih
    | none =>
      rw [unknownNames_unknown hkey]
      cases hshown : e.1.shown? with
      | none => exact Or.inr ⟨fun h => h.1 rfl, rfl⟩
      | some name =>
        obtain ⟨hrest, names, hnames, -⟩ | ⟨hrest, hlong⟩ := ih
        · rw [hnames]
          exact Or.inl ⟨⟨nofun, hrest⟩, name :: names, rfl, by simp⟩
        · rw [hlong]
          exact Or.inr ⟨fun h => hrest h.2, rfl⟩

/-- A mapping is answered unless a key cannot be shown or an integer too large for a double is
looked at. -/
theorem isAnswer_mapping_iff {m : Yaml.Mapping} :
    IsAnswer (ofDocument (.mapping m)) ↔ IsTold m.entries := by
  unfold ofDocument
  dsimp only
  obtain ⟨hshown, names, hnames, hsizes⟩ | ⟨hlong, hnames⟩ := unknownNames_cases m.entries
  · rw [hnames]
    by_cases hempty : names = []
    · subst hempty
      have hkeys := hsizes.1 rfl
      refine (isAnswer_foldlM_enter_iff hkeys _).trans ?_
      exact ⟨fun h => ⟨hshown, fun _ => h⟩, fun h => h.shields hkeys⟩
    · have htold : IsTold m.entries := ⟨hshown, fun hkeys => absurd (hsizes.2 hkeys) hempty⟩
      refine iff_of_true (Or.inr ⟨.unknownNames (names.mergeSort fun a b => a ≤ b), ?_⟩) htold
      show (if names.isEmpty then _ else _) = _
      rw [if_neg (by simpa using hempty)]
      rfl
  · rw [hnames]
    exact iff_of_false (not_isAnswer_error nofun) fun h => hlong h.shown

theorem isAnswer_other (v : Yaml.Value) : IsAnswer (ofDocument (.other v)) := by
  unfold ofDocument
  split
  · exact isAnswer_ok _
  · exact isAnswer_refused _
  · contradiction

/-! ## Whole files -/

/-- What a reader gives is answered: it finds a rule of YAML broken, or what it reads is no mapping
or one that is told. -/
def IsAnsweredReading (r : Except Yaml.Fault Yaml.Document) : Prop :=
  r = .error .malformed ∨ (∃ v, r = .ok (.other v)) ∨ ∃ m, r = .ok (.mapping m) ∧ IsTold m.entries

/-- What is found at a path is answered by way of a reader: if it is a file, its bytes are the
encoding of a text for which the reader gives what is answered. -/
def File.IsAnswered (read : Yaml.Reader) : File → Prop
  | .missing | .directory => True
  | .bytes bs => ∃ cs, bs = cs.flatMap String.utf8EncodeChar ∧
      IsAnsweredReading (read (Text.normalizeBreaks cs))

section File

variable {read : Yaml.Reader} {bs : List UInt8}

theorem ofFile_of_no_text {why : Text.Utf8Fault} (h : Text.decodeUtf8 bs = .error why) :
    ofFile (.bytes bs) read = .error (.encoding why) := by
  unfold ofFile
  dsimp only
  rw [h]

theorem isAnswer_text_iff {cs : List Char} (h : Text.decodeUtf8 bs = .ok cs) :
    IsAnswer (ofFile (.bytes bs) read) ↔
      IsAnsweredReading (read (Text.normalizeBreaks cs)) := by
  unfold ofFile IsAnsweredReading
  dsimp only
  rw [h]
  dsimp only
  cases hdocument : read (Text.normalizeBreaks cs) with
  | error why =>
    by_cases hwhy : why = .malformed
    · subst hwhy
      exact iff_of_true (isAnswer_refused _) (Or.inl rfl)
    · refine iff_of_false ?_ (by simpa using hwhy)
      cases why with
      | malformed => exact absurd rfl hwhy
      | _ => exact not_isAnswer_error nofun
  | ok d =>
    cases d with
    | other v => exact iff_of_true (isAnswer_other v) (Or.inr (Or.inl ⟨v, rfl⟩))
    | mapping m => simp [isAnswer_mapping_iff]

/-- A file is answered with settings or with a refusal exactly under the conditions of
`File.IsAnswered`, whatever the reader is to which its text is given. -/
theorem isAnswer_ofFile_iff (read : Yaml.Reader) (file : File) :
    IsAnswer (ofFile file read) ↔ file.IsAnswered read := by
  cases file with
  | missing => exact iff_of_true (isAnswer_refused _) trivial
  | directory => exact iff_of_true (isAnswer_refused _) trivial
  | bytes bs =>
    have hencoded (cs : List Char) :
        Text.decodeUtf8 bs = .ok cs ↔ bs = cs.flatMap String.utf8EncodeChar :=
      Text.decodeUtf8_eq_ok_iff
    cases htext : Text.decodeUtf8 bs with
    | error why =>
      rw [ofFile_of_no_text htext]
      refine iff_of_false (not_isAnswer_error nofun) fun ⟨cs, hcs, _⟩ => ?_
      rw [(hencoded cs).2 hcs] at htext
      cases htext
    | ok cs =>
      rw [isAnswer_text_iff htext]
      refine ⟨fun h => ⟨cs, (hencoded cs).1 htext, h⟩, fun ⟨ds, hds, h⟩ => ?_⟩
      rw [(hencoded ds).2 hds] at htext
      cases htext
      exact h

end File

/-- The byte that starts no character is answered with neither; the reader is not asked. -/
theorem not_isAnswer_badStart :
    ofFile (.bytes [0xff]) Yaml.Document.ofText = .error (.encoding ⟨0, 1, 0xff, .badStart⟩) ∧
      ¬IsAnswer (ofFile (.bytes [0xff]) Yaml.Document.ofText) := by
  have hescapes : ofFile (.bytes [0xff]) Yaml.Document.ofText
      = .error (.encoding ⟨0, 1, 0xff, .badStart⟩) :=
    ofFile_of_no_text rfl
  rw [hescapes]
  exact ⟨rfl, not_isAnswer_error nofun⟩

end Settings

end SequenceChart
