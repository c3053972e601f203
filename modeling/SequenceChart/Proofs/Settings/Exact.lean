import SequenceChart.Proofs.Decimal.Integer
import SequenceChart.Proofs.Settings.Answered
set_option autoImplicit false

/-!
# Exactly which documents hold settings

Main statement, for documents whose integers have doubles: a document holds settings exactly if it is
empty, or a mapping from names of sizes to numbers that are finite and above zero.  Each size is then
the double of its value, or its default where it is left out, and is finite and above zero itself.  A
document that is no mapping is refused for that; otherwise all unknown names count, in order; and if
there are none, what is wrong with the first value that gives no size.
-/

namespace SequenceChart

namespace Settings

/-- One of the sizes. -/
def get {α : Type} (s : Settings α) : Size → α
  | .fontSize => s.fontSize
  | .boxWidth => s.boxWidth
  | .boxInset => s.boxInset

/-- The key that names a size. -/
def Size.key (which : Size) : Yaml.Scalar := .text which.name

/-! ## What stands in a document -/

/-- The entries of a document; only a mapping has any. -/
def entriesOf : Yaml.Document → List (Yaml.Scalar × Yaml.Value)
  | .mapping m => m.entries
  | .other _ => []

/-- Every integer that stands as a key or as a value is within the range of doubles. -/
def HasDoubles (d : Yaml.Document) : Prop :=
  ∀ e ∈ entriesOf d, ∀ n, e.1 = .int n ∨ e.2 = .scalar (.int n) → (Decimal.ofInt? n).isSome

/-- The double that a value gives a size. -/
inductive Gives : Yaml.Value → Float → Prop where
  | int {n : Int} {x : Float} (positive : 0 < n) (double : Decimal.ofInt? n = some x) :
    Gives (.scalar (.int n)) x
  | float {x : Float} (h : Decimal.IsFinitePositive x) : Gives (.scalar (.float x)) x

/-- The value is an integer or a double; a truth value is neither. -/
def IsNumber (v : Yaml.Value) : Prop := (∃ n, v = .scalar (.int n)) ∨ ∃ x, v = .scalar (.float x)

/-- What is wrong with a value that gives no size. -/
inductive Faulty : Yaml.Value → SizeProblem → Prop where
  | noNumber {v : Yaml.Value} (h : ¬IsNumber v) : Faulty v .noNumber
  | notFinite {x : Float} (h : Decimal.infinityBits ≤ Decimal.magnitude x) :
    Faulty (.scalar (.float x)) .notFinite
  | int {n : Int} (h : n ≤ 0) : Faulty (.scalar (.int n)) .notPositive
  | float {x : Float} (finite : Decimal.magnitude x < Decimal.infinityBits) (h : ¬0 < x) :
    Faulty (.scalar (.float x)) .notPositive

/-- The keys that name no size. -/
def unknownKeys (entries : List (Yaml.Scalar × Yaml.Value)) : List Yaml.Scalar :=
  (entries.map Prod.fst).filter fun key => key ∉ Size.all.map Size.key

/-- The document is empty, or it names sizes only and gives a double to each. -/
inductive HoldsSettings : Yaml.Document → Prop where
  | empty : HoldsSettings (.other (.scalar .null))
  | mapping {m : Yaml.Mapping}
    (sizes : ∀ e ∈ m.entries, ∃ (which : Size) (x : Float), e.1 = which.key ∧ Gives e.2 x) :
    HoldsSettings (.mapping m)

/-- Why a document is refused. -/
inductive RefusedFor : Yaml.Document → Refusal → Prop where
  | noMapping {v : Yaml.Value} (h : v ≠ .scalar .null) : RefusedFor (.other v) .noMapping
  | unknownNames {m : Yaml.Mapping} {names : List String} (exist : unknownKeys m.entries ≠ [])
    (all : (names.map some).Perm ((unknownKeys m.entries).map Yaml.Scalar.shown?))
    (sorted : names.Pairwise (· ≤ ·)) : RefusedFor (.mapping m) (.unknownNames names)
  | size {m : Yaml.Mapping} {before after : List (Yaml.Scalar × Yaml.Value)} {which : Size}
    {v : Yaml.Value} {problem : SizeProblem} (known : unknownKeys m.entries = [])
    (first : m.entries = before ++ (which.key, v) :: after)
    (good : ∀ e ∈ before, ∃ x, Gives e.2 x) (bad : Faulty v problem) :
    RefusedFor (.mapping m) (.size which problem)

/-- The settings are those of a document. -/
structure SizedBy (d : Yaml.Document) (s : Settings Float) : Prop where
  /-- a size that is named has the double of its value -/
  given : ∀ e ∈ entriesOf d, ∀ which : Size, e.1 = which.key → Gives e.2 (s.get which)
  /-- a size that is not named has its default -/
  absent : ∀ which : Size, (∀ e ∈ entriesOf d, e.1 ≠ which.key) →
    s.get which = Settings.default.get which
  /-- no size is zero, below zero, infinite or no number -/
  positive : ∀ which, Decimal.IsFinitePositive (s.get which)

/-- What is read from a document, and what it is refused for. -/
structure ReadExactly (d : Yaml.Document) : Prop where
  accepted : (∃ s, ofDocument d = .ok s) ↔ HoldsSettings d
  sizes : ∀ s, ofDocument d = .ok s → SizedBy d s
  refused : ∀ fault, ofDocument d = .error fault ↔ ∃ why, fault = .refused why ∧ RefusedFor d why

/-! ## Sizes and their keys -/

section Size

variable {which other : Size}

theorem get_set_self {α : Type} (s : Settings α) (which : Size) (x : α) :
    (s.set which x).get which = x := by
  cases which <;> rfl

theorem get_set_of_ne {α : Type} (s : Settings α) (x : α) (h : other ≠ which) :
    (s.set which x).get other = s.get other := by
  cases which <;> cases other <;> first | rfl | exact absurd rfl h

theorem Size.mem_all (which : Size) : which ∈ Size.all := by
  cases which <;> decide

theorem Size.ofName?_name (which : Size) : Size.ofName? which.name = some which := by
  cases which <;> decide

theorem Size.ofKey?_eq_some_iff {key : Yaml.Scalar} :
    Size.ofKey? key = some which ↔ key = which.key := by
  constructor
  · intro h
    cases key with
    | text name =>
      have hname := List.find?_some h
      rw [← of_decide_eq_true hname]
      rfl
    | _ => cases h
  · rintro rfl
    exact Size.ofName?_name which

theorem Size.key_injective (h : which.key = other.key) : which = other := by
  have hwhich := Size.ofKey?_eq_some_iff.2 (rfl : which.key = which.key)
  rw [Size.ofKey?_eq_some_iff.2 h] at hwhich
  exact (Option.some.inj hwhich).symm

theorem Size.mem_keys_iff {key : Yaml.Scalar} :
    key ∈ Size.all.map Size.key ↔ ∃ which : Size, key = which.key := by
  rw [List.mem_map]
  constructor
  · rintro ⟨which, -, rfl⟩
    exact ⟨which, rfl⟩
  · rintro ⟨which, rfl⟩
    exact ⟨which, Size.mem_all which, rfl⟩

theorem Size.sameKey_key (which : Size) : which.key.sameKey which.key = true := by
  simp [Size.key, Yaml.Scalar.sameKey]

end Size

/-! ## Values -/

section Value

variable {v : Yaml.Value} {x : Float} {problem : SizeProblem}

theorem sizeOf_of_gives (h : Gives v x) (which : Size) : sizeOf which v = .ok x := by
  cases h with
  | int positive double => simp only [sizeOf, double, if_pos positive]
  | float h => simp only [sizeOf, if_neg (Nat.not_le.2 h.1), if_pos h.2]

theorem isFinitePositive_of_gives (h : Gives v x) : Decimal.IsFinitePositive x := by
  cases h with
  | int positive double => exact Decimal.isFinitePositive_of_ofInt? positive double
  | float h => exact h

theorem sizeOf_of_faulty (hdouble : ∀ n, v = .scalar (.int n) → (Decimal.ofInt? n).isSome)
    (h : Faulty v problem) (which : Size) :
    sizeOf which v = .error (.refused (.size which problem)) := by
  cases h with
  | noNumber hnumber =>
    unfold sizeOf
    split
    · next n => exact absurd (Or.inl ⟨n, rfl⟩) hnumber
    · next x => exact absurd (Or.inr ⟨x, rfl⟩) hnumber
    · rfl
  | notFinite hfinite => simp only [sizeOf, if_pos hfinite]
  | @int n hn =>
    obtain ⟨x, hx⟩ := Option.isSome_iff_exists.1 (hdouble n rfl)
    simp only [sizeOf, hx, if_neg (Int.not_lt.2 hn)]
  | float finite hpos => simp only [sizeOf, if_neg (Nat.not_le.2 finite), if_neg hpos]

theorem gives_or_faulty (hdouble : ∀ n, v = .scalar (.int n) → (Decimal.ofInt? n).isSome) :
    (∃ x, Gives v x) ∨ ∃ problem, Faulty v problem := by
  by_cases hnumber : IsNumber v
  · rcases hnumber with ⟨n, rfl⟩ | ⟨x, rfl⟩
    · obtain ⟨x, hx⟩ := Option.isSome_iff_exists.1 (hdouble n rfl)
      by_cases hn : 0 < n
      · exact Or.inl ⟨x, .int hn hx⟩
      · exact Or.inr ⟨_, .int (Int.not_lt.1 hn)⟩
    · by_cases hfinite : Decimal.magnitude x < Decimal.infinityBits
      · by_cases hpos : 0 < x
        · exact Or.inl ⟨x, .float ⟨hfinite, hpos⟩⟩
        · exact Or.inr ⟨_, .float hfinite hpos⟩
      · exact Or.inr ⟨_, .notFinite (Nat.not_lt.1 hfinite)⟩
  · exact Or.inr ⟨_, .noNumber hnumber⟩

end Value

/-! ## Keys -/

section Entries

variable {entries : List (Yaml.Scalar × Yaml.Value)}

theorem unknownKeys_eq_nil_iff :
    unknownKeys entries = [] ↔ ∀ e ∈ entries, ∃ which : Size, e.1 = which.key := by
  rw [unknownKeys, List.filter_eq_nil_iff, List.forall_mem_map]
  simp only [decide_eq_true_eq, not_not, Size.mem_keys_iff]

theorem unknownKeys_cons (e : Yaml.Scalar × Yaml.Value)
    (rest : List (Yaml.Scalar × Yaml.Value)) :
    unknownKeys (e :: rest)
      = if Size.ofKey? e.1 = none then e.1 :: unknownKeys rest else unknownKeys rest := by
  have hunknown : e.1 ∉ Size.all.map Size.key ↔ Size.ofKey? e.1 = none := by
    rw [Size.mem_keys_iff, Option.eq_none_iff_forall_ne_some, not_exists]
    simp only [Ne, Size.ofKey?_eq_some_iff]
  simp only [unknownKeys, List.map_cons, List.filter_cons, hunknown, decide_eq_true_eq]

/-- Where all keys can be shown, the unknown names are the unknown keys in words. -/
theorem exists_unknownNames (h : KeysShown entries) :
    ∃ shown, unknownNames entries = .ok shown ∧
      shown.map some = (unknownKeys entries).map Yaml.Scalar.shown? := by
  induction entries with
  | nil => exact ⟨[], rfl, rfl⟩
  | cons e rest ih =>
    obtain ⟨hshown, hrest⟩ := keysShown_cons.1 h
    obtain ⟨shown, hnames, hmap⟩ := ih hrest
    rw [unknownKeys_cons]
    cases hkey : Size.ofKey? e.1 with
    | some which =>
      rw [unknownNames_known hkey, if_neg nofun]
      exact ⟨shown, hnames, hmap⟩
    | none =>
      obtain ⟨name, hname⟩ := Option.ne_none_iff_exists'.1 hshown
      refine ⟨name :: shown, ?_, ?_⟩
      · rw [unknownNames_unknown hkey, hname, hnames]
        rfl
      · rw [if_pos rfl, List.map_cons, List.map_cons, hname, hmap]

/-! ## Entering sizes -/

/-- Where every entry gives a size, all of them are entered. -/
theorem exists_foldlM_enter (hdistinct : entries.Pairwise fun e f => e.1.sameKey f.1 = false)
    (h : ∀ e ∈ entries, ∃ (which : Size) (x : Float), e.1 = which.key ∧ Gives e.2 x)
    (s : Settings Float) :
    ∃ s', entries.foldlM enter s = .ok s' ∧
      (∀ e ∈ entries, ∀ which : Size, e.1 = which.key → Gives e.2 (s'.get which)) ∧
      ∀ which : Size, (∀ e ∈ entries, e.1 ≠ which.key) → s'.get which = s.get which := by
  induction entries generalizing s with
  | nil => exact ⟨s, rfl, nofun, fun which _ => rfl⟩
  | cons e rest ih =>
    obtain ⟨⟨which, x, hkey, hx⟩, hrest⟩ := List.forall_mem_cons.1 h
    obtain ⟨hfirst, hlater⟩ := List.pairwise_cons.1 hdistinct
    obtain ⟨s', hrun, hgiven, habsent⟩ := ih hlater hrest (s.set which x)
    refine ⟨s', ?_, ?_, ?_⟩
    · rw [List.foldlM_cons, enter_eq (Size.ofKey?_eq_some_iff.2 hkey), sizeOf_of_gives hx]
      exact hrun
    · refine List.forall_mem_cons.2 ⟨fun other hother => ?_, hgiven⟩
      obtain rfl := Size.key_injective (hkey.symm.trans hother)
      have hnone : ∀ f ∈ rest, f.1 ≠ which.key := by
        intro f hf hsame
        have hdiffer := hfirst f hf
        rw [hkey, hsame, Size.sameKey_key] at hdiffer
        cases hdiffer
      rw [habsent which hnone, get_set_self]
      exact hx
    · intro other hother
      obtain ⟨hne, hnone⟩ := List.forall_mem_cons.1 hother
      rw [habsent other hnone]
      refine get_set_of_ne s x ?_
      rintro rfl
      exact hne hkey

/-- The first entry that gives no size is refused. -/
theorem foldlM_enter_of_faulty {before after : List (Yaml.Scalar × Yaml.Value)} {which : Size}
    {v : Yaml.Value} {problem : SizeProblem}
    (hdistinct : before.Pairwise fun e f => e.1.sameKey f.1 = false)
    (hbefore : ∀ e ∈ before, ∃ (which : Size) (x : Float), e.1 = which.key ∧ Gives e.2 x)
    (hdouble : ∀ n, v = .scalar (.int n) → (Decimal.ofInt? n).isSome) (hv : Faulty v problem)
    (s : Settings Float) :
    (before ++ (which.key, v) :: after).foldlM enter s
      = .error (.refused (.size which problem)) := by
  obtain ⟨s', hrun, -⟩ := exists_foldlM_enter hdistinct hbefore s
  rw [List.foldlM_append, hrun]
  show List.foldlM enter s' ((which.key, v) :: after) = _
  rw [List.foldlM_cons, enter_eq (Size.ofKey?_eq_some_iff.2 rfl), sizeOf_of_faulty hdouble hv]
  rfl

/-- Either every entry gives a size, or there is a first one that does not. -/
theorem all_give_or_first (hknown : ∀ e ∈ entries, ∃ which : Size, e.1 = which.key)
    (hdoubles : ∀ e ∈ entries, ∀ n, e.2 = .scalar (.int n) → (Decimal.ofInt? n).isSome) :
    (∀ e ∈ entries, ∃ (which : Size) (x : Float), e.1 = which.key ∧ Gives e.2 x) ∨
      ∃ (before : List (Yaml.Scalar × Yaml.Value)) (which : Size) (v : Yaml.Value)
        (after : List (Yaml.Scalar × Yaml.Value)) (problem : SizeProblem),
        entries = before ++ (which.key, v) :: after ∧ (∀ e ∈ before, ∃ x, Gives e.2 x) ∧
          Faulty v problem := by
  induction entries with
  | nil => exact Or.inl nofun
  | cons e rest ih =>
    obtain ⟨⟨which, hkey⟩, hrest⟩ := List.forall_mem_cons.1 hknown
    obtain ⟨hdouble, hlater⟩ := List.forall_mem_cons.1 hdoubles
    obtain ⟨key, v⟩ := e
    obtain rfl : key = which.key := hkey
    rcases gives_or_faulty hdouble with ⟨x, hx⟩ | ⟨problem, hproblem⟩
    · obtain hall | ⟨before, other, w, after, problem, rfl, hbefore, hw⟩ := ih hrest hlater
      · exact Or.inl (List.forall_mem_cons.2 ⟨⟨which, x, rfl, hx⟩, hall⟩)
      · exact Or.inr ⟨(which.key, v) :: before, other, w, after, problem, rfl,
          List.forall_mem_cons.2 ⟨⟨x, hx⟩, hbefore⟩, hw⟩
    · exact Or.inr ⟨[], which, v, rest, problem, rfl, nofun, hproblem⟩

end Entries

/-! ## Documents -/

section Document

variable {d : Yaml.Document}

theorem HasDoubles.keysShown (h : HasDoubles d) : KeysShown (entriesOf d) := by
  intro e he n hn
  exact Decimal.length_natDigits_le_of_ofInt? (h e he n (Or.inl hn))

theorem ofDocument_mapping {m : Yaml.Mapping} {shown : List String}
    (h : unknownNames m.entries = .ok shown) :
    ofDocument (.mapping m)
      = if shown.isEmpty then m.entries.foldlM enter Settings.default
        else .error (.refused (.unknownNames (shown.mergeSort fun a b => a ≤ b))) := by
  rw [ofDocument, h]
  rfl

/-- Where every key names a size, the sizes are entered. -/
theorem ofDocument_of_known {m : Yaml.Mapping} (hshown : KeysShown m.entries)
    (hknown : unknownKeys m.entries = []) :
    ofDocument (.mapping m) = m.entries.foldlM enter Settings.default := by
  obtain ⟨shown, hnames, hmap⟩ := exists_unknownNames hshown
  rw [hknown, List.map_nil, List.map_eq_nil_iff] at hmap
  subst hmap
  exact ofDocument_mapping hnames

theorem pairwise_mergeSort (names : List String) :
    (names.mergeSort fun a b => a ≤ b).Pairwise (· ≤ ·) := by
  have htrans (a b c : String) (hab : decide (a ≤ b) = true) (hbc : decide (b ≤ c) = true) :
      decide (a ≤ c) = true :=
    decide_eq_true (le_trans (of_decide_eq_true hab) (of_decide_eq_true hbc))
  have htotal (a b : String) : (decide (a ≤ b) || decide (b ≤ a)) = true := by
    simpa using le_total a b
  exact (List.pairwise_mergeSort htrans htotal names).imp of_decide_eq_true

/-- A list of names is sorted in one way only. -/
theorem mergeSort_eq_of_perm {names shown : List String} (hperm : names.Perm shown)
    (hsorted : names.Pairwise (· ≤ ·)) : (shown.mergeSort fun a b => a ≤ b) = names := by
  refine List.Perm.eq_of_pairwise (fun a b _ _ => le_antisymm) (pairwise_mergeSort shown) hsorted ?_
  exact (List.mergeSort_perm _ _).trans hperm.symm

theorem isFinitePositive_default (which : Size) : Decimal.IsFinitePositive (Settings.default.get which) := by
  unfold Decimal.IsFinitePositive
  cases which <;> decide

theorem exists_of_holdsSettings (hdoubles : HasDoubles d) (h : HoldsSettings d) :
    ∃ s, ofDocument d = .ok s ∧ SizedBy d s := by
  cases h with
  | empty =>
    refine ⟨Settings.default, rfl, ?_⟩
    exact { given := nofun, absent := fun which _ => rfl, positive := isFinitePositive_default }
  | @mapping m hsizes =>
    have hknown : unknownKeys m.entries = [] := by
      refine unknownKeys_eq_nil_iff.2 fun e he => ?_
      obtain ⟨which, -, hkey, -⟩ := hsizes e he
      exact ⟨which, hkey⟩
    obtain ⟨s, hrun, hgiven, habsent⟩ :=
      exists_foldlM_enter m.distinct hsizes Settings.default
    refine ⟨s, (ofDocument_of_known hdoubles.keysShown hknown).trans hrun, hgiven, habsent, ?_⟩
    intro which
    by_cases hnamed : ∃ e ∈ m.entries, e.1 = which.key
    · obtain ⟨e, he, hkey⟩ := hnamed
      exact isFinitePositive_of_gives (hgiven e he which hkey)
    · rw [habsent which fun e he hkey => hnamed ⟨e, he, hkey⟩]
      exact isFinitePositive_default which

theorem ofDocument_of_refusedFor (hdoubles : HasDoubles d) {why : Refusal}
    (h : RefusedFor d why) : ofDocument d = .error (.refused why) := by
  cases h with
  | noMapping hv =>
    unfold ofDocument
    split
    · next heq => exact absurd (Yaml.Document.other.inj heq) hv
    · rfl
    · contradiction
  | @unknownNames m names hexist hall hsorted =>
    have hshown : KeysShown m.entries := hdoubles.keysShown
    obtain ⟨shown, hnames, hmap⟩ := exists_unknownNames hshown
    rw [← hmap] at hall
    have hperm : names.Perm shown := (List.map_perm_map_iff (Option.some_injective _)).1 hall
    have hne : ¬shown.isEmpty := by
      rw [List.isEmpty_iff]
      rintro rfl
      exact hexist (List.map_eq_nil_iff.1 hmap.symm)
    rw [ofDocument_mapping hnames, if_neg hne, mergeSort_eq_of_perm hperm hsorted]
  | @size m before after which v problem hknown hfirst hgood hbad =>
    rw [ofDocument_of_known hdoubles.keysShown hknown, hfirst]
    have hdistinct := m.distinct
    have hkeys := unknownKeys_eq_nil_iff.1 hknown
    rw [hfirst] at hdistinct hkeys
    refine foldlM_enter_of_faulty (List.pairwise_append.1 hdistinct).1 ?_ ?_ hbad _
    · intro e he
      obtain ⟨which, hkey⟩ := hkeys e (List.mem_append_left _ he)
      obtain ⟨x, hx⟩ := hgood e he
      exact ⟨which, x, hkey, hx⟩
    · intro n hn
      have hmem : (which.key, v) ∈ entriesOf (.mapping m) := by
        show _ ∈ m.entries
        rw [hfirst]
        exact List.mem_append_right _ List.mem_cons_self
      exact hdoubles _ hmem n (Or.inr hn)

theorem holds_or_refused (hdoubles : HasDoubles d) :
    HoldsSettings d ∨ ∃ why, RefusedFor d why := by
  cases d with
  | other v =>
    by_cases hv : v = .scalar .null
    · subst hv
      exact Or.inl .empty
    · exact Or.inr ⟨_, .noMapping hv⟩
  | mapping m =>
    by_cases hknown : unknownKeys m.entries = []
    · obtain hall | ⟨before, which, v, after, problem, hfirst, hgood, hbad⟩ :=
        all_give_or_first (unknownKeys_eq_nil_iff.1 hknown)
          fun e he n hn => hdoubles e he n (Or.inr hn)
      · exact Or.inl (.mapping hall)
      · exact Or.inr ⟨_, .size hknown hfirst hgood hbad⟩
    · have hshown : KeysShown m.entries := hdoubles.keysShown
      obtain ⟨shown, -, hmap⟩ := exists_unknownNames hshown
      refine Or.inr ⟨_, .unknownNames hknown ?_ (pairwise_mergeSort shown)⟩
      rw [← hmap]
      exact (List.mergeSort_perm _ _).map some

/-- A document whose integers have doubles is read exactly: whether it holds settings or is refused,
with what sizes or for what reason, follows from what stands in it. -/
theorem readExactly_ofDocument (hdoubles : HasDoubles d) : ReadExactly d := by
  rcases holds_or_refused hdoubles with hholds | ⟨why, hwhy⟩
  · obtain ⟨s, hs, hsized⟩ := exists_of_holdsSettings hdoubles hholds
    refine ⟨⟨fun _ => hholds, fun _ => ⟨s, hs⟩⟩, ?_, ?_⟩
    · intro s' hs'
      cases hs.symm.trans hs'
      exact hsized
    · intro fault
      constructor
      · intro hfault
        cases hs.symm.trans hfault
      · rintro ⟨why, -, hwhy⟩
        cases hs.symm.trans (ofDocument_of_refusedFor hdoubles hwhy)
  · have hrefused := ofDocument_of_refusedFor hdoubles hwhy
    refine ⟨⟨?_, ?_⟩, ?_, ?_⟩
    · rintro ⟨s, hs⟩
      cases hrefused.symm.trans hs
    · intro hholds
      obtain ⟨s, hs, -⟩ := exists_of_holdsSettings hdoubles hholds
      exact ⟨s, hs⟩
    · intro s hs
      cases hrefused.symm.trans hs
    · intro fault
      constructor
      · intro hfault
        cases hrefused.symm.trans hfault
        exact ⟨why, rfl, hwhy⟩
      · rintro ⟨why, rfl, hwhy⟩
        exact ofDocument_of_refusedFor hdoubles hwhy

/-- A size below zero, a text that names no size and a number as a key: the two names are told in
order, and the size is not looked at. -/
theorem readExactly_unknownNames :
    ∃ m : Yaml.Mapping,
      m.entries = [(.text "font-size", .scalar (.int (-1))), (.text "size", .collection),
        (.int 12, .scalar (.float 2.5))] ∧
      HasDoubles (.mapping m) ∧ ReadExactly (.mapping m) ∧
      ofDocument (.mapping m) = .error (.refused (.unknownNames ["12", "size"])) := by
  let m : Yaml.Mapping :=
    ⟨[(.text "font-size", .scalar (.int (-1))), (.text "size", .collection),
      (.int 12, .scalar (.float 2.5))], by decide +kernel⟩
  have hdoubles : HasDoubles (.mapping m) := by
    intro e he n hn
    simp only [entriesOf, m, List.mem_cons, List.not_mem_nil, or_false] at he
    rcases he with rfl | rfl | rfl
    · rcases hn with hn | hn
      · cases hn
      · cases hn
        decide +kernel
    · rcases hn with hn | hn <;> cases hn
    · rcases hn with hn | hn
      · cases hn
        decide +kernel
      · cases hn
  have hread := readExactly_ofDocument hdoubles
  refine ⟨m, rfl, hdoubles, hread, (hread.refused _).2 ⟨_, rfl, ?_⟩⟩
  exact .unknownNames (by decide +kernel) (by decide +kernel) (by decide +kernel)

/-- Two sizes are given, and the third has its default. -/
example :
    ofDocument (.mapping ⟨[(.text "box-inset", .scalar (.float 2.5)),
      (.text "font-size", .scalar (.int 12))], by decide⟩) = .ok ⟨12, 32, 2.5⟩ :=
  rfl

end Document

end Settings

end SequenceChart
