import SequenceChart.Proofs.Artifact.RoundTrip
import SequenceChart.Proofs.Json.Legible
set_option autoImplicit false

/-!
# Stored layouts that were read

Reading checks no field of a stored layout: what stands where a name, a length or a place is wanted
is taken as it is.  But it settles repeated names, leaves out what counts as absent, and takes the
elements of whatever stands where a list is wanted.  Main statement: what was read and written once
stays as it is when it is read and written again.
-/

namespace SequenceChart

namespace Json

/-- A legible value is read back once its repeated names are settled. -/
theorem kept_distinct {v : Json} (h : v.Legible) : v.distinct.Kept :=
  ⟨h.distinct, distinct_distinct v⟩

theorem Kept.item {items : List Json} (h : (array items).Kept) : ∀ item ∈ items, item.Kept := by
  have hitems : distinctItems items = items := array.inj h.distinct_eq
  intro item hitem
  exact ⟨mem_of_legibleItems h.legible item hitem,
    distinct_of_mem_distinctItems items item (hitems.symm ▸ hitem)⟩

theorem Kept.member {members : List (String × Json)} (h : (object members).Kept) :
    ∀ member ∈ members, member.2.Kept := by
  have hmembers : mergeMembers (distinctMembers members) = members := object.inj h.distinct_eq
  intro member hmember
  exact ⟨mem_of_legibleMembers h.legible member hmember,
    distinct_of_mem_distinctMembers members member
      (mem_of_mem_mergeMembers (hmembers.symm ▸ hmember))⟩

theorem Kept.lookup {members : List (String × Json)} (h : (object members).Kept) {name : String}
    {v : Json} (hv : lookup? name members = some v) : v.Kept := by
  obtain ⟨member, hmember, rfl⟩ := Option.map_eq_some_iff.1 hv
  exact h.member member (List.mem_reverse.1 (List.mem_of_find?_eq_some hmember))

theorem kept_string (s : String) : (string s).Kept := ⟨trivial, rfl⟩

end Json

namespace Artifact

open Json (bind_eq_ok)

/-! ## Fields -/

section Fields

variable {v w : Json} (hv : v.Kept) {name : String}

include hv

theorem kept_of_demand (h : demand name v = .ok w) : w.Kept := by
  unfold demand at h
  split at h
  · split at h
    · next hlookup =>
      cases h
      exact hv.lookup hlookup
    · cases h
  · cases h

theorem kept_of_allow (h : allow name v = .ok (some w)) : w.Kept := by
  unfold allow at h
  split at h
  · exact hv.lookup (Except.ok.inj h)
  · cases h

theorem kept_of_elements {items : List Json} (h : elements v = .ok items) :
    ∀ item ∈ items, item.Kept := by
  unfold elements at h
  split at h
  · cases h
    exact hv.item
  · cases h
    exact List.forall_mem_map.2 fun c _ => Json.kept_string _
  · cases h
    exact List.forall_mem_map.2 fun member _ => Json.kept_string _
  · cases h

theorem kept_of_elementsAt {items : List Json} (h : elementsAt name v = .ok items) :
    ∀ item ∈ items, item.Kept := by
  unfold elementsAt at h
  obtain ⟨found, hfound, h⟩ := bind_eq_ok.1 h
  cases found with
  | none =>
    cases h
    nofun
  | some value => exact kept_of_elements (kept_of_allow hv hfound) h

/-- What is present is kept and not null. -/
theorem kept_of_present {found : Option Json} (hfound : allow name v = .ok found)
    (h : present found = some w) : w.Kept ∧ w ≠ .null := by
  unfold present at h
  split at h
  · cases h
  · next hnull =>
    subst h
    refine ⟨kept_of_allow hv hfound, ?_⟩
    rintro rfl
    exact hnull rfl

end Fields

/-- What every item of a row is read as, the items of the row that is read are. -/
theorem forall_of_mapM {α : Type} {read : Json → Except Fault α} {p : α → Prop} {items : List Json}
    (hread : ∀ item ∈ items, ∀ x, read item = .ok x → p x) {xs : List α}
    (h : items.mapM read = .ok xs) : ∀ x ∈ xs, p x := by
  induction items generalizing xs with
  | nil =>
    cases h
    nofun
  | cons item items ih =>
    obtain ⟨hitem, hitems⟩ := List.forall_mem_cons.1 hread
    rw [List.mapM_cons] at h
    obtain ⟨x, hx, h⟩ := bind_eq_ok.1 h
    obtain ⟨more, hmore, h⟩ := bind_eq_ok.1 h
    cases h
    exact List.forall_mem_cons.2 ⟨hitem x hx, ih hitems hmore⟩

/-! ## Records -/

section Records

variable {v : Json} (hv : v.Kept)

include hv

theorem has_of_box {b : Box} (h : Box.ofJson v = .ok b) : b.Has .kept := by
  unfold Box.ofJson at h
  obtain ⟨start, hstart, h⟩ := bind_eq_ok.1 h
  obtain ⟨width, hwidth, h⟩ := bind_eq_ok.1 h
  obtain ⟨height, hheight, h⟩ := bind_eq_ok.1 h
  obtain ⟨inset, hinset, h⟩ := bind_eq_ok.1 h
  cases h
  exact ⟨kept_of_demand hv hstart, kept_of_demand hv hwidth, kept_of_demand hv hheight,
    kept_of_demand hv hinset⟩

theorem has_of_lifeline {l : Lifeline} (h : Lifeline.ofJson v = .ok l) : l.Has .kept := by
  unfold Lifeline.ofJson at h
  obtain ⟨name, hname, h⟩ := bind_eq_ok.1 h
  obtain ⟨items, hitems, h⟩ := bind_eq_ok.1 h
  obtain ⟨boxes, hboxes, h⟩ := bind_eq_ok.1 h
  obtain ⟨openBoxes, hopen, h⟩ := bind_eq_ok.1 h
  cases h
  have hkept := kept_of_elementsAt hv hitems
  exact ⟨kept_of_demand hv hname, forall_of_mapM (fun item hitem _ => has_of_box (hkept item hitem))
    hboxes, kept_of_elementsAt hv hopen⟩

theorem has_of_anchor {a : Anchor} (h : Anchor.ofJson v = .ok a) : a.Has .kept := by
  unfold Anchor.ofJson at h
  obtain ⟨lifeline, hlifeline, h⟩ := bind_eq_ok.1 h
  obtain ⟨box, hbox, h⟩ := bind_eq_ok.1 h
  obtain ⟨y, hy, h⟩ := bind_eq_ok.1 h
  cases h
  exact ⟨kept_of_demand hv hlifeline, fun w hw => kept_of_present hv hbox hw, kept_of_demand hv hy⟩

theorem has_of_arrow {a : Arrow} (h : Arrow.ofJson v = .ok a) : a.Has .kept := by
  unfold Arrow.ofJson at h
  obtain ⟨source, hsource, h⟩ := bind_eq_ok.1 h
  obtain ⟨start, hstart, h⟩ := bind_eq_ok.1 h
  obtain ⟨target, htarget, h⟩ := bind_eq_ok.1 h
  obtain ⟨finish, hfinish, h⟩ := bind_eq_ok.1 h
  obtain ⟨label, hlabel, h⟩ := bind_eq_ok.1 h
  obtain ⟨dotted, -, h⟩ := bind_eq_ok.1 h
  cases h
  exact ⟨has_of_anchor (kept_of_demand hv hsource) hstart,
    has_of_anchor (kept_of_demand hv htarget) hfinish, fun w hw => kept_of_present hv hlabel hw⟩

theorem has_of_ofJson {a : Artifact} (h : ofJson v = .ok a) : a.Has .kept := by
  have hrecords {α : Type} {read : Json → Except Fault α} {name : String} {items : List Json}
      {xs : List α} {p : α → Prop} (hread : ∀ w : Json, w.Kept → ∀ x, read w = .ok x → p x)
      (hitems : elementsAt name v = .ok items) (hxs : items.mapM read = .ok xs) : ∀ x ∈ xs, p x :=
    forall_of_mapM (fun item hitem => hread item (kept_of_elementsAt hv hitems item hitem)) hxs
  unfold ofJson at h
  obtain ⟨version, -, h⟩ := bind_eq_ok.1 h
  dsimp only at h
  split at h
  · split at h
    · cases h
    obtain ⟨lineItems, hlineItems, h⟩ := bind_eq_ok.1 h
    obtain ⟨lifelines, hlifelines, h⟩ := bind_eq_ok.1 h
    obtain ⟨arrowItems, harrowItems, h⟩ := bind_eq_ok.1 h
    obtain ⟨arrows, harrows, h⟩ := bind_eq_ok.1 h
    obtain ⟨height, hheight, h⟩ := bind_eq_ok.1 h
    cases h
    refine ⟨hrecords (fun _ hw _ => has_of_lifeline hw) hlineItems hlifelines,
      hrecords (fun _ hw _ => has_of_arrow hw) harrowItems harrows, ?_⟩
    cases height with
    | none => exact ⟨trivial, rfl⟩
    | some w => exact kept_of_allow hv hheight
  -- another version is refused
  · cases h

end Records

/-- Every field of a stored layout that was read is read back. -/
theorem has_of_decode {cs : List Char} {a : Artifact} (h : decode cs = .ok a) : a.Has .kept := by
  unfold decode at h
  split at h
  · cases h
  · next hread => exact has_of_ofJson (Json.kept_distinct (Json.legible_of_ofText hread)) h

/-- What was read has a text. -/
theorem serialize_of_decode {cs : List Char} {a : Artifact} (h : decode cs = .ok a) :
    a.serialize = .ok a.encode :=
  serialize_of_kept (has_of_decode h)

/-- Why a text is not read and written: it holds no stored layout, or the one that it holds has no
text. -/
inductive Unsettled where
  | read (why : Fault)
  | written (why : Json.Unwritable)

/-- The text of a stored layout, read and written once. -/
def normalize (cs : List Char) : Except Unsettled (List Char) := do
  let a ← (decode cs).mapError Unsettled.read
  a.serialize.mapError Unsettled.written

theorem normalize_of_decode {cs : List Char} {a : Artifact} (h : decode cs = .ok a) :
    normalize cs = .ok a.encode := by
  rw [normalize, h]
  show a.serialize.mapError Unsettled.written = _
  rw [serialize_of_decode h]
  rfl

/-- What was read and written once stays as it is when it is read and written again. -/
theorem normalize_normalize {cs text : List Char} (h : normalize cs = .ok text) :
    normalize text = .ok text := by
  cases hread : decode cs with
  | error why =>
    rw [normalize, hread] at h
    cases h
  | ok a =>
    obtain rfl : a.encode = text := Except.ok.inj ((normalize_of_decode hread).symm.trans h)
    exact normalize_of_decode (decode_encode_of_kept (has_of_decode hread))

/-- A name that is no text and repeats a name of its own, strings where lists are wanted, a length
beyond all doubles, nulls that count as absent and a word that counts as true. -/
theorem normalize_normalize_untyped :
    let cs :=
      ("\x7b\"v\":\"1\",\"lifelines\":[\x7b\"name\":\x7b\"a\":1,\"b\":[],\"a\":-0\x7d,\"boxes\":\"\",\"open\":\"x😀\"\x7d],"
        ++ "\"arrows\":[\x7b\"start\":\x7b\"lifeline\":\"\",\"y\":null,\"box\":null\x7d,"
        ++ "\"end\":\x7b\"lifeline\":-0.0,\"y\":1e999,\"box\":[]\x7d,\"label\":null,\"dotted\":\"false\"\x7d]\x7d").toList
    let text :=
      ("\x7b\"v\":\"1\",\"height\":0.0,"
        ++ "\"lifelines\":[\x7b\"name\":\x7b\"a\":0,\"b\":[]\x7d,\"boxes\":[],\"open\":[\"x\",\"\\ud83d\\ude00\"]\x7d],"
        ++ "\"arrows\":[\x7b\"start\":\x7b\"lifeline\":\"\",\"y\":null\x7d,\"end\":\x7b\"lifeline\":-0.0,\"y\":Infinity,\"box\":[]\x7d,"
        ++ "\"dotted\":true\x7d]\x7d").toList
    normalize cs = .ok text ∧ normalize text = .ok text := by
  intro cs text
  have hsome : (normalize cs).toOption = some text := by
    -- the characters of short texts are found sooner than those of one long text
    simp only [cs, text, String.toList_append]
    decide +kernel
  have h : normalize cs = .ok text := by
    cases hcs : normalize cs with
    | error why =>
      rw [hcs] at hsome
      cases hsome
    | ok found =>
      rw [hcs] at hsome
      exact congrArg Except.ok (Option.some.inj hsome)
  exact ⟨h, normalize_normalize h⟩

end Artifact

end SequenceChart
