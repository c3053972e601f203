import SequenceChart.Artifact.Query
import SequenceChart.Artifact.Text
import SequenceChart.Proofs.Json.Distinct
import SequenceChart.Proofs.Json.RoundTrip
set_option autoImplicit false

/-!
# Reading back stored layouts

Writing a layout leaves out what is empty or absent, and reading puts it back.  Main statement: a
layout whose fields are what they should be has a text, which reads as that layout, and the layout
equals itself.  Places are kept as integers, so they are held to the limit of digits for integers in
texts: a layout with a place beyond it has no text.
-/

namespace SequenceChart

namespace Json

/-- The value is read back from its text, and no name in it is repeated. -/
structure Kept (v : Json) : Prop where
  legible : v.Legible
  distinct_eq : v.distinct = v

theorem kept_array {items : List Json} (h : ∀ item ∈ items, item.Kept) : (array items).Kept :=
  ⟨legible_array fun item hitem => (h item hitem).legible,
    distinct_array fun item hitem => (h item hitem).distinct_eq⟩

theorem kept_object {members : List (String × Json)} (hnames : (members.map Prod.fst).Nodup)
    (h : ∀ member ∈ members, member.2.Kept) : (object members).Kept :=
  ⟨legible_object fun member hmember => (h member hmember).legible,
    distinct_object hnames fun member hmember => (h member hmember).distinct_eq⟩

end Json

namespace Artifact

/-! ## Kinds of fields -/

/-- What the fields of a stored layout are: names and labels, lengths, and places. -/
structure Kinds where
  text : Json → Prop
  length : Json → Prop
  place : Json → Prop

structure Box.Has (kinds : Kinds) (b : Box) : Prop where
  start : kinds.length b.start
  width : kinds.length b.width
  height : kinds.length b.height
  inset : kinds.length b.inset

structure Lifeline.Has (kinds : Kinds) (l : Lifeline) : Prop where
  name : kinds.text l.name
  boxes : ∀ b ∈ l.boxes, b.Has kinds
  openBoxes : ∀ v ∈ l.openBoxes, kinds.place v

structure Anchor.Has (kinds : Kinds) (a : Anchor) : Prop where
  lifeline : kinds.place a.lifeline
  box : ∀ v, a.box = some v → kinds.place v ∧ v ≠ .null
  y : kinds.length a.y

structure Arrow.Has (kinds : Kinds) (a : Arrow) : Prop where
  start : a.start.Has kinds
  finish : a.finish.Has kinds
  label : ∀ v, a.label = some v → kinds.text v ∧ v ≠ .null

/-- The fields of a stored layout are of the given kinds; a label or a box that is there is not
null. -/
structure Has (kinds : Kinds) (a : Artifact) : Prop where
  lifelines : ∀ l ∈ a.lifelines, l.Has kinds
  arrows : ∀ arrow ∈ a.arrows, arrow.Has kinds
  height : kinds.length a.height

/-- Every field of the first kinds is of the second kinds. -/
structure Kinds.Implies (k₁ k₂ : Kinds) : Prop where
  text : ∀ v, k₁.text v → k₂.text v
  length : ∀ v, k₁.length v → k₂.length v
  place : ∀ v, k₁.place v → k₂.place v

section Implies

variable {k₁ k₂ : Kinds} (hk : k₁.Implies k₂)

include hk

theorem Box.Has.imp {b : Box} (h : b.Has k₁) : b.Has k₂ :=
  ⟨hk.length _ h.start, hk.length _ h.width, hk.length _ h.height, hk.length _ h.inset⟩

theorem Lifeline.Has.imp {l : Lifeline} (h : l.Has k₁) : l.Has k₂ :=
  ⟨hk.text _ h.name, fun b hb => (h.boxes b hb).imp hk, fun v hv => hk.place v (h.openBoxes v hv)⟩

theorem Anchor.Has.imp {a : Anchor} (h : a.Has k₁) : a.Has k₂ :=
  ⟨hk.place _ h.lifeline, fun v hv => ⟨hk.place v (h.box v hv).1, (h.box v hv).2⟩,
    hk.length _ h.y⟩

theorem Arrow.Has.imp {a : Arrow} (h : a.Has k₁) : a.Has k₂ :=
  ⟨h.start.imp hk, h.finish.imp hk,
    fun v hv => ⟨hk.text v (h.label v hv).1, (h.label v hv).2⟩⟩

theorem Has.imp {a : Artifact} (h : a.Has k₁) : a.Has k₂ :=
  ⟨fun l hl => (h.lifelines l hl).imp hk, fun arrow harrow => (h.arrows arrow harrow).imp hk,
    hk.length _ h.height⟩

end Implies

/-- Fields that are read back from their texts. -/
def Kinds.kept : Kinds := ⟨Json.Kept, Json.Kept, Json.Kept⟩

/-- Fields that equal themselves. -/
def Kinds.reflexive : Kinds :=
  ⟨fun v => v.equal v = true, fun v => v.equal v = true, fun v => v.equal v = true⟩

/-- The fields of a layout: strings, doubles that are numbers, and integers within the limit of
digits. -/
def Kinds.typed : Kinds where
  text v := ∃ s, v = .string s
  length v := (∃ x, v = .float x) ∧ v.isNaN = false
  place v := ∃ n : Int, v = .int n ∧ (Decimal.natDigits n.natAbs).length ≤ Decimal.digitLimit

theorem Kinds.typed_kept : Kinds.typed.Implies .kept where
  text := by
    rintro _ ⟨s, rfl⟩
    exact ⟨trivial, rfl⟩
  length := by
    rintro _ ⟨⟨x, rfl⟩, -⟩
    exact ⟨trivial, rfl⟩
  place := by
    rintro _ ⟨n, rfl, hn⟩
    exact ⟨hn, rfl⟩

theorem Kinds.typed_reflexive : Kinds.typed.Implies .reflexive where
  text := by
    rintro _ ⟨s, rfl⟩
    simp [reflexive, Json.equal]
  length := by
    rintro _ ⟨⟨x, rfl⟩, hx⟩
    have hself : (x == x) = true := by simpa [Json.isNaN] using hx
    simp [reflexive, Json.equal, Json.compareNumbers, Decimal.not_lt_self, hself]
  place := by
    rintro _ ⟨n, rfl, -⟩
    simp [reflexive, Json.equal, Json.compareNumbers, Json.asInt?]

/-! ## Layouts to be stored -/

section OfLayout

/-- The lengths that a layout has. -/
def lengths (l : Layout Float) : List Float :=
  l.height :: ((l.lifelines.flatMap fun line => line.boxes.flatMap fun b =>
    [b.start, b.width, b.height, b.inset]) ++ l.arrows.flatMap fun a => [a.start.y, a.finish.y])

/-- The places that a layout has. -/
def places (l : Layout Float) : List Nat :=
  (l.lifelines.flatMap fun line => line.openBoxes) ++ l.arrows.flatMap fun a =>
    a.start.lifeline :: a.finish.lifeline :: (a.start.box.toList ++ a.finish.box.toList)

/-- The fields of a stored layout are of some kinds if all strings, the lengths of the layout and its
places are. -/
theorem has_ofLayout {kinds : Kinds} {l : Layout Float} (htext : ∀ s, kinds.text (.string s))
    (hlength : ∀ x ∈ lengths l, kinds.length (.float x))
    (hplace : ∀ n ∈ places l, kinds.place (.int (n : Nat))) : (ofLayout l).Has kinds := by
  have hanchor (a : SequenceChart.Anchor Float) (hy : a.y ∈ lengths l)
      (hlifeline : a.lifeline ∈ places l) (hbox : ∀ n ∈ a.box.toList, n ∈ places l) :
      (ofAnchor a).Has kinds := by
    refine ⟨hplace _ hlifeline, ?_, hlength _ hy⟩
    intro v hv
    obtain ⟨n, hn, rfl⟩ := Option.map_eq_some_iff.1 hv
    exact ⟨hplace n (hbox n (Option.mem_toList.2 hn)), nofun⟩
  refine ⟨List.forall_mem_map.2 ?_, List.forall_mem_map.2 ?_, hlength _ List.mem_cons_self⟩
  · intro line hline
    refine ⟨htext _, List.forall_mem_map.2 ?_, List.forall_mem_map.2 ?_⟩
    · intro b hb
      have hbox : ∀ x ∈ [b.start, b.width, b.height, b.inset], x ∈ lengths l := fun x hx =>
        List.mem_cons_of_mem _ (List.mem_append_left _
          (List.mem_flatMap.2 ⟨line, hline, List.mem_flatMap.2 ⟨b, hb, hx⟩⟩))
      exact ⟨hlength _ (hbox _ (by simp)), hlength _ (hbox _ (by simp)),
        hlength _ (hbox _ (by simp)), hlength _ (hbox _ (by simp))⟩
    · intro n hn
      exact hplace n (List.mem_append_left _ (List.mem_flatMap.2 ⟨line, hline, hn⟩))
  · intro arrow harrow
    have hy : ∀ x ∈ [arrow.start.y, arrow.finish.y], x ∈ lengths l := fun x hx =>
      List.mem_cons_of_mem _ (List.mem_append_right _ (List.mem_flatMap.2 ⟨arrow, harrow, hx⟩))
    have hn : ∀ n ∈ arrow.start.lifeline :: arrow.finish.lifeline ::
        (arrow.start.box.toList ++ arrow.finish.box.toList), n ∈ places l := fun n hn =>
      List.mem_append_right _ (List.mem_flatMap.2 ⟨arrow, harrow, hn⟩)
    refine ⟨hanchor _ (hy _ (by simp)) (hn _ (by simp)) fun n hbox => hn n ?_,
      hanchor _ (hy _ (by simp)) (hn _ (by simp)) fun n hbox => hn n ?_, ?_⟩
    · simp [hbox]
    · simp [hbox]
    · intro v hv
      obtain ⟨s, -, rfl⟩ := Option.map_eq_some_iff.1 hv
      exact ⟨htext s, nofun⟩

variable {l : Layout Float}
  (hplaces : ∀ n ∈ places l, (Decimal.natDigits n).length ≤ Decimal.digitLimit)

include hplaces

/-- A layout without an overlong place has the fields of a layout when it is stored, if no length in
it is no number. -/
theorem typed_ofLayout (hlengths : ∀ x ∈ lengths l, (Json.float x).isNaN = false) :
    (ofLayout l).Has .typed :=
  has_ofLayout (fun s => ⟨s, rfl⟩) (fun x hx => ⟨⟨x, rfl⟩, hlengths x hx⟩)
    fun n hn => ⟨n, rfl, hplaces n hn⟩

/-- A layout without an overlong place is stored with fields that are read back. -/
theorem kept_ofLayout : (ofLayout l).Has .kept :=
  has_ofLayout (fun _ => ⟨trivial, rfl⟩) (fun _ _ => ⟨trivial, rfl⟩)
    fun n hn => ⟨hplaces n hn, rfl⟩

end OfLayout

/-! ## What is written -/

section Written

variable {b : Box} {l : Lifeline} {anchor : Anchor} {arrow : Arrow} {a : Artifact}

theorem kept_toJson_box (h : b.Has .kept) : b.toJson.Kept := by
  refine Json.kept_object (by simp) ?_
  simp only [List.forall_mem_cons]
  exact ⟨h.start, h.width, h.height, h.inset, nofun⟩

theorem kept_toJson_lifeline (h : l.Has .kept) : l.toJson.Kept := by
  have hboxes : (Json.array (l.boxes.map Box.toJson)).Kept := by
    refine Json.kept_array (List.forall_mem_map.2 ?_)
    intro b hb
    exact kept_toJson_box (h.boxes b hb)
  unfold Lifeline.toJson
  refine Json.kept_object ?_ (List.forall_mem_append.2 ⟨?_, ?_⟩)
  · split <;> simp
  · simp only [List.forall_mem_cons]
    exact ⟨h.name, hboxes, nofun⟩
  · split
    · exact nofun
    · exact List.forall_mem_singleton.2 (Json.kept_array h.openBoxes)

theorem kept_toJson_anchor (h : anchor.Has .kept) : anchor.toJson.Kept := by
  unfold Anchor.toJson
  refine Json.kept_object ?_ (List.forall_mem_append.2 ⟨?_, ?_⟩)
  · cases anchor.box <;> simp
  · simp only [List.forall_mem_cons]
    exact ⟨h.lifeline, h.y, nofun⟩
  · refine List.forall_mem_map.2 ?_
    intro place hplace
    exact (h.box place (Option.mem_toList.1 hplace)).1

theorem kept_toJson_arrow (h : arrow.Has .kept) : arrow.toJson.Kept := by
  unfold Arrow.toJson
  refine Json.kept_object ?_
    (List.forall_mem_append.2 ⟨List.forall_mem_append.2 ⟨?_, ?_⟩, ?_⟩)
  · cases arrow.label <;> cases arrow.dotted <;> simp
  · simp only [List.forall_mem_cons]
    exact ⟨kept_toJson_anchor h.start, kept_toJson_anchor h.finish, nofun⟩
  · refine List.forall_mem_map.2 ?_
    intro label hlabel
    exact (h.label label (Option.mem_toList.1 hlabel)).1
  · split
    · exact List.forall_mem_singleton.2 ⟨trivial, rfl⟩
    · exact nofun

theorem kept_toJson (h : a.Has .kept) : a.toJson.Kept := by
  have hlines : (Json.array (a.lifelines.map Lifeline.toJson)).Kept := by
    refine Json.kept_array (List.forall_mem_map.2 ?_)
    intro l hl
    exact kept_toJson_lifeline (h.lifelines l hl)
  have harrows : (Json.array (a.arrows.map Arrow.toJson)).Kept := by
    refine Json.kept_array (List.forall_mem_map.2 ?_)
    intro arrow harrow
    exact kept_toJson_arrow (h.arrows arrow harrow)
  refine Json.kept_object (by simp) ?_
  simp only [List.forall_mem_cons]
  exact ⟨⟨trivial, rfl⟩, h.height, hlines, harrows, nofun⟩

end Written

/-! ## What is read -/

section Read

/-- A list whose elements are read back is read back. -/
theorem mapM_map_eq {α : Type} {write : α → Json} {read : Json → Except Fault α} {xs : List α}
    (h : ∀ x ∈ xs, read (write x) = .ok x) : (xs.map write).mapM read = .ok xs := by
  induction xs with
  | nil => rfl
  | cons x xs ih =>
    obtain ⟨hx, hxs⟩ := List.forall_mem_cons.1 h
    rw [List.map_cons, List.mapM_cons, hx]
    show ((xs.map write).mapM read).bind _ = _
    rw [ih hxs]
    rfl

variable {name : String} {members : List (String × Json)}

theorem demand_object {value : Json} (h : Json.lookup? name members = some value) :
    demand name (.object members) = .ok value := by
  rw [demand, h]

theorem elementsAt_array {items : List Json}
    (h : Json.lookup? name members = some (.array items)) :
    elementsAt name (.object members) = .ok items := by
  rw [elementsAt, allow, h]
  rfl

theorem elementsAt_none (h : Json.lookup? name members = none) :
    elementsAt name (.object members) = .ok [] := by
  rw [elementsAt, allow, h]
  rfl

theorem ofJson_toJson_box (b : Box) : Box.ofJson b.toJson = .ok b := by
  have hstart : demand "start" b.toJson = .ok b.start := demand_object (by simp [Json.lookup?])
  have hwidth : demand "width" b.toJson = .ok b.width := demand_object (by simp [Json.lookup?])
  have hheight : demand "height" b.toJson = .ok b.height := demand_object (by simp [Json.lookup?])
  have hinset : demand "inset" b.toJson = .ok b.inset := demand_object (by simp [Json.lookup?])
  rw [Box.ofJson, hstart, hwidth, hheight, hinset]
  rfl

theorem ofJson_toJson_lifeline (l : Lifeline) : Lifeline.ofJson l.toJson = .ok l := by
  have hname : demand "name" l.toJson = .ok l.name :=
    demand_object (by split <;> simp [Json.lookup?])
  have hboxes : elementsAt "boxes" l.toJson = .ok (l.boxes.map Box.toJson) :=
    elementsAt_array (by split <;> simp [Json.lookup?])
  have hopen : elementsAt "open" l.toJson = .ok l.openBoxes := by
    unfold Lifeline.toJson
    split
    · next hempty =>
      rw [List.isEmpty_iff.1 hempty]
      exact elementsAt_none (by simp [Json.lookup?])
    · exact elementsAt_array (by simp [Json.lookup?])
  rw [Lifeline.ofJson, hname, hboxes, hopen]
  show ((l.boxes.map Box.toJson).mapM Box.ofJson).bind _ = _
  rw [mapM_map_eq fun b _ => ofJson_toJson_box b]
  rfl

theorem present_of_ne_null {v : Option Json} (h : v ≠ some .null) : present v = v := by
  unfold present
  split
  · exact absurd rfl h
  · rfl

theorem ofJson_toJson_anchor {a : Anchor} (h : a.box ≠ some .null) :
    Anchor.ofJson a.toJson = .ok a := by
  have hlifeline : demand "lifeline" a.toJson = .ok a.lifeline :=
    demand_object (by cases a.box <;> simp [Json.lookup?])
  have hy : demand "y" a.toJson = .ok a.y :=
    demand_object (by cases a.box <;> simp [Json.lookup?])
  have hbox : allow "box" a.toJson = .ok a.box := by
    rw [Anchor.toJson, allow]
    cases a.box <;> simp [Json.lookup?]
  rw [Anchor.ofJson, hlifeline, hbox, hy]
  show Except.ok (Anchor.mk a.lifeline (present a.box) a.y) = _
  rw [present_of_ne_null h]

theorem ofJson_toJson_arrow {a : Arrow} (hstart : a.start.box ≠ some .null)
    (hfinish : a.finish.box ≠ some .null) (hlabel : a.label ≠ some .null) :
    Arrow.ofJson a.toJson = .ok a := by
  have hstart' : demand "start" a.toJson = .ok a.start.toJson :=
    demand_object (by cases a.label <;> cases a.dotted <;> simp [Json.lookup?])
  have hfinish' : demand "end" a.toJson = .ok a.finish.toJson :=
    demand_object (by cases a.label <;> cases a.dotted <;> simp [Json.lookup?])
  have hlabel' : allow "label" a.toJson = .ok a.label := by
    rw [Arrow.toJson, allow]
    cases a.label <;> cases a.dotted <;> simp [Json.lookup?]
  have hdotted : allow "dotted" a.toJson = .ok (if a.dotted then some (.bool true) else none) := by
    rw [Arrow.toJson, allow]
    cases a.label <;> cases a.dotted <;> simp [Json.lookup?]
  rw [Arrow.ofJson, hstart', hfinish', hlabel', hdotted]
  show ((Anchor.ofJson a.start.toJson).bind fun start => (Anchor.ofJson a.finish.toJson).bind
    fun finish => .ok (Arrow.mk start finish (present a.label) _)) = _
  rw [ofJson_toJson_anchor hstart, ofJson_toJson_anchor hfinish, present_of_ne_null hlabel]
  obtain ⟨start, finish, label, dotted⟩ := a
  cases dotted <;> rfl

theorem ofJson_toJson {kinds : Kinds} {a : Artifact} (h : a.Has kinds) :
    ofJson a.toJson = .ok a := by
  have hversion : allow "v" a.toJson = .ok (some (.string formatVersion)) := by
    simp [toJson, allow, Json.lookup?]
  have hlines : elementsAt "lifelines" a.toJson = .ok (a.lifelines.map Lifeline.toJson) :=
    elementsAt_array (by simp [Json.lookup?])
  have harrows : elementsAt "arrows" a.toJson = .ok (a.arrows.map Arrow.toJson) :=
    elementsAt_array (by simp [Json.lookup?])
  have hheight : allow "height" a.toJson = .ok (some a.height) := by
    simp [toJson, allow, Json.lookup?]
  have hlines' := mapM_map_eq fun l (_ : l ∈ a.lifelines) => ofJson_toJson_lifeline l
  have harrows' := mapM_map_eq fun arrow (harrow : arrow ∈ a.arrows) =>
    ofJson_toJson_arrow (fun hnull => ((h.arrows arrow harrow).start.box _ hnull).2 rfl)
      (fun hnull => ((h.arrows arrow harrow).finish.box _ hnull).2 rfl)
      (fun hnull => ((h.arrows arrow harrow).label _ hnull).2 rfl)
  rw [ofJson, hversion, hlines, harrows, hheight]
  show ((a.lifelines.map Lifeline.toJson).mapM Lifeline.ofJson).bind (fun lifelines =>
    ((a.arrows.map Arrow.toJson).mapM Arrow.ofJson).bind fun arrows =>
      .ok (Artifact.mk lifelines arrows a.height)) = _
  rw [hlines', harrows']
  rfl

/-- A stored layout whose fields are kept has a text. -/
theorem serialize_of_kept {a : Artifact} (h : a.Has .kept) : a.serialize = .ok a.encode :=
  Json.dump_of_legible (kept_toJson h).legible _

/-- A stored layout whose fields are kept is read back from its characters. -/
theorem decode_encode_of_kept {a : Artifact} (h : a.Has .kept) : decode a.encode = .ok a := by
  have hkept := kept_toJson h
  rw [decode, encode, Json.ofText_write Json.standsFor_escapeAscii .integers hkept.legible]
  show ofJson a.toJson.distinct = _
  rw [hkept.distinct_eq, ofJson_toJson h]

end Read

/-! ## Equality -/

section Equal

theorem equalLists_self {α : Type} {eq : α → α → Bool} {xs : List α} (h : ∀ x ∈ xs, eq x x = true) :
    equalLists eq xs xs = true := by
  induction xs with
  | nil => rfl
  | cons x xs ih =>
    obtain ⟨hx, hxs⟩ := List.forall_mem_cons.1 h
    rw [equalLists, hx, ih hxs]
    rfl

theorem equalItems_self {items : List Json} (h : ∀ v ∈ items, v.equal v = true) :
    Json.equalItems items items = true := by
  induction items with
  | nil => rw [Json.equalItems]
  | cons v items ih =>
    obtain ⟨hv, hitems⟩ := List.forall_mem_cons.1 h
    rw [Json.equalItems, hv, ih hitems]
    rfl

theorem equalOptions_self {v : Option Json} (h : ∀ w, v = some w → w.equal w = true) :
    equalOptions v v = true := by
  cases v with
  | none => rfl
  | some w => exact h w rfl

variable {b : Box} {l : Lifeline} {anchor : Anchor} {arrow : Arrow} {a : Artifact}

theorem Box.Has.equal_self (h : b.Has .reflexive) : b.equal b = true := by
  rw [Box.equal, h.start, h.width, h.height, h.inset]
  rfl

theorem Lifeline.Has.equal_self (h : l.Has .reflexive) : l.equal l = true := by
  rw [Lifeline.equal, h.name, equalLists_self fun b hb => (h.boxes b hb).equal_self,
    equalItems_self h.openBoxes]
  rfl

theorem Anchor.Has.equal_self (h : anchor.Has .reflexive) : anchor.equal anchor = true := by
  rw [Anchor.equal, h.lifeline, h.y, equalOptions_self fun v hv => (h.box v hv).1]
  rfl

theorem Arrow.Has.equal_self (h : arrow.Has .reflexive) : arrow.equal arrow = true := by
  rw [Arrow.equal, h.start.equal_self, h.finish.equal_self,
    equalOptions_self fun v hv => (h.label v hv).1]
  simp

theorem Has.equal_self (h : a.Has .reflexive) : a.equal a = true := by
  rw [equal, h.height, equalLists_self fun l hl => (h.lifelines l hl).equal_self,
    equalLists_self fun arrow harrow => (h.arrows arrow harrow).equal_self]
  rfl

end Equal

/-- A layout has a text, is read back from it as it was, and equals what is read. -/
theorem decode_serialize (a : Artifact) (h : a.Has .typed) :
    ∃ text, a.serialize = .ok text ∧ decode text = .ok a ∧ a.equal a = true := by
  have hkept := h.imp Kinds.typed_kept
  exact ⟨a.encode, serialize_of_kept hkept, decode_encode_of_kept hkept,
    (h.imp Kinds.typed_reflexive).equal_self⟩

/-- Empty texts, the place zero, a negative zero and infinity are read back as they were. -/
theorem decode_serialize_empty :
    let l : Layout Float :=
      { lifelines := [⟨"", [⟨-0.0, 1.0 / 0.0, 0.1, 1e-7⟩], [0]⟩, ⟨"\x7f\n\\😀", [], []⟩]
        arrows := [⟨⟨0, some 0, 0.0⟩, ⟨1, none, 1e22⟩, some "", true⟩]
        height := -0.3 }
    (ofLayout l).Has .typed ∧ ∃ text, (ofLayout l).serialize = .ok text ∧
      decode text = .ok (ofLayout l) ∧ (ofLayout l).equal (ofLayout l) = true := by
  intro l
  have htyped : (ofLayout l).Has .typed := typed_ofLayout (by decide +kernel) (by decide +kernel)
  exact ⟨htyped, decode_serialize (ofLayout l) htyped⟩

theorem serialize_of_long {a : Artifact} (h : a.toJson.isWritable = false) :
    a.serialize = .error .longInteger :=
  if_neg (by rw [h]; exact Bool.false_ne_true)

/-- A layout with a place of 4301 digits has no text, though all its lengths are numbers. -/
theorem serialize_long :
    let l : Layout Float :=
      { lifelines := []
        arrows := [⟨⟨10 ^ 4300, none, 0.0⟩, ⟨0, some 0, 0.0⟩, none, false⟩]
        height := 0.0 }
    (∀ x ∈ lengths l, (Json.float x).isNaN = false) ∧
      (ofLayout l).serialize = .error .longInteger :=
  ⟨by decide +kernel, serialize_of_long (by decide +kernel)⟩

end Artifact

end SequenceChart
