import SequenceChart.Yaml.Moment
set_option autoImplicit false

/-!
# YAML values

A scalar is a value that can be a key of a mapping.  Two keys are one if they are equal as numbers,
texts, bytes or instants; a truth value counts as zero or one among the numbers.  A mapping keeps
its keys in the order in which they were first entered, and of several values entered under one key
it keeps the last.
-/

namespace SequenceChart.Yaml

/-- A value that can be a key. -/
inductive Scalar where
  | null
  | bool (b : Bool)
  | int (n : Int)
  | float (x : Float)
  | text (s : String)
  | bytes (bs : List UInt8)
  | date (d : Date)
  | moment (m : Moment)
  deriving DecidableEq, Repr, Inhabited

namespace Scalar

/-- The integer that a scalar counts as. -/
def asInt? : Scalar → Option Int
  | int n => some n
  | bool b => some (if b then 1 else 0)
  | _ => none

/-- The scalars are one key.  A double that is no number is not even the same key as itself. -/
def sameKey : Scalar → Scalar → Bool
  | null, null => true
  | text s, text t => s = t
  | bytes bs, bytes cs => bs = cs
  | date d, date e => d = e
  | moment m, moment n => m.sameInstant n
  | float x, float y => x == y
  | float x, other => x == x && other.asInt?.any fun n => Decimal.compareInt n x = .eq
  | other, float x => x == x && other.asInt?.any fun n => Decimal.compareInt n x = .eq
  | k, l => k.asInt?.isSome && k.asInt? = l.asInt?

/-- The text of a scalar in a message.  An integer with too many digits has none. -/
def shown? : Scalar → Option String
  | null => some "None"
  | bool b => some (if b then "True" else "False")
  | int n => (Decimal.shownInt? n).map String.ofList
  | float x => some (Decimal.text x)
  | text s => some s
  | bytes bs => some (String.ofList (Text.quotedBytes bs))
  | date d => some (String.ofList d.text)
  | moment m => some (String.ofList m.text)

end Scalar

/-- A value under a key: a scalar or a collection.  What a collection holds is not kept. -/
inductive Value where
  | scalar (s : Scalar)
  | collection
  deriving DecidableEq, Repr, Inhabited

/-- Values under keys of which no two are one. -/
structure Mapping where
  entries : List (Scalar × Value)
  distinct : entries.Pairwise (fun e f => e.1.sameKey f.1 = false)
  deriving Repr

namespace Mapping

/-- The mapping without keys. -/
def empty : Mapping := ⟨[], .nil⟩

instance : Inhabited Mapping := ⟨empty⟩

/-- The entry of a key is replaced, or a new one is added at the end. -/
def put (key : Scalar) (value : Value) : List (Scalar × Value) → List (Scalar × Value)
  | [] => [(key, value)]
  | e :: rest => if e.1.sameKey key then (e.1, value) :: rest else e :: put key value rest

/-- The keys after an entry are those before it and perhaps the new one. -/
theorem mem_put {key : Scalar} {value : Value} {entries : List (Scalar × Value)}
    {f : Scalar × Value} (h : f ∈ put key value entries) :
    f.1 = key ∨ ∃ e ∈ entries, e.1 = f.1 := by
  induction entries with
  | nil =>
    simp only [put, List.mem_singleton] at h
    exact Or.inl (by rw [h])
  | cons e rest ih =>
    unfold put at h
    split at h
    · rcases List.mem_cons.1 h with h | h
      · exact Or.inr ⟨e, List.mem_cons_self, by rw [h]⟩
      · exact Or.inr ⟨f, List.mem_cons_of_mem _ h, rfl⟩
    · rcases List.mem_cons.1 h with h | h
      · exact Or.inr ⟨e, List.mem_cons_self, by rw [h]⟩
      · rcases ih h with h | ⟨g, hg, hf⟩
        · exact Or.inl h
        · exact Or.inr ⟨g, List.mem_cons_of_mem _ hg, hf⟩

theorem pairwise_put {key : Scalar} {value : Value} {entries : List (Scalar × Value)}
    (h : entries.Pairwise (fun e f => e.1.sameKey f.1 = false)) :
    (put key value entries).Pairwise (fun e f => e.1.sameKey f.1 = false) := by
  induction entries with
  | nil => simp [put]
  | cons e rest ih =>
    rw [List.pairwise_cons] at h
    unfold put
    split
    · exact List.pairwise_cons.2 ⟨h.1, h.2⟩
    · next hk =>
      refine List.pairwise_cons.2 ⟨fun f hf => ?_, ih h.2⟩
      rcases mem_put hf with hf | ⟨g, hg, hgf⟩
      · rw [hf]
        simpa using hk
      · rw [← hgf]
        exact h.1 g hg

/-- Enters a value under a key. -/
def insert (m : Mapping) (key : Scalar) (value : Value) : Mapping :=
  ⟨put key value m.entries, pairwise_put m.distinct⟩

end Mapping

/-- What a text holds: a mapping, or a value that is none. -/
inductive Document where
  | mapping (m : Mapping)
  | other (v : Value)
  deriving Repr, Inhabited

/-- A reader of texts: it gives what a text holds, or tells why that has no value. -/
abbrev Reader := List Char → Except Fault Document

end SequenceChart.Yaml
