import SequenceChart.Text.Utf8
set_option autoImplicit false

/-!
# Bytes that are a text

Main statement: bytes are read as a text exactly if they are the encodings of its characters, one
after the other.  Behind it stands one fact about a character in progress: it is finished by the
last bytes of a code point that has the bits read so far.
-/

namespace SequenceChart.Text

namespace Utf8

/-- The byte with the sixth of a code point's bits that has `k` sixths after it. -/
def tailByte (k code : Nat) : Nat := 0x80 + code / Nat.pow 64 k % 64

/-- The last `k` bytes of a code point. -/
def tailBytes : Nat → Nat → List UInt8
  | 0, _ => []
  | k + 1, code => UInt8.ofNat (tailByte k code) :: tailBytes k code

theorem tailByte_bounds (k code : Nat) : 0x80 ≤ tailByte k code ∧ tailByte k code ≤ 0xbf := by
  unfold tailByte
  omega

theorem toNat_tailByte (k code : Nat) :
    (UInt8.ofNat (tailByte k code)).toNat = tailByte k code :=
  UInt8.toNat_ofNat_of_lt' (Nat.lt_of_le_of_lt (tailByte_bounds k code).2 (by decide))

/-- A sixth more of a code point's bits. -/
theorem div_pow_eq (k code : Nat) :
    code / Nat.pow 64 k = code / Nat.pow 64 (k + 1) * 64 + tailByte k code % 64 := by
  have hdiv : code / Nat.pow 64 (k + 1) = code / Nat.pow 64 k / 64 := by
    rw [Nat.div_div_eq_div_mul]
    rfl
  unfold tailByte
  omega

/-- The code point has the bits read so far, and its next byte is within the bounds. -/
structure Partial.Admits (p : Partial) (code : Nat) : Prop where
  bits : code / Nat.pow 64 p.missing = p.bits
  low : p.low ≤ tailByte (p.missing - 1) code
  high : tailByte (p.missing - 1) code ≤ p.high

/-- The bounds are bounds of a byte that goes on with a character. -/
structure Partial.Sane (p : Partial) : Prop where
  missing : 0 < p.missing
  low : 0x80 ≤ p.low
  high : p.high ≤ 0xbf

section Partial

variable {p : Partial} {k code : Nat} {b : UInt8}

/-- The next byte is that of the code point exactly if it is within the bounds and its bits are the
next ones of the code point. -/
theorem Partial.Sane.admits_iff (hp : p.Sane) (hk : p.missing = k + 1) :
    p.Admits code ∧ b = UInt8.ofNat (tailByte k code) ↔
      (p.low ≤ b.toNat ∧ b.toNat ≤ p.high) ∧
        code / Nat.pow 64 k = p.bits * 64 + b.toNat % 64 := by
  obtain ⟨-, hlow, hhigh⟩ := hp
  have hdiv := div_pow_eq k code
  constructor
  · rintro ⟨⟨hbits, hfrom, hto⟩, rfl⟩
    rw [hk, Nat.add_sub_cancel] at hfrom hto
    rw [hk] at hbits
    rw [toNat_tailByte]
    exact ⟨⟨hfrom, hto⟩, by omega⟩
  · rintro ⟨⟨hfrom, hto⟩, hcode⟩
    have hbyte : tailByte k code = b.toNat := by
      unfold tailByte
      omega
    have hbits : code / Nat.pow 64 (k + 1) = p.bits := by omega
    refine ⟨⟨?_, ?_, ?_⟩, ?_⟩
    · rw [hk, hbits]
    · rw [hk, Nat.add_sub_cancel, hbyte]
      exact hfrom
    · rw [hk, Nat.add_sub_cancel, hbyte]
      exact hto
    · rw [hbyte, UInt8.ofNat_toNat]

theorem map_eq_ok_iff {ε α β : Type} {x : Except ε α} {f : α → β} {y : β} :
    x.map f = .ok y ↔ ∃ a, x = .ok a ∧ f a = y := by
  cases x <;> simp [Except.map]

/-- The bits of a character in progress after one more byte. -/
def Partial.bitsAfter (p : Partial) (b : UInt8) : Nat := p.bits * 64 + b.toNat % 64

/-- A character in progress after one more byte. -/
def Partial.after (p : Partial) (b : UInt8) : Partial :=
  ⟨p.start, p.lead, p.taken + 1, p.missing - 1, 0x80, 0xbf, p.bitsAfter b⟩

theorem decodeFrom_last {position : Nat} {rest : List UInt8} {cs : List Char}
    (hk : p.missing = 1) :
    decodeFrom position (some p) (b :: rest) = .ok cs ↔
      (p.low ≤ b.toNat ∧ b.toNat ≤ p.high) ∧
        ∃ more, decodeFrom (position + 1) none rest = .ok more ∧
          Char.ofNat (p.bitsAfter b) :: more = cs := by
  rw [decodeFrom, ← map_eq_ok_iff]
  simp only [hk, Bool.and_eq_true, decide_eq_true_eq]
  split
  · next hb =>
    rw [if_pos (Nat.le_refl 1)]
    simp only [hb, true_and, and_self]
    cases decodeFrom (position + 1) none rest <;> rfl
  · next hb => simp [hb]

theorem decodeFrom_more {position : Nat} {rest : List UInt8} {cs : List Char}
    (hk : p.missing = k + 2) :
    decodeFrom position (some p) (b :: rest) = .ok cs ↔
      (p.low ≤ b.toNat ∧ b.toNat ≤ p.high) ∧
        decodeFrom (position + 1) (some (p.after b)) rest = .ok cs := by
  have hmore : ¬p.missing ≤ 1 := by omega
  rw [decodeFrom]
  simp only [Bool.and_eq_true, decide_eq_true_eq, if_neg hmore]
  split
  · next hb => simp only [hb, true_and, and_self]; rfl
  · next hb => simp [hb]

/-- A character in progress is finished by the last bytes of a code point that it admits, and by no
others. -/
theorem decodeFrom_partial_iff {position : Nat} {bytes : List UInt8} {cs : List Char}
    (hp : p.Sane) :
    decodeFrom position (some p) bytes = .ok cs ↔
      ∃ code rest more, p.Admits code ∧ bytes = tailBytes p.missing code ++ rest ∧
        decodeFrom (position + p.missing) none rest = .ok more ∧
        Char.ofNat code :: more = cs := by
  obtain ⟨k, hk⟩ : ∃ k, p.missing = k + 1 := ⟨p.missing - 1, by have := hp.missing; omega⟩
  rw [hk]
  induction k generalizing p position bytes with
  | zero =>
    cases bytes with
    | nil => simp [decodeFrom, tailBytes]
    | cons b bytes =>
      rw [decodeFrom_last hk]
      constructor
      · rintro ⟨hb, more, hmore, rfl⟩
        have hcode : p.bitsAfter b / Nat.pow 64 0 = p.bits * 64 + b.toNat % 64 := Nat.div_one _
        obtain ⟨hadmits, hbyte⟩ := (hp.admits_iff hk).2 ⟨hb, hcode⟩
        exact ⟨_, bytes, more, hadmits, by rw [tailBytes, ← hbyte]; rfl, hmore, rfl⟩
      · rintro ⟨code, rest, more, hadmits, hbytes, hmore, rfl⟩
        obtain ⟨hbyte, rfl⟩ := List.cons.inj hbytes
        obtain ⟨hb, hcode⟩ := (hp.admits_iff hk).1 ⟨hadmits, hbyte⟩
        rw [show Nat.pow 64 0 = 1 from rfl, Nat.div_one] at hcode
        exact ⟨hb, more, hmore, by rw [Partial.bitsAfter, hcode]⟩
  | succ k ih =>
    cases bytes with
    | nil => simp [decodeFrom, tailBytes]
    | cons b bytes =>
      have hmissing : (p.after b).missing = k + 1 := by
        show p.missing - 1 = k + 1
        omega
      have hsane : (p.after b).Sane := ⟨by omega, Nat.le_refl _, Nat.le_refl _⟩
      have hplace : position + 1 + (k + 1) = position + (k + 1 + 1) := by omega
      rw [decodeFrom_more hk, ih hsane hmissing, hplace]
      constructor
      · rintro ⟨hb, code, rest, more, hadmits, rfl, hmore⟩
        obtain ⟨hadmits, hbyte⟩ := (hp.admits_iff hk).2 ⟨hb, hmissing ▸ hadmits.bits⟩
        exact ⟨code, rest, more, hadmits, by rw [hbyte]; rfl, hmore⟩
      · rintro ⟨code, rest, more, hadmits, hbytes, hmore⟩
        obtain ⟨hbyte, hbytes⟩ := List.cons.inj hbytes
        obtain ⟨hb, hcode⟩ := (hp.admits_iff hk).1 ⟨hadmits, hbyte⟩
        have hnext : (p.after b).Admits code :=
          ⟨hmissing ▸ hcode, (tailByte_bounds _ code).1, (tailByte_bounds _ code).2⟩
        exact ⟨hb, code, rest, more, hnext, hbytes, hmore⟩

end Partial

/-! ## Whole characters -/

/-- The first byte of a code point beyond ASCII, and how many bytes follow it. -/
def lead (code : Nat) : Nat × Nat :=
  if code ≤ 0x7ff then (0xc0 + code / 64, 1)
  else if code ≤ 0xffff then (0xe0 + code / 4096, 2)
  else (0xf0 + code / 262144, 3)

theorem toNat_ofNat_of_isValidChar {code : Nat} (h : code.isValidChar) :
    (Char.ofNat code).toNat = code := by
  unfold Char.ofNat
  rw [dif_pos h]
  rfl

theorem encodeChar_ascii {c : Char} (h : c.toNat ≤ 0x7f) :
    String.utf8EncodeChar c = [UInt8.ofNat c.toNat] := by
  simp only [String.utf8EncodeChar, Char.toNat_val, h, if_true]

theorem toNat_lt (c : Char) : c.toNat < 0x110000 := by
  rcases c.valid with h | h
  · exact Nat.lt_trans h (by decide)
  · exact h.2

theorem tailBytes_succ (k code : Nat) :
    tailBytes (k + 1) code = UInt8.ofNat (code / Nat.pow 64 k % 64 + 0x80) :: tailBytes k code := by
  rw [tailBytes, tailByte, Nat.add_comm]

theorem encodeChar_eq {c : Char} (h : 0x7f < c.toNat) :
    String.utf8EncodeChar c
      = UInt8.ofNat (lead c.toNat).1 :: tailBytes (lead c.toNat).2 c.toNat := by
  have hlt := toNat_lt c
  have hone : c.toNat / Nat.pow 64 0 = c.toNat := Nat.div_one _
  simp only [String.utf8EncodeChar, Char.toNat_val, if_neg (Nat.not_le.2 h), lead]
  split
  · have hlead : c.toNat / 64 % 0x20 + 0xc0 = 0xc0 + c.toNat / 64 := by omega
    rw [hlead, tailBytes_succ, hone]
    rfl
  split
  · have hlead : c.toNat / 4096 % 0x10 + 0xe0 = 0xe0 + c.toNat / 4096 := by omega
    rw [hlead, tailBytes_succ, tailBytes_succ, hone]
    rfl
  · have hlead : c.toNat / 262144 % 0x08 + 0xf0 = 0xf0 + c.toNat / 262144 := by omega
    rw [hlead, tailBytes_succ, tailBytes_succ, tailBytes_succ, hone]
    rfl

section Lead

variable {code n : Nat}

theorem lead_two (h : code ≤ 0x7ff) (hn : n = 0xc0 + code / 64) : lead code = (n, 1) := by
  rw [lead, if_pos h, hn]

theorem lead_three (h : 0x7ff < code) (h' : code ≤ 0xffff) (hn : n = 0xe0 + code / 4096) :
    lead code = (n, 2) := by
  rw [lead, if_neg (Nat.not_le.2 h), if_pos h', hn]

theorem lead_four (h : 0xffff < code) (hn : n = 0xf0 + code / 262144) : lead code = (n, 3) := by
  rw [lead, if_neg (by omega), if_neg (Nat.not_le.2 h), hn]

end Lead

/-- The code points that the bytes after a first byte may finish are those that it leads. -/
theorem lead_of_begin_ {position code : Nat} {b : UInt8} {p : Partial}
    (h : begin_ position b = some p) (hp : p.Admits code) :
    code.isValidChar ∧ 0x7f < code ∧ lead code = (b.toNat, p.missing) := by
  obtain ⟨hbits, hlow, hhigh⟩ := hp
  have hvalid (h : code < 0xd800 ∨ 0xdfff < code ∧ code < 0x110000) : code.isValidChar := h
  unfold begin_ at h
  simp only [Bool.and_eq_true, decide_eq_true_eq] at h
  split at h
  · cases h
    have hbits : code / 64 = b.toNat - 0xc0 := hbits
    exact ⟨hvalid (by omega), by omega, lead_two (by omega) (by omega)⟩
  split at h
  · cases h
    have hbits : code / 4096 = 0 := hbits
    have hlow : 0xa0 ≤ 0x80 + code / 64 % 64 := hlow
    exact ⟨hvalid (by omega), by omega, lead_three (by omega) (by omega) (by omega)⟩
  split at h
  · cases h
    have hbits : code / 4096 = 0xd := hbits
    have hhigh : 0x80 + code / 64 % 64 ≤ 0x9f := hhigh
    exact ⟨hvalid (by omega), by omega, lead_three (by omega) (by omega) (by omega)⟩
  split at h
  · cases h
    have hbits : code / 4096 = b.toNat - 0xe0 := hbits
    exact ⟨hvalid (by omega), by omega, lead_three (by omega) (by omega) (by omega)⟩
  split at h
  · cases h
    have hbits : code / 262144 = 0 := hbits
    have hlow : 0x90 ≤ 0x80 + code / 4096 % 64 := hlow
    exact ⟨hvalid (by omega), by omega, lead_four (by omega) (by omega)⟩
  split at h
  · cases h
    have hbits : code / 262144 = b.toNat - 0xf0 := hbits
    exact ⟨hvalid (by omega), by omega, lead_four (by omega) (by omega)⟩
  split at h
  · cases h
    have hbits : code / 262144 = 4 := hbits
    have hhigh : 0x80 + code / 4096 % 64 ≤ 0x8f := hhigh
    exact ⟨hvalid (by omega), by omega, lead_four (by omega) (by omega)⟩
  · cases h

theorem sane_begin_ {position : Nat} {b : UInt8} {p : Partial} (h : begin_ position b = some p) :
    p.Sane := by
  unfold begin_ at h
  dsimp only at h
  repeat' split at h
  all_goals cases h
  all_goals constructor <;> simp

/-- The code points beyond ASCII that a first byte leads may be finished after it. -/
theorem exists_begin_ (position : Nat) {code k : Nat} {b : UInt8} (h : code.isValidChar)
    (hlow : 0x7f < code) (hlead : lead code = (b.toNat, k)) :
    ∃ p, begin_ position b = some p ∧ p.Admits code ∧ p.missing = k := by
  have hvalid : code < 0xd800 ∨ 0xdfff < code ∧ code < 0x110000 := h
  unfold begin_
  simp only [Bool.and_eq_true, decide_eq_true_eq]
  unfold lead at hlead
  split at hlead
  · obtain ⟨hbyte, rfl⟩ := Prod.mk.inj hlead
    rw [if_pos (by omega)]
    have hbits : code / 64 = b.toNat - 0xc0 := by omega
    exact ⟨_, rfl, ⟨hbits, (tailByte_bounds 0 code).1, (tailByte_bounds 0 code).2⟩, rfl⟩
  split at hlead
  · obtain ⟨hbyte, rfl⟩ := Prod.mk.inj hlead
    obtain ⟨htail, htail'⟩ := tailByte_bounds 1 code
    have hnext : tailByte 1 code = 0x80 + code / 64 % 64 := rfl
    rw [if_neg (by omega)]
    split
    · have hbits : code / 4096 = 0 := by omega
      exact ⟨_, rfl, ⟨hbits, show 0xa0 ≤ tailByte 1 code by omega, htail'⟩, rfl⟩
    split
    · have hbits : code / 4096 = 0xd := by omega
      exact ⟨_, rfl, ⟨hbits, htail, show tailByte 1 code ≤ 0x9f by omega⟩, rfl⟩
    · have hbits : code / 4096 = b.toNat - 0xe0 := by omega
      rw [if_pos (by omega)]
      exact ⟨_, rfl, ⟨hbits, htail, htail'⟩, rfl⟩
  · obtain ⟨hbyte, rfl⟩ := Prod.mk.inj hlead
    obtain ⟨htail, htail'⟩ := tailByte_bounds 2 code
    have hnext : tailByte 2 code = 0x80 + code / 4096 % 64 := rfl
    rw [if_neg (by omega), if_neg (by omega), if_neg (by omega), if_neg (by omega)]
    split
    · have hbits : code / 262144 = 0 := by omega
      exact ⟨_, rfl, ⟨hbits, show 0x90 ≤ tailByte 2 code by omega, htail'⟩, rfl⟩
    split
    · have hbits : code / 262144 = b.toNat - 0xf0 := by omega
      exact ⟨_, rfl, ⟨hbits, htail, htail'⟩, rfl⟩
    · have hbits : code / 262144 = 4 := by omega
      rw [if_pos (by omega)]
      exact ⟨_, rfl, ⟨hbits, htail, show tailByte 2 code ≤ 0x8f by omega⟩, rfl⟩

theorem decodeFrom_ascii {position : Nat} {b : UInt8} {bytes : List UInt8} {cs : List Char}
    (hb : b.toNat ≤ 0x7f) :
    decodeFrom position none (b :: bytes) = .ok cs ↔
      ∃ more, decodeFrom (position + 1) none bytes = .ok more ∧
        Char.ofNat b.toNat :: more = cs := by
  rw [← map_eq_ok_iff, decodeFrom, if_pos (by omega)]
  cases decodeFrom (position + 1) none bytes <;> rfl

theorem decodeFrom_lead {position : Nat} {b : UInt8} {bytes : List UInt8} {cs : List Char}
    (hb : ¬b.toNat ≤ 0x7f) :
    decodeFrom position none (b :: bytes) = .ok cs ↔
      ∃ p, begin_ position b = some p ∧ decodeFrom (position + 1) (some p) bytes = .ok cs := by
  rw [decodeFrom, if_neg (by omega)]
  cases begin_ position b <;> simp

theorem toNat_lead {c : Char} (h : 0x7f < c.toNat) :
    lead c.toNat = ((UInt8.ofNat (lead c.toNat).1).toNat, (lead c.toNat).2) ∧
      ¬(UInt8.ofNat (lead c.toNat).1).toNat ≤ 0x7f := by
  have hlt := toNat_lt c
  have hbounds : 0x7f < (lead c.toNat).1 ∧ (lead c.toNat).1 < 256 := by
    unfold lead
    split
    · dsimp only
      omega
    split <;> dsimp only <;> omega
  rw [UInt8.toNat_ofNat_of_lt' hbounds.2]
  exact ⟨rfl, Nat.not_le.2 hbounds.1⟩

/-- A character's encoding is read as the character, whatever follows. -/
theorem decodeFrom_encodeChar_append (c : Char) {rest : List UInt8} {more : List Char}
    (h : ∀ position, decodeFrom position none rest = .ok more) (position : Nat) :
    decodeFrom position none (String.utf8EncodeChar c ++ rest) = .ok (c :: more) := by
  by_cases hc : c.toNat ≤ 0x7f
  · have hbyte : (UInt8.ofNat c.toNat).toNat = c.toNat :=
      UInt8.toNat_ofNat_of_lt' (Nat.lt_of_le_of_lt hc (by decide))
    rw [encodeChar_ascii hc]
    refine (decodeFrom_ascii (by rw [hbyte]; exact hc)).2 ⟨more, h _, ?_⟩
    rw [hbyte, Char.ofNat_toNat]
  · have hc := Nat.not_le.1 hc
    obtain ⟨hlead, hbyte⟩ := toNat_lead hc
    obtain ⟨p, hbegin, hadmits, hmissing⟩ := exists_begin_ position c.valid hc hlead
    rw [encodeChar_eq hc, List.cons_append, decodeFrom_lead hbyte]
    refine ⟨p, hbegin, (decodeFrom_partial_iff (sane_begin_ hbegin)).2 ?_⟩
    refine ⟨c.toNat, rest, more, hadmits, by rw [hmissing], h _, ?_⟩
    rw [Char.ofNat_toNat]

theorem decodeFrom_flatMap (cs : List Char) (position : Nat) :
    decodeFrom position none (cs.flatMap String.utf8EncodeChar) = .ok cs := by
  induction cs generalizing position with
  | nil => rfl
  | cons c cs ih =>
    rw [List.flatMap_cons]
    exact decodeFrom_encodeChar_append c ih position

theorem eq_flatMap_of_decodeFrom {position : Nat} {bytes : List UInt8} {cs : List Char}
    (h : decodeFrom position none bytes = .ok cs) :
    bytes = cs.flatMap String.utf8EncodeChar := by
  induction hn : bytes.length using Nat.strongRecOn generalizing position bytes cs with
  | ind n ih =>
    subst hn
    cases bytes with
    | nil =>
      cases h
      rfl
    | cons b bytes =>
      by_cases hb : b.toNat ≤ 0x7f
      · obtain ⟨more, hmore, rfl⟩ := (decodeFrom_ascii hb).1 h
        have hvalid : b.toNat.isValidChar := Or.inl (by omega)
        have hcode := toNat_ofNat_of_isValidChar hvalid
        rw [List.flatMap_cons, encodeChar_ascii (by omega), hcode, UInt8.ofNat_toNat,
          ← ih _ (by simp) hmore rfl]
        rfl
      · obtain ⟨p, hbegin, hpartial⟩ := (decodeFrom_lead hb).1 h
        obtain ⟨code, rest, more, hadmits, rfl, hmore, rfl⟩ :=
          (decodeFrom_partial_iff (sane_begin_ hbegin)).1 hpartial
        obtain ⟨hvalid, hlow, hlead⟩ := lead_of_begin_ hbegin hadmits
        have hcode := toNat_ofNat_of_isValidChar hvalid
        have hshorter : rest.length < (b :: (tailBytes p.missing code ++ rest)).length := by
          rw [List.length_cons, List.length_append]
          omega
        rw [List.flatMap_cons, encodeChar_eq (by omega), hcode, hlead, UInt8.ofNat_toNat,
          ← ih rest.length hshorter hmore rfl]
        rfl

end Utf8

/-- Bytes are read as a text exactly if they are the encodings of its characters in order. -/
theorem decodeUtf8_eq_ok_iff {bytes : List UInt8} {cs : List Char} :
    decodeUtf8 bytes = .ok cs ↔ bytes = cs.flatMap String.utf8EncodeChar := by
  refine ⟨Utf8.eq_flatMap_of_decodeFrom, ?_⟩
  rintro rfl
  exact Utf8.decodeFrom_flatMap cs 0

end SequenceChart.Text
