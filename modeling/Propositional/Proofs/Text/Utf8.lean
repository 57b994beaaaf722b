import Propositional.Text.Utf8

/-! Text that is encoded and read again.

A character above U+007F is a lead byte and one to three further bytes, each of which carries six
bits. `Begun` says that the bytes read so far carry the upper bits of a character and that its next
byte is in the range that is allowed; `decodeFrom_tail` reads the further bytes from there. The lead
byte of every character begins it (`begun_two`, `begun_three`, `begun_four`): the ranges of the
second byte refuse overlong forms, surrogates and numbers that are too large, and no character is
one of these. So every text is read as it was encoded (`decode_encode`). -/
namespace Propositional.Utf8

/-! ### The further bytes of a character -/

/-- A number without its last groups of six bits, as many as given. -/
def upper (n : Nat) : Nat → Nat
  | 0 => n
  | k + 1 => upper n k / 64

/-- The byte that carries the last six bits of a number. -/
def tailByte (n : Nat) : UInt8 := UInt8.ofNat (n % 64 + 128)

/-- The further bytes of a number, as many as given. -/
def tail (n : Nat) : Nat → List UInt8
  | 0 => []
  | k + 1 => tailByte (upper n k) :: tail n k

theorem toNat_tailByte (n : Nat) : (tailByte n).toNat = n % 64 + 128 :=
  UInt8.toNat_ofNat_of_lt' (by show n % 64 + 128 < 256; omega)

/-- What has been read of a number are its bytes up to the last ones, which are still missing, and
the next one is in the range that is allowed. -/
structure Begun (n k : Nat) (p : Pending) : Prop where
  missing : p.missing = k + 1
  code : p.code = upper n (k + 1)
  low : p.low.toNat ≤ upper n k % 64 + 128
  high : upper n k % 64 + 128 ≤ p.high.toNat

/-- A byte in the range that is allowed carries the next six bits. -/
theorem decodeFrom_tailByte {n k position : Nat} {p : Pending} (h : Begun n k p)
    (rest : List UInt8) :
    decodeFrom position (some p) (tailByte (upper n k) :: rest) =
      if k = 0 then (Char.ofNat n :: ·) <$> decodeFrom (position + 1) none rest
      else decodeFrom (position + 1)
        (some { p with code := upper n k, missing := k, low := 0x80, high := 0xBF }) rest := by
  have hcode : p.code * 64 + ((tailByte (upper n k)).toNat - 0x80) = upper n k := by
    rw [h.code, toNat_tailByte, upper]
    omega
  have hrange : p.low ≤ tailByte (upper n k) ∧ tailByte (upper n k) ≤ p.high := by
    rw [UInt8.le_iff_toNat_le, UInt8.le_iff_toNat_le, toNat_tailByte]
    exact ⟨h.low, h.high⟩
  rw [decodeFrom, if_pos hrange, hcode, h.missing]
  cases k with
  | zero => rfl
  | succ k => rfl

theorem decodeFrom_tail {n k position : Nat} {p : Pending} (h : Begun n k p) (rest : List UInt8) :
    decodeFrom position (some p) (tail n (k + 1) ++ rest) =
      (Char.ofNat n :: ·) <$> decodeFrom (position + (k + 1)) none rest := by
  induction k generalizing position p with
  | zero => exact decodeFrom_tailByte h rest
  | succ k ih =>
    have hnext : Begun n k
        { p with code := upper n (k + 1), missing := k + 1, low := 0x80, high := 0xBF } :=
      ⟨rfl, rfl, by show 128 ≤ _; omega, by show _ ≤ 191; omega⟩
    rw [tail, List.cons_append, decodeFrom_tailByte h, if_neg (Nat.succ_ne_zero k), ih hnext]
    congr 2
    omega

/-! ### Lead bytes -/

/-- A lead byte begins a number of which so many further bytes are missing. -/
def Leads (lead : UInt8) (n k : Nat) : Prop :=
  0x80 ≤ lead ∧ ∀ position, ∃ p, begin? lead position = some p ∧ Begun n k p

theorem toNat_ofNat {n : Nat} (h : n < 256) : (UInt8.ofNat n).toNat = n :=
  UInt8.toNat_ofNat_of_lt' h

theorem lead_not_ascii {n : Nat} (hlow : 128 ≤ n) (hhigh : n < 256) : 0x80 ≤ UInt8.ofNat n := by
  rw [UInt8.le_iff_toNat_le, toNat_ofNat hhigh]
  exact hlow

theorem exists_begun {lead low high : UInt8} {position code n k : Nat}
    (hcode : code = upper n (k + 1)) (hlow : low.toNat ≤ upper n k % 64 + 128)
    (hhigh : upper n k % 64 + 128 ≤ high.toNat) :
    ∃ p, some (Pending.mk lead position code (k + 1) low high) = some p ∧ Begun n k p :=
  ⟨_, rfl, rfl, hcode, hlow, hhigh⟩

theorem leads_two {n : Nat} (hlow : 0x80 ≤ n) (hhigh : n < 0x800) :
    Leads (UInt8.ofNat (n / 64 % 32 + 192)) n 0 := by
  refine ⟨lead_not_ascii (by omega) (by omega), fun position => ?_⟩
  simp only [begin?, toNat_ofNat (show n / 64 % 32 + 192 < 256 by omega)]
  rw [if_pos (by omega)]
  apply exists_begun <;> simp only [upper, UInt8.reduceToNat] <;> omega

theorem leads_three {n : Nat} (hlow : 0x800 ≤ n) (hhigh : n < 0x10000) (hvalid : n.isValidChar) :
    Leads (UInt8.ofNat (n / 4096 % 16 + 224)) n 1 := by
  have hsurrogate : ¬(0xD800 ≤ n ∧ n ≤ 0xDFFF) := by
    unfold Nat.isValidChar at hvalid
    omega
  refine ⟨lead_not_ascii (by omega) (by omega), fun position => ?_⟩
  simp only [begin?, toNat_ofNat (show n / 4096 % 16 + 224 < 256 by omega)]
  rw [if_neg (by omega)]
  -- the second byte is restricted behind the first lead byte, and behind that of the surrogates
  split
  · apply exists_begun <;> simp only [upper, UInt8.reduceToNat] <;> omega
  split
  · apply exists_begun <;> simp only [upper, UInt8.reduceToNat] <;> omega
  rw [if_pos (by omega)]
  apply exists_begun <;> simp only [upper, UInt8.reduceToNat] <;> omega

theorem leads_four {n : Nat} (hlow : 0x10000 ≤ n) (hhigh : n < 0x110000) :
    Leads (UInt8.ofNat (n / 262144 % 8 + 240)) n 2 := by
  refine ⟨lead_not_ascii (by omega) (by omega), fun position => ?_⟩
  simp only [begin?, toNat_ofNat (show n / 262144 % 8 + 240 < 256 by omega)]
  rw [if_neg (by omega), if_neg (by omega), if_neg (by omega), if_neg (by omega)]
  -- the second byte is restricted behind the first and the last lead byte
  split
  · apply exists_begun <;> simp only [upper, UInt8.reduceToNat] <;> omega
  split
  · apply exists_begun <;> simp only [upper, UInt8.reduceToNat] <;> omega
  rw [if_pos (by omega)]
  apply exists_begun <;> simp only [upper, UInt8.reduceToNat] <;> omega

/-! ### Whole texts -/

theorem decodeFrom_lead {lead : UInt8} {n k : Nat} (h : Leads lead n k) (position : Nat)
    (rest : List UInt8) :
    decodeFrom position none (lead :: tail n (k + 1) ++ rest) =
      (Char.ofNat n :: ·) <$> decodeFrom (position + (k + 2)) none rest := by
  obtain ⟨p, hbegin, hbegun⟩ := h.2 position
  have hascii : ¬lead < 0x80 := UInt8.not_lt.mpr h.1
  rw [List.cons_append, decodeFrom]
  simp only [if_neg hascii, hbegin]
  rw [decodeFrom_tail hbegun]
  congr 2
  omega

/-- A character of more than one byte is a lead byte with the further bytes behind it. -/
theorem encodeChar_eq {c : Char} (h : 0x80 ≤ c.toNat) :
    ∃ lead k, Leads lead c.toNat k ∧ String.utf8EncodeChar c = lead :: tail c.toNat (k + 1) := by
  have hvalid : c.toNat.isValidChar := c.valid
  have hbound : c.toNat < 0x110000 := by
    unfold Nat.isValidChar at hvalid
    omega
  have hdiv : c.toNat / 64 / 64 = c.toNat / 4096 := by omega
  unfold String.utf8EncodeChar
  simp only [Char.toNat_val]
  rw [if_neg (by omega)]
  split
  · exact ⟨_, 0, leads_two h (by omega), rfl⟩
  split
  · exact ⟨_, 1, leads_three (by omega) (by omega) hvalid, rfl⟩
  · refine ⟨_, 2, leads_four (by omega) hbound, ?_⟩
    simp only [tail, upper, tailByte, hdiv]

/-- The encoding of a character is read as this character. -/
theorem decodeFrom_encodeChar (c : Char) (position : Nat) (rest : List UInt8) :
    ∃ next, decodeFrom position none (String.utf8EncodeChar c ++ rest) =
      (c :: ·) <$> decodeFrom next none rest := by
  by_cases h : 0x80 ≤ c.toNat
  · obtain ⟨lead, k, hleads, hchar⟩ := encodeChar_eq h
    refine ⟨position + (k + 2), ?_⟩
    rw [hchar, decodeFrom_lead hleads, Char.ofNat_toNat]
  · have hchar : String.utf8EncodeChar c = [UInt8.ofNat c.toNat] :=
      if_pos (show c.toNat ≤ 127 by omega)
    have hbyte := toNat_ofNat (show c.toNat < 256 by omega)
    have hascii : UInt8.ofNat c.toNat < 0x80 := by
      rw [UInt8.lt_iff_toNat_lt, hbyte]
      show c.toNat < 128
      omega
    refine ⟨position + 1, ?_⟩
    rw [hchar, List.singleton_append, decodeFrom]
    simp only [if_pos hascii, hbyte, Char.ofNat_toNat]

/-- **A text is read as it was encoded.** -/
theorem decode_encode (t : Text) : decode (encode t) = .ok t := by
  suffices ∀ position, decodeFrom position none (encode t) = .ok t from this 0
  induction t with
  | nil => exact fun _ => rfl
  | cons c t ih =>
    intro position
    obtain ⟨next, hnext⟩ := decodeFrom_encodeChar c position (encode t)
    rw [encode, List.flatMap_cons]
    exact hnext.trans (by rw [ih next]; rfl)

end Propositional.Utf8
