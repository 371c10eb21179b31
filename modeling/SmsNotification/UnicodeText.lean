import Mathlib.Data.List.Basic
import Mathlib.Tactic.SplitIfs

namespace SmsNotification.UnicodeText

/-- The character that stands for what cannot be converted. -/
def replacement : Char := Char.ofNat 0xfffd

def isHigh (u : UInt16) : Bool :=
  0xd800 ≤ u.toNat && u.toNat < 0xdc00

def isLow (u : UInt16) : Bool :=
  0xdc00 ≤ u.toNat && u.toNat < 0xe000

def isSurrogate (u : UInt16) : Bool :=
  isHigh u || isLow u

/-- The code units of a character. -/
def unitsOf (ch : Char) : List UInt16 :=
  if ch.toNat < 0x10000 then [UInt16.ofNat ch.toNat]
  else
    [UInt16.ofNat (0xd800 + (ch.toNat - 0x10000) / 0x400),
      UInt16.ofNat (0xdc00 + (ch.toNat - 0x10000) % 0x400)]

def encode (text : List Char) : List UInt16 :=
  text.flatMap unitsOf

/-- The character of a code unit that is not part of a pair. -/
def single (u : UInt16) : Char :=
  if isSurrogate u then replacement else Char.ofNat u.toNat

def pair (high low : UInt16) : Char :=
  Char.ofNat (0x10000 + (high.toNat - 0xd800) * 0x400 + (low.toNat - 0xdc00))

/-- The characters of a text, with those of lone surrogates replaced. -/
def decode : List UInt16 → List Char
  | [] => []
  | [u] => [single u]
  | u :: v :: rest =>
      if isHigh u && isLow v then pair u v :: decode rest else single u :: decode (v :: rest)

/-- No surrogate of the text stands alone. -/
def isWellFormed : List UInt16 → Bool
  | [] => true
  | [u] => !isSurrogate u
  | u :: v :: rest =>
      if isHigh u && isLow v then isWellFormed rest
      else !isSurrogate u && isWellFormed (v :: rest)

theorem toNat_char (ch : Char) : ch.toNat < 0xd800 ∨ 0xdfff < ch.toNat ∧ ch.toNat < 0x110000 :=
  ch.valid

theorem toNat_ofNat {n : Nat} (h : n.isValidChar) : (Char.ofNat n).toNat = n := by
  rw [Char.ofNat, dif_pos h]
  rfl

theorem isSurrogate_iff (u : UInt16) : isSurrogate u ↔ 0xd800 ≤ u.toNat ∧ u.toNat < 0xe000 := by
  simp only [isSurrogate, isHigh, isLow, Bool.or_eq_true, Bool.and_eq_true, decide_eq_true_eq]
  omega

theorem not_high_of_not_surrogate {u : UInt16} (h : isSurrogate u = false) : isHigh u = false := by
  rw [isSurrogate, Bool.or_eq_false_iff] at h
  exact h.1

theorem isHigh_of_pair (ch : Char) (h : ¬ch.toNat < 0x10000) :
    isHigh (UInt16.ofNat (0xd800 + (ch.toNat - 0x10000) / 0x400)) := by
  have hch := toNat_char ch
  simp only [isHigh, UInt16.toNat_ofNat', Bool.and_eq_true, decide_eq_true_eq]
  omega

theorem isLow_of_pair (ch : Char) :
    isLow (UInt16.ofNat (0xdc00 + (ch.toNat - 0x10000) % 0x400)) := by
  simp only [isLow, UInt16.toNat_ofNat', Bool.and_eq_true, decide_eq_true_eq]
  omega

theorem not_surrogate_of_char (ch : Char) (h : ch.toNat < 0x10000) :
    isSurrogate (UInt16.ofNat ch.toNat) = false := by
  have hch := toNat_char ch
  rw [Bool.eq_false_iff, ne_eq, isSurrogate_iff, UInt16.toNat_ofNat']
  omega

theorem single_of_char (ch : Char) (h : ch.toNat < 0x10000) :
    single (UInt16.ofNat ch.toNat) = ch := by
  rw [single, not_surrogate_of_char ch h, if_neg (by simp), UInt16.toNat_ofNat',
    Nat.mod_eq_of_lt h, Char.ofNat_toNat]

theorem pair_of_char (ch : Char) (h : ¬ch.toNat < 0x10000) :
    pair (UInt16.ofNat (0xd800 + (ch.toNat - 0x10000) / 0x400))
      (UInt16.ofNat (0xdc00 + (ch.toNat - 0x10000) % 0x400)) = ch := by
  have hch := toNat_char ch
  have hvalue : 0x10000 + ((0xd800 + (ch.toNat - 0x10000) / 0x400) % 2 ^ 16 - 0xd800) * 0x400 +
      ((0xdc00 + (ch.toNat - 0x10000) % 0x400) % 2 ^ 16 - 0xdc00) = ch.toNat := by
    omega
  rw [pair, UInt16.toNat_ofNat', UInt16.toNat_ofNat', hvalue, Char.ofNat_toNat]

theorem decode_cons_single {u : UInt16} (h : isHigh u = false) (rest : List UInt16) :
    decode (u :: rest) = single u :: decode rest := by
  cases rest with
  | nil => rfl
  | cons v rest => rw [decode, h, Bool.false_and, if_neg (by simp)]

theorem isWellFormed_cons_single {u : UInt16} (h : isSurrogate u = false) (rest : List UInt16) :
    isWellFormed (u :: rest) = isWellFormed rest := by
  cases rest with
  | nil => simp [isWellFormed, h]
  | cons v rest => simp [isWellFormed, h, not_high_of_not_surrogate h]

theorem decode_unitsOf_append (ch : Char) (rest : List UInt16) :
    decode (unitsOf ch ++ rest) = ch :: decode rest := by
  rw [unitsOf]
  split_ifs with h
  · have hhigh := not_high_of_not_surrogate (not_surrogate_of_char ch h)
    rw [List.singleton_append, decode_cons_single hhigh, single_of_char ch h]
  · rw [List.cons_append, List.singleton_append, decode, isHigh_of_pair ch h, isLow_of_pair ch,
      Bool.and_self, if_pos rfl, pair_of_char ch h]

theorem isWellFormed_unitsOf_append (ch : Char) (rest : List UInt16) :
    isWellFormed (unitsOf ch ++ rest) = isWellFormed rest := by
  rw [unitsOf]
  split_ifs with h
  · rw [List.singleton_append, isWellFormed_cons_single (not_surrogate_of_char ch h)]
  · rw [List.cons_append, List.singleton_append, isWellFormed, isHigh_of_pair ch h,
      isLow_of_pair ch, Bool.and_self, if_pos rfl]

theorem decode_encode (text : List Char) : decode (encode text) = text := by
  induction text with
  | nil => rfl
  | cons ch text ih =>
      rw [encode, List.flatMap_cons, decode_unitsOf_append]
      exact congrArg (ch :: ·) ih

theorem encode_injective : Function.Injective encode :=
  Function.LeftInverse.injective decode_encode

theorem isWellFormed_encode (text : List Char) : isWellFormed (encode text) := by
  induction text with
  | nil => rfl
  | cons ch text ih =>
      rw [encode, List.flatMap_cons, isWellFormed_unitsOf_append]
      exact ih

theorem unitsOf_single {u : UInt16} (h : isSurrogate u = false) : unitsOf (single u) = [u] := by
  have hlt := u.toNat_lt
  have hvalid : u.toNat.isValidChar := by
    rw [Bool.eq_false_iff, ne_eq, isSurrogate_iff] at h
    rw [Nat.isValidChar]
    omega
  have hvalue : (Char.ofNat u.toNat).toNat = u.toNat := toNat_ofNat hvalid
  rw [single, h, if_neg (by simp), unitsOf, hvalue, if_pos hlt, UInt16.ofNat_toNat]

theorem unitsOf_pair {u v : UInt16} (hhigh : isHigh u) (hlow : isLow v) :
    unitsOf (pair u v) = [u, v] := by
  simp only [isHigh, isLow, Bool.and_eq_true, decide_eq_true_eq] at hhigh hlow
  have hvalue : (pair u v).toNat =
      0x10000 + (u.toNat - 0xd800) * 0x400 + (v.toNat - 0xdc00) :=
    toNat_ofNat (by rw [Nat.isValidChar]; omega)
  have hu : 0xd800 + ((pair u v).toNat - 0x10000) / 0x400 = u.toNat := by omega
  have hv : 0xdc00 + ((pair u v).toNat - 0x10000) % 0x400 = v.toNat := by omega
  rw [unitsOf, if_neg (by omega), hu, hv, UInt16.ofNat_toNat, UInt16.ofNat_toNat]

theorem encode_decode_of_isWellFormed {text : List UInt16} (h : isWellFormed text) :
    encode (decode text) = text := by
  induction text using decode.induct with
  | case1 => rfl
  | case2 u =>
      have hu : isSurrogate u = false := by simpa [isWellFormed] using h
      exact (List.append_nil _).trans (unitsOf_single hu)
  | case3 u v rest hpair ih =>
      rw [isWellFormed, if_pos hpair] at h
      rw [decode, if_pos hpair, encode, List.flatMap_cons, ← encode, ih h]
      rw [Bool.and_eq_true] at hpair
      rw [unitsOf_pair hpair.1 hpair.2]
      rfl
  | case4 u v rest hpair ih =>
      rw [isWellFormed, if_neg hpair, Bool.and_eq_true] at h
      rw [decode, if_neg hpair, encode, List.flatMap_cons, ← encode, ih h.2]
      rw [unitsOf_single (by simpa using h.1)]
      rfl

/-- Conversion to characters and back keeps the texts without lone surrogates. -/
theorem encode_decode_iff {text : List UInt16} :
    encode (decode text) = text ↔ isWellFormed text :=
  ⟨fun h => h ▸ isWellFormed_encode _, encode_decode_of_isWellFormed⟩

/-- The bytes of a text. -/
def toUtf8 (text : List UInt16) : List UInt8 :=
  (decode text).flatMap String.utf8EncodeChar

/-- A character of which some bytes have been read: the number of bytes that are owed
after the next one, the range of the next one, and the value so far. -/
structure Pending where
  owed : Nat
  lower : Nat
  upper : Nat
  value : Nat

/-- A byte at the start of a character: the characters that are known with it, and what
is pending after it. -/
def lead (b : UInt8) : List Char × Option Pending :=
  if b.toNat < 0x80 then ([Char.ofNat b.toNat], none)
  else if 0xc2 ≤ b.toNat ∧ b.toNat < 0xe0 then ([], some ⟨0, 0x80, 0xbf, b.toNat - 0xc0⟩)
  else if 0xe0 ≤ b.toNat ∧ b.toNat < 0xf0 then
    ([], some ⟨1, if b.toNat = 0xe0 then 0xa0 else 0x80, if b.toNat = 0xed then 0x9f else 0xbf,
      b.toNat - 0xe0⟩)
  else if 0xf0 ≤ b.toNat ∧ b.toNat < 0xf5 then
    ([], some ⟨2, if b.toNat = 0xf0 then 0x90 else 0x80, if b.toNat = 0xf4 then 0x8f else 0xbf,
      b.toNat - 0xf0⟩)
  else ([replacement], none)

/-- A byte out of the range that is expected ends a character that cannot be converted,
and starts the next one. -/
def feed : Option Pending → UInt8 → List Char × Option Pending
  | none, b => lead b
  | some ⟨owed, lower, upper, value⟩, b =>
      if lower ≤ b.toNat ∧ b.toNat ≤ upper then
        match owed with
        | 0 => ([Char.ofNat (value * 64 + (b.toNat - 0x80))], none)
        | owed + 1 => ([], some ⟨owed, 0x80, 0xbf, value * 64 + (b.toNat - 0x80)⟩)
      else (replacement :: (lead b).1, (lead b).2)

/-- The characters of a sequence of bytes. -/
def charsFrom : Option Pending → List UInt8 → List Char
  | none, [] => []
  | some _, [] => [replacement]
  | state, b :: bytes => (feed state b).1 ++ charsFrom (feed state b).2 bytes

/-- The text of a sequence of bytes. -/
def ofUtf8 (bytes : List UInt8) : List UInt16 :=
  encode (charsFrom none bytes)

theorem charsFrom_cons (state : Option Pending) (b : UInt8) (bytes : List UInt8) :
    charsFrom state (b :: bytes) = (feed state b).1 ++ charsFrom (feed state b).2 bytes := by
  cases state <;> rfl

theorem toNat_continuation (n : Nat) : (UInt8.ofNat (n % 64 + 128)).toNat = n % 64 + 128 := by
  rw [UInt8.toNat_ofNat']
  omega

theorem feed_last {lower upper value n : Nat} (h : lower ≤ n % 64 + 128 ∧ n % 64 + 128 ≤ upper) :
    feed (some ⟨0, lower, upper, value⟩) (UInt8.ofNat (n % 64 + 128)) =
      ([Char.ofNat (value * 64 + n % 64)], none) := by
  simp only [feed, toNat_continuation, h, and_self, if_true, Nat.add_sub_cancel]

theorem feed_more {owed lower upper value n : Nat}
    (h : lower ≤ n % 64 + 128 ∧ n % 64 + 128 ≤ upper) :
    feed (some ⟨owed + 1, lower, upper, value⟩) (UInt8.ofNat (n % 64 + 128)) =
      ([], some ⟨owed, 0x80, 0xbf, value * 64 + n % 64⟩) := by
  simp only [feed, toNat_continuation, h, and_self, if_true, Nat.add_sub_cancel]

theorem lead_two {b : UInt8} (h : 0xc2 ≤ b.toNat ∧ b.toNat < 0xe0) :
    lead b = ([], some ⟨0, 0x80, 0xbf, b.toNat - 0xc0⟩) := by
  rw [lead, if_neg (by omega), if_pos h]

theorem lead_three {b : UInt8} (h : 0xe0 ≤ b.toNat ∧ b.toNat < 0xf0) :
    lead b = ([], some ⟨1, if b.toNat = 0xe0 then 0xa0 else 0x80,
      if b.toNat = 0xed then 0x9f else 0xbf, b.toNat - 0xe0⟩) := by
  rw [lead, if_neg (by omega), if_neg (by omega), if_pos h]

theorem lead_four {b : UInt8} (h : 0xf0 ≤ b.toNat ∧ b.toNat < 0xf5) :
    lead b = ([], some ⟨2, if b.toNat = 0xf0 then 0x90 else 0x80,
      if b.toNat = 0xf4 then 0x8f else 0xbf, b.toNat - 0xf0⟩) := by
  rw [lead, if_neg (by omega), if_neg (by omega), if_neg (by omega), if_pos h]

theorem charsFrom_utf8EncodeChar_append (ch : Char) (bytes : List UInt8) :
    charsFrom none (String.utf8EncodeChar ch ++ bytes) = ch :: charsFrom none bytes := by
  have hvalid := toNat_char ch
  have hval : ch.val.toNat = ch.toNat := rfl
  rw [String.utf8EncodeChar]
  simp only [hval]
  split_ifs with hone htwo hthree
  · have hb : (UInt8.ofNat ch.toNat).toNat = ch.toNat := by
      rw [UInt8.toNat_ofNat']; omega
    rw [List.singleton_append, charsFrom_cons, feed, lead, hb, if_pos (by omega), Char.ofNat_toNat]
    rfl
  · have hb : (UInt8.ofNat (ch.toNat / 64 % 32 + 192)).toNat = ch.toNat / 64 + 192 := by
      rw [UInt8.toNat_ofNat']; omega
    have hvalue : (ch.toNat / 64 + 192 - 192) * 64 + ch.toNat % 64 = ch.toNat := by omega
    rw [List.cons_append, List.singleton_append, charsFrom_cons, feed, lead_two (by omega),
      charsFrom_cons, feed_last (by omega), hb, hvalue, Char.ofNat_toNat]
    rfl
  · have hb : (UInt8.ofNat (ch.toNat / 4096 % 16 + 224)).toNat = ch.toNat / 4096 + 224 := by
      rw [UInt8.toNat_ofNat']; omega
    have hvalue : ((ch.toNat / 4096 + 224 - 224) * 64 + ch.toNat / 64 % 64) * 64 +
        ch.toNat % 64 = ch.toNat := by
      omega
    rw [List.cons_append, List.cons_append, List.singleton_append, charsFrom_cons, feed,
      lead_three (by omega), charsFrom_cons, feed_more (by split_ifs <;> omega), charsFrom_cons,
      feed_last (by omega), hb, hvalue, Char.ofNat_toNat]
    rfl
  · have hb : (UInt8.ofNat (ch.toNat / 262144 % 8 + 240)).toNat = ch.toNat / 262144 + 240 := by
      rw [UInt8.toNat_ofNat']; omega
    have hvalue : (((ch.toNat / 262144 + 240 - 240) * 64 + ch.toNat / 4096 % 64) * 64 +
        ch.toNat / 64 % 64) * 64 + ch.toNat % 64 = ch.toNat := by
      omega
    rw [List.cons_append, List.cons_append, List.cons_append, List.singleton_append,
      charsFrom_cons, feed, lead_four (by omega), charsFrom_cons,
      feed_more (by split_ifs <;> omega), charsFrom_cons, feed_more (by omega), charsFrom_cons,
      feed_last (by omega), hb, hvalue, Char.ofNat_toNat]
    rfl

theorem charsFrom_utf8 (text : List Char) :
    charsFrom none (text.flatMap String.utf8EncodeChar) = text := by
  induction text with
  | nil => rfl
  | cons ch text ih => rw [List.flatMap_cons, charsFrom_utf8EncodeChar_append, ih]

/-- Conversion to bytes and back replaces the lone surrogates and nothing else. -/
theorem ofUtf8_toUtf8 (text : List UInt16) : ofUtf8 (toUtf8 text) = encode (decode text) := by
  rw [ofUtf8, toUtf8, charsFrom_utf8]

end SmsNotification.UnicodeText
