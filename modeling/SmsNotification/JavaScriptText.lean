import Mathlib.Algebra.Order.Floor.Ring
import Mathlib.Data.Int.Log
import Mathlib.Data.List.TakeWhile
import Mathlib.Data.Nat.Digits.Defs
import Mathlib.Data.Rat.Floor
import Mathlib.Tactic.Linarith
import Mathlib.Tactic.NormNum
import Mathlib.Tactic.Positivity
import SmsNotification.SmsProcessor

namespace SmsNotification.JavaScriptText

open SmsNotification.SmsProcessor (isTrimmed)

abbrev Text := List Char

/-- `trim`. -/
def trim (text : Text) : Text :=
  ((text.dropWhile isTrimmed).reverse.dropWhile isTrimmed).reverse

theorem trim_eq_self {text : Text} (h : ∀ ch ∈ text, isTrimmed ch = false) : trim text = text := by
  have hnone : ∀ {text : Text}, (∀ ch ∈ text, isTrimmed ch = false) →
      text.dropWhile isTrimmed = text := by
    intro text h
    cases text with
    | nil => rfl
    | cons ch rest => rw [List.dropWhile_cons_of_neg (by simp [h ch List.mem_cons_self])]
  rw [trim, hnone h, hnone fun ch hch => h ch (List.mem_reverse.mp hch), List.reverse_reverse]

theorem eq_of_toLower {ch target : Char} (h : ch.toLower = target) :
    ch = target ∨ 'A'.val ≤ ch.val ∧ ch.val = target.val - 32 := by
  unfold Char.toLower at h
  split at h
  · rename_i hupper
    have hval : ch.val + 32 = target.val := congrArg Char.val h
    exact Or.inr ⟨hupper.1, by rw [← hval, UInt32.add_sub_cancel]⟩
  · exact Or.inl h

theorem mem_of_mem_intercalate {α : Type} {sep a : α} {pieces : List (List α)}
    (h : a ∈ [sep].intercalate pieces) : a = sep ∨ ∃ piece ∈ pieces, a ∈ piece := by
  induction pieces with
  | nil => simp at h
  | cons piece pieces ih =>
      cases pieces with
      | nil =>
          rw [List.intercalate_singleton] at h
          exact Or.inr ⟨piece, List.mem_cons_self, h⟩
      | cons next pieces =>
          rw [List.intercalate_cons_cons, List.append_assoc, List.singleton_append,
            List.mem_append, List.mem_cons] at h
          obtain h | h | h := h
          · exact Or.inr ⟨piece, List.mem_cons_self, h⟩
          · exact Or.inl h
          · refine (ih h).imp_right fun ⟨other, hother, hmem⟩ => ⟨other, ?_, hmem⟩
            exact List.mem_cons_of_mem _ hother

theorem intercalate_eq_nil {α : Type} {sep : α} {pieces : List (List α)}
    (hne : ∀ piece ∈ pieces, piece ≠ []) (h : [sep].intercalate pieces = []) : pieces = [] := by
  cases pieces with
  | nil => rfl
  | cons piece pieces =>
      have hpiece := hne piece List.mem_cons_self
      cases pieces with
      | nil => simp [hpiece] at h
      | cons next pieces => simp [List.intercalate_cons_cons, hpiece] at h

section Split

variable {α : Type} [DecidableEq α] {sep : α} {acc xs ys : List α}

/-- The pieces of a list between doubled separators; `acc` is what has been read of the
first one, backwards. -/
def splitOnDoubleFrom (sep : α) : List α → List α → List (List α)
  | acc, [] => [acc.reverse]
  | acc, [a] => [(a :: acc).reverse]
  | acc, a :: b :: rest =>
      if a = sep ∧ b = sep then acc.reverse :: splitOnDoubleFrom sep [] rest
      else splitOnDoubleFrom sep (a :: acc) (b :: rest)

def splitOnDouble (sep : α) (xs : List α) : List (List α) :=
  splitOnDoubleFrom sep [] xs

/-- No separator follows another one. -/
def Undoubled (sep : α) (xs : List α) : Prop :=
  xs.IsChain fun a b => ¬(a = sep ∧ b = sep)

theorem splitOnDoubleFrom_ne_nil (sep : α) (acc xs : List α) :
    splitOnDoubleFrom sep acc xs ≠ [] := by
  fun_induction splitOnDoubleFrom sep acc xs <;> simp_all

theorem intercalate_splitOnDoubleFrom (sep : α) (acc xs : List α) :
    [sep, sep].intercalate (splitOnDoubleFrom sep acc xs) = acc.reverse ++ xs := by
  fun_induction splitOnDoubleFrom sep acc xs with
  | case1 acc => simp
  | case2 acc a => simp
  | case3 acc a b rest hsep ih =>
      obtain ⟨rfl, rfl⟩ := hsep
      rw [List.intercalate_cons_of_ne_nil (splitOnDoubleFrom_ne_nil _ _ _), ih]
      simp
  | case4 acc a b rest hsep ih => simpa using ih

theorem intercalate_splitOnDouble (sep : α) (xs : List α) :
    [sep, sep].intercalate (splitOnDouble sep xs) = xs :=
  intercalate_splitOnDoubleFrom sep [] xs

theorem splitOnDoubleFrom_of_undoubled (h : Undoubled sep xs) :
    splitOnDoubleFrom sep acc xs = [acc.reverse ++ xs] := by
  fun_induction splitOnDoubleFrom sep acc xs with
  | case1 acc => simp
  | case2 acc a => simp
  | case3 acc a b rest hsep ih => exact absurd hsep (List.isChain_cons_cons.mp h).1
  | case4 acc a b rest hsep ih =>
      rw [ih (List.isChain_cons_cons.mp h).2]
      simp

theorem splitOnDouble_of_undoubled (h : Undoubled sep xs) : splitOnDouble sep xs = [xs] :=
  splitOnDoubleFrom_of_undoubled h

theorem splitOnDoubleFrom_append (h : Undoubled sep xs) (hlast : sep ∉ xs.getLast?) :
    splitOnDoubleFrom sep acc (xs ++ sep :: sep :: ys) =
      (acc.reverse ++ xs) :: splitOnDouble sep ys := by
  induction xs generalizing acc with
  | nil => simp [splitOnDoubleFrom, splitOnDouble]
  | cons a xs ih =>
      cases xs with
      | nil =>
          have ha : a ≠ sep := fun heq => hlast (by simp [heq])
          simp [splitOnDoubleFrom, splitOnDouble, ha]
      | cons b xs =>
          have hsep := List.isChain_cons_cons.mp h
          rw [List.cons_append, List.cons_append, splitOnDoubleFrom, if_neg hsep.1,
            ← List.cons_append, ih hsep.2 (by simpa using hlast)]
          simp

theorem splitOnDouble_append (h : Undoubled sep xs) (hlast : sep ∉ xs.getLast?) :
    splitOnDouble sep (xs ++ sep :: sep :: ys) = xs :: splitOnDouble sep ys :=
  splitOnDoubleFrom_append h hlast

omit [DecidableEq α] in
theorem undoubled_of_notMem (h : sep ∉ xs) : Undoubled sep xs := by
  induction xs with
  | nil => exact List.isChain_nil
  | cons a xs ih =>
      refine List.isChain_cons.mpr ⟨fun b _ heq => h (heq.1 ▸ List.mem_cons_self), ih ?_⟩
      exact fun hsep => h (List.mem_cons_of_mem _ hsep)

omit [DecidableEq α] in
theorem undoubled_intercalate {pieces : List (List α)}
    (h : ∀ piece ∈ pieces, piece ≠ [] ∧ sep ∉ piece) :
    Undoubled sep ([sep].intercalate pieces) ∧ sep ∉ ([sep].intercalate pieces).getLast? ∧
      sep ∉ ([sep].intercalate pieces).head? := by
  induction pieces with
  | nil => simp [Undoubled]
  | cons piece pieces ih =>
      obtain ⟨hne, hsep⟩ := h piece List.mem_cons_self
      have hhead : sep ∉ piece.head? := fun hmem => hsep (List.mem_of_mem_head? hmem)
      have hlast : sep ∉ piece.getLast? := fun hmem => hsep (List.mem_of_mem_getLast? hmem)
      cases pieces with
      | nil =>
          rw [List.intercalate_singleton]
          exact ⟨undoubled_of_notMem hsep, hlast, hhead⟩
      | cons next pieces =>
          obtain ⟨hchain, hrestLast, hrestHead⟩ :=
            ih fun piece hpiece => h piece (List.mem_cons_of_mem _ hpiece)
          have hnonempty : [sep].intercalate (next :: pieces) ≠ [] := fun hnil =>
            List.cons_ne_nil _ _ (intercalate_eq_nil
              (fun piece hpiece => (h piece (List.mem_cons_of_mem _ hpiece)).1) hnil)
          rw [List.intercalate_cons_cons, List.append_assoc, List.singleton_append]
          refine ⟨List.isChain_append.mpr ⟨undoubled_of_notMem hsep, ?_, ?_⟩, ?_, ?_⟩
          · exact List.isChain_cons.mpr ⟨fun b hb heq => hrestHead (heq.2 ▸ hb), hchain⟩
          · exact fun a ha b _ heq => hlast (heq.1 ▸ ha)
          · rwa [List.getLast?_append_of_ne_nil _ (List.cons_ne_nil _ _),
              List.getLast?_cons_of_ne_nil hnonempty]
          · rwa [List.head?_append_of_ne_nil _ hne]

end Split

def isHexDigit (ch : Char) : Bool :=
  ch.isDigit || ('a' ≤ ch && ch ≤ 'f') || ('A' ≤ ch && ch ≤ 'F')

def digitValue (ch : Char) : Nat :=
  if ch.isDigit then ch.toNat - '0'.toNat
  else if 'a' ≤ ch && ch ≤ 'f' then ch.toNat - 'a'.toNat + 10
  else ch.toNat - 'A'.toNat + 10

/-- The number that digits stand for, the most significant one first. -/
def digitsValue (radix : Nat) (digits : Text) : Nat :=
  digits.foldl (fun value ch => value * radix + digitValue ch) 0

theorem isHexDigit_of_isDigit {ch : Char} (h : ch.isDigit) : isHexDigit ch := by
  simp [isHexDigit, h]

theorem digitValue_lt_ten {ch : Char} (h : ch.isDigit) : digitValue ch < 10 := by
  rw [digitValue, if_pos h]
  simp only [Char.isDigit, Bool.and_eq_true, decide_eq_true_eq, ge_iff_le,
    UInt32.le_iff_toNat_le] at h
  have htop : ch.toNat ≤ 57 := h.2
  change ch.toNat - 48 < 10
  omega

theorem digitValue_lt_sixteen {ch : Char} (h : isHexDigit ch) : digitValue ch < 16 := by
  by_cases hdigit : ch.isDigit
  · exact (digitValue_lt_ten hdigit).trans (by decide)
  · rw [digitValue, if_neg hdigit]
    simp only [isHexDigit, hdigit, Bool.false_or, Bool.or_eq_true, Bool.and_eq_true,
      decide_eq_true_eq, Char.le_def, UInt32.le_iff_toNat_le] at h
    have hlower : 'a'.val.toNat = 97 ∧ 'f'.val.toNat = 102 := by decide
    have hupper : 'A'.val.toNat = 65 ∧ 'F'.val.toNat = 70 := by decide
    split
    · rename_i hletter
      simp only [Bool.and_eq_true, decide_eq_true_eq, Char.le_def,
        UInt32.le_iff_toNat_le] at hletter
      change ch.val.toNat - 97 + 10 < 16
      omega
    · rename_i hletter
      simp only [Bool.and_eq_true, decide_eq_true_eq, Char.le_def,
        UInt32.le_iff_toNat_le] at hletter
      change ch.val.toNat - 65 + 10 < 16
      omega

theorem digitsValue_concat (radix : Nat) (digits : Text) (ch : Char) :
    digitsValue radix (digits ++ [ch]) = digitsValue radix digits * radix + digitValue ch := by
  simp [digitsValue]

theorem digitsValue_cons (radix : Nat) (ch : Char) (digits : Text) :
    digitsValue radix (ch :: digits) =
      digitValue ch * radix ^ digits.length + digitsValue radix digits := by
  induction digits using List.reverseRecOn with
  | nil => simp [digitsValue]
  | append_singleton digits last ih =>
      rw [← List.cons_append, digitsValue_concat, ih, digitsValue_concat, List.length_append,
        List.length_singleton, pow_succ]
      ring

theorem digitValue_pos {ch : Char} (h : ch.isDigit) (hzero : ch ≠ '0') : 0 < digitValue ch := by
  have hbottom : '0'.val.toNat = 48 := by decide
  rw [digitValue, if_pos h]
  simp only [Char.isDigit, Bool.and_eq_true, decide_eq_true_eq, ge_iff_le,
    UInt32.le_iff_toNat_le] at h
  have hne : ch.val.toNat ≠ 48 := fun heq =>
    hzero (Char.ext (UInt32.toNat_inj.mp (heq.trans hbottom.symm)))
  change 0 < ch.val.toNat - 48
  omega

theorem digitsValue_lt_pow {radix : Nat} {digits : Text}
    (h : ∀ ch ∈ digits, digitValue ch < radix) :
    digitsValue radix digits < radix ^ digits.length := by
  induction digits using List.reverseRecOn with
  | nil => simp [digitsValue]
  | append_singleton digits ch ih =>
      have hdigits := ih fun d hd => h d (by simp [hd])
      have hch := h ch (by simp)
      rw [digitsValue_concat, List.length_append, List.length_singleton, pow_succ]
      calc digitsValue radix digits * radix + digitValue ch
          < digitsValue radix digits * radix + radix := by omega
        _ = (digitsValue radix digits + 1) * radix := by ring
        _ ≤ radix ^ digits.length * radix := Nat.mul_le_mul_right _ hdigits

/-- The integer nearest to a rational, an even one where two are. -/
def roundHalfEven (x : ℚ) : ℤ :=
  if Int.fract x < 1 / 2 then ⌊x⌋
  else if 1 / 2 < Int.fract x then ⌊x⌋ + 1
  else if ⌊x⌋ % 2 = 0 then ⌊x⌋
  else ⌊x⌋ + 1

/-- The place of the last binary digit of the double that a rational is rounded to. -/
def unitOf (q : ℚ) : ℚ :=
  2 ^ (max (Int.log 2 |q|) (-1022) - 52)

/-- The double that a rational is rounded to, if that is a finite one. The two zeros
count as one number. -/
def double? (q : ℚ) : Option ℚ :=
  if q = 0 then some 0
  else
    let rounded := unitOf q * roundHalfEven (q / unitOf q)
    if |rounded| < 2 ^ 1024 then some rounded else none

theorem roundHalfEven_intCast (n : ℤ) : roundHalfEven n = n := by
  simp [roundHalfEven]

theorem floor_le_roundHalfEven (x : ℚ) : ⌊x⌋ ≤ roundHalfEven x := by
  unfold roundHalfEven
  split
  · exact le_rfl
  split
  · omega
  split <;> omega

theorem double?_natCast {n : Nat} (h : n < 2 ^ 53) : double? n = some (n : ℚ) := by
  by_cases hn : n = 0
  · simp [double?, hn]
  have hlog : Nat.log 2 n ≤ 52 := Nat.lt_succ_iff.mp (Nat.log_lt_of_lt_pow hn h)
  have hunit : unitOf n = 2 ^ (-((52 - Nat.log 2 n : Nat) : ℤ)) := by
    rw [unitOf, Nat.abs_cast, Int.log_natCast, max_eq_left (by omega)]
    congr 1
    omega
  have hquotient : (n : ℚ) / unitOf n = ((n * 2 ^ (52 - Nat.log 2 n) : ℤ) : ℚ) := by
    rw [hunit, zpow_neg, div_inv_eq_mul]
    push_cast
    rw [zpow_natCast]
  have hunit_ne : unitOf n ≠ 0 := by
    rw [hunit]
    exact zpow_ne_zero _ two_ne_zero
  have hrounded : unitOf n * roundHalfEven (n / unitOf n) = n := by
    rw [hquotient, roundHalfEven_intCast, ← hquotient]
    exact mul_div_cancel₀ _ hunit_ne
  have hbound : |(n : ℚ)| < 2 ^ 1024 := by
    have hlt : (n : ℚ) < 2 ^ 53 := by exact_mod_cast h
    rw [Nat.abs_cast]
    exact hlt.trans_le (pow_le_pow_right₀ one_le_two (by decide))
  simp only [double?, hrounded, Nat.cast_eq_zero, hn, if_false, if_pos hbound]

theorem le_of_double?_natCast {n : Nat} {q : ℚ} (hn : 2 ^ 53 ≤ n) (h : double? n = some q) :
    2 ^ 52 ≤ q := by
  have hne : n ≠ 0 := by
    rintro rfl
    simp at hn
  have hlog : 53 ≤ Nat.log 2 n := Nat.le_log_of_pow_le one_lt_two hn
  have hunit : unitOf n = 2 ^ (Nat.log 2 n - 52) := by
    rw [unitOf, Nat.abs_cast, Int.log_natCast, max_eq_left (by omega), ← zpow_natCast]
    congr 1
    omega
  have hone : (1 : ℚ) ≤ unitOf n := by
    rw [hunit]
    exact one_le_pow₀ one_le_two
  have hquotient : (2 : ℚ) ^ 52 ≤ n / unitOf n := by
    rw [le_div_iff₀ (by linarith), hunit, ← pow_add, Nat.add_sub_cancel' (by omega)]
    exact_mod_cast Nat.pow_log_le_self 2 hne
  have hrounded : (2 : ℤ) ^ 52 ≤ roundHalfEven (n / unitOf n) :=
    (Int.le_floor.mpr (by exact_mod_cast hquotient)).trans (floor_le_roundHalfEven _)
  simp only [double?, Nat.cast_eq_zero, hne, if_false] at h
  split at h
  · obtain rfl := Option.some.inj h
    calc (2 : ℚ) ^ 52 = 1 * 2 ^ 52 := (one_mul _).symm
      _ ≤ unitOf n * roundHalfEven (n / unitOf n) := by
          refine mul_le_mul hone ?_ (by positivity) (by linarith)
          exact_mod_cast hrounded
  · cases h

/-- The digits of an unsigned exponent, or of a number in another radix. -/
def radixDigits? (radix : Nat) (digits : Text) : Option Nat :=
  if digits ≠ [] ∧ digits.all fun ch => isHexDigit ch && digitValue ch < radix then
    some (digitsValue radix digits)
  else none

/-- The exponent of a decimal literal, if there is one. -/
def exponent? : Text → Option ℤ
  | [] => some 0
  | mark :: rest =>
      if mark ≠ 'e' ∧ mark ≠ 'E' then none
      else if rest.head? = some '-' then (radixDigits? 10 rest.tail).map fun e => -(e : ℤ)
      else if rest.head? = some '+' then (radixDigits? 10 rest.tail).map fun e => (e : ℤ)
      else (radixDigits? 10 rest).map fun e => (e : ℤ)

/-- The value of an unsigned decimal literal. -/
def decimal? (text : Text) : Option ℚ :=
  let whole := text.takeWhile Char.isDigit
  let rest := text.dropWhile Char.isDigit
  let fraction := if rest.head? = some '.' then rest.tail.takeWhile Char.isDigit else []
  let rest := if rest.head? = some '.' then rest.tail.dropWhile Char.isDigit else rest
  if whole = [] ∧ fraction = [] then none
  else (exponent? rest).map fun e =>
    (digitsValue 10 (whole ++ fraction) : ℚ) * 10 ^ (e - (fraction.length : ℤ))

/-- `Number` of a text, where that is a finite number. -/
def number? (text : Text) : Option ℚ :=
  let literal := trim text
  if literal = [] then some 0
  else if literal.take 2 = ['0', 'x'] ∨ literal.take 2 = ['0', 'X'] then
    (radixDigits? 16 (literal.drop 2)).bind fun n => double? n
  else if literal.take 2 = ['0', 'o'] ∨ literal.take 2 = ['0', 'O'] then
    (radixDigits? 8 (literal.drop 2)).bind fun n => double? n
  else if literal.take 2 = ['0', 'b'] ∨ literal.take 2 = ['0', 'B'] then
    (radixDigits? 2 (literal.drop 2)).bind fun n => double? n
  else if literal.head? = some '-' then (decimal? literal.tail).bind fun q => double? (-q)
  else if literal.head? = some '+' then (decimal? literal.tail).bind double?
  else (decimal? literal).bind double?

/-- `parseInt` of a text in the radix 16, where that is a number. -/
def parseHex? (text : Text) : Option ℚ :=
  let literal := text.dropWhile isTrimmed
  let unsigned :=
    if literal.head? = some '-' ∨ literal.head? = some '+' then literal.tail else literal
  let digits := (if unsigned.take 2 = ['0', 'x'] ∨ unsigned.take 2 = ['0', 'X'] then
    unsigned.drop 2 else unsigned).takeWhile isHexDigit
  if digits = [] then none
  else if literal.head? = some '-' then double? (-digitsValue 16 digits)
  else double? (digitsValue 16 digits)

/-- `BigInt` of a number. Only an integer has one, and anything else throws. -/
def bigInt? (number : Option ℚ) : Option ℤ :=
  (number.filter fun q => q.den = 1).map Rat.num

section Digits

variable {digits rest : Text}

theorem toNat_le_of_isHexDigit {ch : Char} (h : isHexDigit ch) : ch.val.toNat ≤ 102 := by
  have htop : '9'.val.toNat = 57 ∧ 'f'.val.toNat = 102 ∧ 'F'.val.toNat = 70 := by decide
  simp only [isHexDigit, Char.isDigit, Bool.or_eq_true, Bool.and_eq_true, decide_eq_true_eq,
    ge_iff_le, Char.le_def, UInt32.le_iff_toNat_le] at h
  omega

theorem not_trimmed_of_isHexDigit {ch : Char} (h : isHexDigit ch) : isTrimmed ch = false := by
  have hrange : ¬('\u2000' ≤ ch) := by
    have hbottom : '\u2000'.val.toNat = 8192 := by decide
    have htop := toNat_le_of_isHexDigit h
    rw [Char.le_def, UInt32.le_iff_toNat_le, hbottom]
    omega
  have hspaces : ['\t', '\n', '\x0b', '\x0c', '\r', ' ', '\u00a0', '\u1680', '\u2028', '\u2029',
      '\u202f', '\u205f', '\u3000', '\ufeff'].all (fun space => !isHexDigit space) = true := by
    decide
  rw [isTrimmed, Bool.or_eq_false_iff]
  refine ⟨Bool.eq_false_iff.mpr fun hcontains => ?_, by simp [hrange]⟩
  have hspace := List.all_eq_true.mp hspaces ch (List.contains_iff_mem.mp hcontains)
  rw [h] at hspace
  cases hspace

/-- A run of decimal digits is read as the number that it stands for. -/
theorem number?_digits (hne : digits ≠ []) (h : ∀ ch ∈ digits, ch.isDigit) :
    number? digits = double? (digitsValue 10 digits) := by
  have hnot : ∀ {ch : Char}, ch.isDigit = false → ch ∉ digits := by
    intro ch hch hmem
    rw [h ch hmem] at hch
    cases hch
  have hmark : ∀ zero mark : Char, mark.isDigit = false → digits.take 2 ≠ [zero, mark] := by
    intro zero mark hch heq
    have hmem : mark ∈ digits.take 2 := by simp [heq]
    exact hnot hch (List.mem_of_mem_take hmem)
  have hsign : ∀ sign : Char, sign.isDigit = false → digits.head? ≠ some sign :=
    fun sign hch heq => hnot hch (List.mem_of_mem_head? heq)
  have hdecimal : decimal? digits = some (digitsValue 10 digits : ℚ) := by
    have hwhole : digits.takeWhile Char.isDigit = digits := List.takeWhile_eq_self_iff.mpr h
    have hrest : digits.dropWhile Char.isDigit = [] := List.dropWhile_eq_nil_iff.mpr h
    simp [decimal?, hwhole, hrest, hne, exponent?]
  have htrim : trim digits = digits := trim_eq_self fun ch hch =>
    not_trimmed_of_isHexDigit (isHexDigit_of_isDigit (h ch hch))
  simp only [number?, htrim, hne, if_false, hmark _ 'x' (by decide), hmark _ 'X' (by decide),
    hmark _ 'o' (by decide), hmark _ 'O' (by decide), hmark _ 'b' (by decide),
    hmark _ 'B' (by decide), hsign '-' (by decide), hsign '+' (by decide), or_self, hdecimal,
    Option.bind_some]

theorem parseHex?_append (hne : digits ≠ []) (h : ∀ ch ∈ digits, isHexDigit ch)
    (hlength : digits.length ≤ 4) (hrest : ∀ ch ∈ rest.head?, isHexDigit ch = false)
    (hmark : 'x' ∉ rest.head? ∧ 'X' ∉ rest.head?) :
    parseHex? (digits ++ rest) = some (digitsValue 16 digits : ℚ) := by
  obtain ⟨first, others, rfl⟩ := List.exists_cons_of_ne_nil hne
  have hfirst := h first List.mem_cons_self
  have hdigit : ∀ {ch : Char}, isHexDigit ch = false → ch ∉ first :: others := by
    intro ch hch hmem
    rw [h ch hmem] at hch
    cases hch
  have hspace : (first :: others ++ rest).dropWhile isTrimmed = first :: others ++ rest := by
    rw [List.cons_append, List.dropWhile_cons_of_neg (by simp [not_trimmed_of_isHexDigit hfirst])]
  have hsign : ∀ sign : Char, isHexDigit sign = false →
      (first :: others ++ rest).head? ≠ some sign := by
    intro sign hch heq
    obtain rfl : first = sign := Option.some.inj heq
    exact hdigit hch List.mem_cons_self
  have hprefix : ∀ zero mark : Char, isHexDigit mark = false → mark ∉ rest.head? →
      (first :: others ++ rest).take 2 ≠ [zero, mark] := by
    intro zero mark hch hhead heq
    cases others with
    | nil =>
        cases rest with
        | nil => simp at heq
        | cons next rest => simp_all
    | cons second others =>
        obtain rfl : second = mark := by simp_all
        exact hdigit hch (by simp)
  have hrun : (first :: others ++ rest).takeWhile isHexDigit = first :: others := by
    rw [List.takeWhile_append_of_pos h]
    cases rest with
    | nil => simp
    | cons next rest =>
        rw [List.takeWhile_cons_of_neg (by simp [hrest next rfl]), List.append_nil]
  have hvalue : digitsValue 16 (first :: others) < 2 ^ 53 := by
    calc digitsValue 16 (first :: others) < 16 ^ (first :: others).length :=
          digitsValue_lt_pow fun ch hch => digitValue_lt_sixteen (h ch hch)
      _ ≤ 16 ^ 4 := Nat.pow_le_pow_right (by decide) hlength
      _ < 2 ^ 53 := by decide
  simp only [parseHex?, hspace, hsign '-' (by decide), hsign '+' (by decide), or_self, if_false,
    hprefix _ 'x' (by decide) hmark.1, hprefix _ 'X' (by decide) hmark.2, hrun,
    List.cons_ne_nil]
  exact double?_natCast hvalue

end Digits

theorem bigInt?_natCast (n : Nat) : bigInt? (some (n : ℚ)) = some (n : ℤ) := by
  simp [bigInt?]

end SmsNotification.JavaScriptText
