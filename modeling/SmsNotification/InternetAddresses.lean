import Mathlib.Data.Nat.Digits.Lemmas
import SmsNotification.JavaScriptText

namespace SmsNotification.InternetAddresses

open SmsNotification.JavaScriptText

inductive IpVersion where
  | ipv4
  | ipv6
  deriving DecidableEq, Repr

/-- The number of bits of an address. -/
def IpVersion.width : IpVersion → Nat
  | ipv4 => 32
  | ipv6 => 128

/-- A number from 0 to 255 without a leading zero. -/
def isOctet (text : Text) : Bool :=
  text ≠ [] && text.all Char.isDigit && (text.length = 1 || text.head? ≠ some '0') &&
    digitsValue 10 text ≤ 255

def isIPv4 (text : Text) : Bool :=
  (text.splitOn '.').length = 4 && (text.splitOn '.').all isOctet

/-- One to four hexadecimal digits. -/
def isHexGroup (text : Text) : Bool :=
  text ≠ [] && text.length ≤ 4 && text.all isHexDigit

/-- The number of groups that a part of an address stands for. Where it may, it ends
with an address of version 4 in place of two groups. -/
def countGroups (mayBeDotted : Bool) (part : Text) : Option Nat :=
  if part = [] then some 0
  else if (part.splitOn ':').all isHexGroup then some (part.splitOn ':').length
  else if mayBeDotted && (part.splitOn ':').dropLast.all isHexGroup &&
      (part.splitOn ':').getLast?.any isIPv4 then
    some ((part.splitOn ':').length + 1)
  else none

/-- Eight groups, or less than eight around a `::`. -/
def isIPv6Body (text : Text) : Bool :=
  match splitOnDouble ':' text with
  | [whole] => countGroups true whole = some 8
  | [head, tail] =>
      (countGroups false head).any fun h => (countGroups true tail).any fun t => h + t ≤ 7
  | _ => false

def isZone (zone : Text) : Bool :=
  zone ≠ [] && zone.all fun ch => ch.isAlphanum || ch = '-' || ch = '.' || ch = ':'

def isIPv6 (text : Text) : Bool :=
  match text.splitOn '%' with
  | [body] => isIPv6Body body
  | [body, zone] => isIPv6Body body && isZone zone
  | _ => false

/-- `isIP`, where none stands for 0. -/
def isIP (text : Text) : Option IpVersion :=
  if isIPv4 text then some .ipv4 else if isIPv6 text then some .ipv6 else none

abbrev Octet :=
  { text : Text // isOctet text }

abbrev Group :=
  { text : Text // isHexGroup text }

def Octet.value (octet : Octet) : Nat :=
  digitsValue 10 octet.1

def Group.value (group : Group) : Nat :=
  digitsValue 16 group.1

/-- A spelling of an address of version 4. -/
structure Dotted where
  octets : List Octet
  length : octets.length = 4

def Dotted.text (dotted : Dotted) : Text :=
  ['.'].intercalate (dotted.octets.map Subtype.val)

/-- The number of digits in some base that follow the ones that `start` is the number of. -/
def valueFrom (base start : Nat) (digits : List Nat) : Nat :=
  digits.foldl (fun value digit => value * base + digit) start

/-- The number that an address is, from its digits in some base. -/
def valueOf (base : Nat) (digits : List Nat) : Nat :=
  valueFrom base 0 digits

def Dotted.value (dotted : Dotted) : Nat :=
  valueOf 256 (dotted.octets.map Octet.value)

/-- The two groups that an address of version 4 stands for. -/
def Dotted.groups (dotted : Dotted) : List Nat :=
  [dotted.value / 65536, dotted.value % 65536]

/-- A spelling of an address of version 6 whose last two groups are spelled as `dotted`
does, if that is there. -/
inductive Spelling (dotted : Option Dotted) where
  | full (groups : List Group) (h : groups.length + 2 * dotted.toList.length = 8)
  | compressed (head tail : List Group)
      (h : head.length + tail.length + 2 * dotted.toList.length ≤ 7)

/-- The texts between the colons at the end of a spelling. -/
def pieces (groups : List Group) (dotted : Option Dotted) : List Text :=
  groups.map Subtype.val ++ dotted.toList.map Dotted.text

namespace Spelling

variable {dotted : Option Dotted}

def text : Spelling dotted → Text
  | full groups _ => [':'].intercalate (pieces groups dotted)
  | compressed head tail _ =>
      [':'].intercalate (pieces head none) ++ ':' :: ':' :: [':'].intercalate (pieces tail dotted)

/-- The eight groups of the address. -/
def groups : Spelling dotted → List Nat
  | full groups _ => groups.map Group.value ++ dotted.toList.flatMap Dotted.groups
  | compressed head tail _ =>
      head.map Group.value ++
        List.replicate (8 - (head.length + tail.length + 2 * dotted.toList.length)) 0 ++
        tail.map Group.value ++ dotted.toList.flatMap Dotted.groups

def value (spelling : Spelling dotted) : Nat :=
  valueOf 65536 spelling.groups

end Spelling

/-- A text with a zone behind it, if there is one. -/
def withZone (body : Text) (zone : Option Text) : Text :=
  body ++ zone.elim [] ('%' :: ·)

abbrev Zone :=
  { zone : Text // isZone zone }

section Numbers

variable {base : Nat} {digits digits' : List Nat}

theorem valueOf_eq_ofDigits (base : Nat) (digits : List Nat) :
    valueOf base digits = Nat.ofDigits base digits.reverse := by
  induction digits using List.reverseRecOn with
  | nil => rfl
  | append_singleton digits digit ih =>
      rw [List.reverse_concat, Nat.ofDigits_cons, ← ih]
      simp only [valueOf, valueFrom, List.foldl_append, List.foldl_cons, List.foldl_nil]
      rw [Nat.mul_comm, Nat.add_comm]

theorem valueOf_lt (h : ∀ digit ∈ digits, digit < base) (hbase : 1 < base) :
    valueOf base digits < base ^ digits.length := by
  rw [valueOf_eq_ofDigits, ← List.length_reverse]
  exact Nat.ofDigits_lt_base_pow_length hbase fun digit hdigit =>
    h digit (List.mem_reverse.mp hdigit)

theorem valueOf_inj (hbase : 1 < base) (hlength : digits.length = digits'.length)
    (h : ∀ digit ∈ digits, digit < base) (h' : ∀ digit ∈ digits', digit < base) :
    valueOf base digits = valueOf base digits' ↔ digits = digits' := by
  refine ⟨fun heq => ?_, fun heq => heq ▸ rfl⟩
  rw [valueOf_eq_ofDigits, valueOf_eq_ofDigits] at heq
  refine List.reverse_injective (Nat.ofDigits_inj_of_len_eq hbase ?_ ?_ ?_ heq)
  · rw [List.length_reverse, List.length_reverse, hlength]
  · exact fun digit hdigit => h digit (List.mem_reverse.mp hdigit)
  · exact fun digit hdigit => h' digit (List.mem_reverse.mp hdigit)

end Numbers

section Texts

theorem isOctet_zero : isOctet ['0'] = true :=
  rfl

theorem octet_ne_nil (octet : Octet) : octet.1 ≠ [] := by
  have h := octet.2
  simp only [isOctet, Bool.and_eq_true, decide_eq_true_eq] at h
  exact h.1.1.1

theorem isDigit_of_octet {octet : Octet} {ch : Char} (h : ch ∈ octet.1) : ch.isDigit := by
  have hoctet := octet.2
  simp only [isOctet, Bool.and_eq_true, List.all_eq_true] at hoctet
  exact hoctet.1.1.2 ch h

theorem octet_value_le (octet : Octet) : octet.value ≤ 255 := by
  have h := octet.2
  simp only [isOctet, Bool.and_eq_true, decide_eq_true_eq] at h
  exact h.2

theorem octet_length_le (octet : Octet) : octet.1.length ≤ 3 := by
  have hoctet := octet.2
  simp only [isOctet, Bool.and_eq_true, Bool.or_eq_true, decide_eq_true_eq] at hoctet
  by_contra hlong
  obtain ⟨first, rest, htext⟩ := List.exists_cons_of_ne_nil (octet_ne_nil octet)
  rw [htext, List.length_cons] at hlong
  have hfirst : first ≠ '0' := by
    rcases hoctet.1.2 with hone | hhead
    · rw [htext, List.length_cons] at hone
      omega
    · simpa [htext] using hhead
  have hpos := digitValue_pos (isDigit_of_octet (htext ▸ List.mem_cons_self)) hfirst
  have hvalue : 1000 ≤ octet.value := by
    calc 1000 ≤ 10 ^ rest.length := Nat.pow_le_pow_right (n := 10) (by decide) (by omega : 3 ≤ _)
      _ ≤ digitValue first * 10 ^ rest.length := Nat.le_mul_of_pos_left _ hpos
      _ ≤ octet.value := by
          rw [Octet.value, htext, digitsValue_cons]
          omega
  exact absurd (hvalue.trans (octet_value_le octet)) (by decide)

theorem group_ne_nil (group : Group) : group.1 ≠ [] := by
  have h := group.2
  simp only [isHexGroup, Bool.and_eq_true, decide_eq_true_eq] at h
  exact h.1.1

theorem group_length_le (group : Group) : group.1.length ≤ 4 := by
  have h := group.2
  simp only [isHexGroup, Bool.and_eq_true, decide_eq_true_eq] at h
  exact h.1.2

theorem isHexDigit_of_group {group : Group} {ch : Char} (h : ch ∈ group.1) : isHexDigit ch := by
  have hgroup := group.2
  simp only [isHexGroup, Bool.and_eq_true, List.all_eq_true] at hgroup
  exact hgroup.2 ch h

theorem group_value_lt (group : Group) : group.value < 65536 := by
  calc group.value < 16 ^ group.1.length :=
        digitsValue_lt_pow fun ch hch => digitValue_lt_sixteen (isHexDigit_of_group hch)
    _ ≤ 16 ^ 4 := Nat.pow_le_pow_right (by decide) (group_length_le group)

theorem notMem_octet {octet : Octet} {ch : Char} (h : ch.isDigit = false) : ch ∉ octet.1 := by
  intro hmem
  rw [isDigit_of_octet hmem] at h
  cases h

theorem notMem_group {group : Group} {ch : Char} (h : isHexDigit ch = false) : ch ∉ group.1 := by
  intro hmem
  rw [isHexDigit_of_group hmem] at h
  cases h

variable {dotted : Dotted}

theorem Dotted.ne_nil (dotted : Dotted) : dotted.octets.map Subtype.val ≠ [] := by
  intro h
  have hlength := dotted.length
  rw [List.map_eq_nil_iff.mp h] at hlength
  cases hlength

theorem splitOn_dotted (dotted : Dotted) :
    dotted.text.splitOn '.' = dotted.octets.map Subtype.val := by
  refine List.splitOn_intercalate '.' (fun piece hpiece => ?_) dotted.ne_nil
  obtain ⟨octet, _, rfl⟩ := List.mem_map.mp hpiece
  exact notMem_octet (by decide)

theorem isIPv4_dotted (dotted : Dotted) : isIPv4 dotted.text := by
  simp only [isIPv4, splitOn_dotted, List.length_map, dotted.length, Bool.and_eq_true,
    decide_true, true_and, List.all_eq_true]
  intro piece hpiece
  obtain ⟨octet, _, rfl⟩ := List.mem_map.mp hpiece
  exact octet.2

theorem exists_subtype {p : Text → Bool} {texts : List Text} (h : texts.all p) :
    ∃ checked : List { text : Text // p text }, checked.map Subtype.val = texts := by
  refine ⟨texts.attach.map fun text => ⟨text.1, List.all_eq_true.mp h _ text.2⟩, ?_⟩
  simp

/-- The texts of addresses of version 4 are the dotted spellings. -/
theorem isIPv4_iff {text : Text} : isIPv4 text ↔ ∃ dotted : Dotted, dotted.text = text := by
  constructor
  · intro h
    simp only [isIPv4, Bool.and_eq_true, decide_eq_true_eq] at h
    obtain ⟨octets, hoctets⟩ := exists_subtype h.2
    refine ⟨⟨octets, ?_⟩, ?_⟩
    · rw [← h.1, ← hoctets, List.length_map]
    · rw [Dotted.text, hoctets, List.intercalate_splitOn]
  · rintro ⟨dotted, rfl⟩
    exact isIPv4_dotted dotted

theorem mem_dotted {ch : Char} (h : ch ∈ dotted.text) : ch.isDigit ∨ ch = '.' := by
  obtain rfl | ⟨piece, hpiece, hch⟩ := mem_of_mem_intercalate h
  · exact Or.inr rfl
  · obtain ⟨octet, _, rfl⟩ := List.mem_map.mp hpiece
    exact Or.inl (isDigit_of_octet hch)

theorem exists_dotted_eq (dotted : Dotted) :
    ∃ (first : Octet) (rest : Text), dotted.text = first.1 ++ '.' :: rest ∧
      dotted.octets.head? = some first := by
  obtain ⟨octets, hlength⟩ := dotted
  obtain ⟨first, second, rest, rfl⟩ : ∃ first second rest, octets = first :: second :: rest := by
    rcases octets with _ | ⟨first, _ | ⟨second, rest⟩⟩ <;> simp at hlength ⊢
  refine ⟨first, ['.'].intercalate ((second :: rest).map Subtype.val), ?_, rfl⟩
  simp [Dotted.text, List.intercalate_cons_cons]

theorem not_isHexGroup_dotted (dotted : Dotted) : isHexGroup dotted.text = false := by
  obtain ⟨first, rest, htext, _⟩ := exists_dotted_eq dotted
  have hdot : '.' ∈ dotted.text := by simp [htext]
  refine Bool.eq_false_iff.mpr fun h => ?_
  simp only [isHexGroup, Bool.and_eq_true, List.all_eq_true] at h
  exact absurd (h.2 _ hdot) (by decide)

variable {dotted? : Option Dotted} {groups : List Group}

theorem mem_pieces {piece : Text} (h : piece ∈ pieces groups dotted?) :
    piece ≠ [] ∧ ∀ ch ∈ piece, isHexDigit ch ∨ ch = '.' := by
  rcases List.mem_append.mp h with h | h
  · obtain ⟨group, _, rfl⟩ := List.mem_map.mp h
    exact ⟨group_ne_nil group, fun ch hch => Or.inl (isHexDigit_of_group hch)⟩
  · obtain ⟨dotted, _, rfl⟩ := List.mem_map.mp h
    refine ⟨fun hnil => ?_, fun ch hch => (mem_dotted hch).imp_left isHexDigit_of_isDigit⟩
    obtain ⟨first, rest, htext, _⟩ := exists_dotted_eq dotted
    rw [hnil] at htext
    simp at htext

theorem notMem_pieces {piece : Text} {ch : Char} (hch : isHexDigit ch = false) (hdot : ch ≠ '.')
    (h : piece ∈ pieces groups dotted?) : ch ∉ piece := by
  intro hmem
  obtain hhex | heq := (mem_pieces h).2 ch hmem
  · rw [hhex] at hch
    cases hch
  · exact hdot heq

theorem colon_notMem_pieces {piece : Text} (h : piece ∈ pieces groups dotted?) : ':' ∉ piece :=
  notMem_pieces (by decide) (by decide) h

theorem length_pieces : (pieces groups dotted?).length =
    groups.length + dotted?.toList.length := by
  simp [pieces]

theorem splitOn_pieces (h : pieces groups dotted? ≠ []) :
    ([':'].intercalate (pieces groups dotted?)).splitOn ':' = pieces groups dotted? :=
  List.splitOn_intercalate ':' (fun _ hpiece => colon_notMem_pieces hpiece) h

theorem intercalate_pieces_eq_nil :
    [':'].intercalate (pieces groups dotted?) = [] ↔ pieces groups dotted? = [] :=
  ⟨intercalate_eq_nil fun _ hpiece => (mem_pieces hpiece).1, fun h => by rw [h]; rfl⟩

theorem all_isHexGroup (groups : List Group) : (groups.map Subtype.val).all isHexGroup := by
  rw [List.all_eq_true]
  intro text htext
  obtain ⟨group, _, rfl⟩ := List.mem_map.mp htext
  exact group.2

theorem countGroups_pieces {mayBeDotted : Bool} (h : dotted?.isSome → mayBeDotted) :
    countGroups mayBeDotted ([':'].intercalate (pieces groups dotted?)) =
      some (groups.length + 2 * dotted?.toList.length) := by
  by_cases hnil : pieces groups dotted? = []
  · obtain ⟨hgroups, hdotted⟩ := List.append_eq_nil_iff.mp hnil
    rw [countGroups, if_pos (intercalate_pieces_eq_nil.mpr hnil), List.map_eq_nil_iff.mp hgroups,
      List.map_eq_nil_iff.mp hdotted]
    rfl
  · rw [countGroups, if_neg (intercalate_pieces_eq_nil.not.mpr hnil), splitOn_pieces hnil]
    cases dotted? with
    | none =>
        have hpieces : pieces groups none = groups.map Subtype.val := by simp [pieces]
        rw [hpieces, if_pos (all_isHexGroup groups)]
        simp
    | some dotted =>
        have hpieces : pieces groups (some dotted) = groups.map Subtype.val ++ [dotted.text] := by
          simp [pieces]
        have hnone : ¬(groups.map Subtype.val ++ [dotted.text]).all isHexGroup := by
          simp [not_isHexGroup_dotted]
        rw [hpieces, if_neg hnone, if_pos]
        · simp
        · rw [h rfl, List.dropLast_concat, List.getLast?_concat, all_isHexGroup]
          simpa using isIPv4_dotted dotted

theorem exists_pieces {mayBeDotted : Bool} {part : Text} {n : Nat}
    (h : countGroups mayBeDotted part = some n) :
    ∃ (groups : List Group) (dotted? : Option Dotted), (dotted?.isSome → mayBeDotted) ∧
      [':'].intercalate (pieces groups dotted?) = part ∧
      groups.length + 2 * dotted?.toList.length = n := by
  unfold countGroups at h
  split at h
  · rename_i hnil
    exact ⟨[], none, by simp, by simp [pieces, hnil], by simpa using h⟩
  split at h
  · rename_i hall
    obtain ⟨groups, hgroups⟩ := exists_subtype hall
    refine ⟨groups, none, by simp, ?_, ?_⟩
    · rw [pieces, Option.toList_none, List.map_nil, List.append_nil, hgroups,
        List.intercalate_splitOn]
    · rw [← Option.some.inj h, ← hgroups]
      simp
  split at h
  · rename_i hdotted
    simp only [Bool.and_eq_true] at hdotted
    obtain ⟨⟨hmay, hall⟩, hlast⟩ := hdotted
    obtain ⟨groups, hgroups⟩ := exists_subtype hall
    obtain ⟨last, hlast, hipv4⟩ := (Option.any_eq_true _ _).mp hlast
    obtain ⟨dotted, rfl⟩ := isIPv4_iff.mp hipv4
    have hsplit : part.splitOn ':' = groups.map Subtype.val ++ [dotted.text] := by
      rw [hgroups, List.dropLast_append_getLast? _ hlast]
    refine ⟨groups, some dotted, fun _ => hmay, ?_, ?_⟩
    · have hpieces : pieces groups (some dotted) = part.splitOn ':' := by simp [pieces, hsplit]
      rw [hpieces, List.intercalate_splitOn]
    · rw [← Option.some.inj h, hsplit]
      simp
  · cases h

end Texts

section Recognition

variable {dotted? : Option Dotted} {text : Text}

theorem undoubled_pieces (groups : List Group) (dotted? : Option Dotted) :
    Undoubled ':' ([':'].intercalate (pieces groups dotted?)) ∧
      ':' ∉ ([':'].intercalate (pieces groups dotted?)).getLast? := by
  obtain ⟨hundoubled, hlast, _⟩ := undoubled_intercalate
    fun piece (hpiece : piece ∈ pieces groups dotted?) =>
      ⟨(mem_pieces hpiece).1, colon_notMem_pieces hpiece⟩
  exact ⟨hundoubled, hlast⟩

theorem splitOnDouble_pieces (groups : List Group) (dotted? : Option Dotted) :
    splitOnDouble ':' ([':'].intercalate (pieces groups dotted?)) =
      [[':'].intercalate (pieces groups dotted?)] :=
  splitOnDouble_of_undoubled (undoubled_pieces groups dotted?).1

theorem splitOnDouble_compressed (head tail : List Group) (dotted? : Option Dotted) :
    splitOnDouble ':' ([':'].intercalate (pieces head none) ++ ':' :: ':' ::
        [':'].intercalate (pieces tail dotted?)) =
      [[':'].intercalate (pieces head none), [':'].intercalate (pieces tail dotted?)] := by
  obtain ⟨hundoubled, hlast⟩ := undoubled_pieces head none
  rw [splitOnDouble_append hundoubled hlast, splitOnDouble_pieces]

theorem isIPv6Body_text (spelling : Spelling dotted?) : isIPv6Body spelling.text := by
  cases spelling with
  | full groups h =>
      rw [isIPv6Body, Spelling.text, splitOnDouble_pieces]
      simp [countGroups_pieces, h]
  | compressed head tail h =>
      rw [isIPv6Body, Spelling.text, splitOnDouble_compressed]
      simpa [countGroups_pieces, Nat.add_assoc] using h

theorem isIPv6Body_iff :
    isIPv6Body text ↔ ∃ (dotted? : Option Dotted) (spelling : Spelling dotted?),
      spelling.text = text := by
  constructor
  · intro h
    have htext := intercalate_splitOnDouble ':' text
    unfold isIPv6Body at h
    split at h
    · rename_i whole hsplit
      obtain ⟨groups, dotted?, _, hwhole, hcount⟩ := exists_pieces (of_decide_eq_true h)
      rw [hsplit, List.intercalate_singleton] at htext
      exact ⟨dotted?, .full groups hcount, hwhole.trans htext⟩
    · rename_i head tail hsplit
      obtain ⟨n, hn, h⟩ := (Option.any_eq_true _ _).mp h
      obtain ⟨k, hk, h⟩ := (Option.any_eq_true _ _).mp h
      obtain ⟨headGroups, headDotted, hnone, hhead, rfl⟩ := exists_pieces hn
      obtain ⟨tailGroups, dotted?, _, htail, rfl⟩ := exists_pieces hk
      obtain rfl : headDotted = none := by
        cases headDotted with
        | none => rfl
        | some dotted => exact absurd (hnone rfl) (by decide)
      have hcount : headGroups.length + tailGroups.length + 2 * dotted?.toList.length ≤ 7 := by
        simpa [Nat.add_assoc] using h
      rw [hsplit, List.intercalate_cons_cons, List.intercalate_singleton] at htext
      refine ⟨dotted?, .compressed headGroups tailGroups hcount, ?_⟩
      rw [← htext, Spelling.text, hhead, htail, List.append_assoc]
      rfl
    · cases h
  · rintro ⟨dotted?, spelling, rfl⟩
    exact isIPv6Body_text spelling

theorem mem_text {spelling : Spelling dotted?} {ch : Char} (h : ch ∈ spelling.text) :
    isHexDigit ch ∨ ch = '.' ∨ ch = ':' := by
  have hpieces : ∀ {groups : List Group} {dotted? : Option Dotted},
      ch ∈ [':'].intercalate (pieces groups dotted?) → isHexDigit ch ∨ ch = '.' ∨ ch = ':' := by
    intro groups dotted? h
    obtain rfl | ⟨piece, hpiece, hch⟩ := mem_of_mem_intercalate h
    · exact Or.inr (Or.inr rfl)
    · exact ((mem_pieces hpiece).2 ch hch).imp_right Or.inl
  cases spelling with
  | full groups _ => exact hpieces h
  | compressed head tail _ =>
      simp only [Spelling.text, List.mem_append, List.mem_cons] at h
      obtain h | rfl | rfl | h := h
      · exact hpieces h
      · exact Or.inr (Or.inr rfl)
      · exact Or.inr (Or.inr rfl)
      · exact hpieces h

theorem notMem_text {spelling : Spelling dotted?} {ch : Char} (hhex : isHexDigit ch = false)
    (hdot : ch ≠ '.') (hcolon : ch ≠ ':') : ch ∉ spelling.text := by
  intro h
  obtain hch | hch | hch := mem_text h
  · rw [hch] at hhex
    cases hhex
  · exact hdot hch
  · exact hcolon hch

theorem colon_mem_text (spelling : Spelling dotted?) : ':' ∈ spelling.text := by
  cases spelling with
  | compressed head tail _ => simp [Spelling.text]
  | full groups h =>
      have hlength : 2 ≤ (pieces groups dotted?).length := by
        rw [length_pieces]
        cases dotted? <;> simp at h ⊢ <;> omega
      rw [Spelling.text]
      generalize pieces groups dotted? = texts at hlength
      rcases texts with _ | ⟨first, _ | ⟨second, rest⟩⟩
      · simp at hlength
      · simp at hlength
      · simp [List.intercalate_cons_cons]

theorem percent_notMem_text (spelling : Spelling dotted?) : '%' ∉ spelling.text :=
  notMem_text (by decide) (by decide) (by decide)

theorem isIPv4_of_colon_mem (h : ':' ∈ text) : isIPv4 text = false := by
  refine Bool.eq_false_iff.mpr fun hipv4 => ?_
  obtain ⟨dotted, rfl⟩ := isIPv4_iff.mp hipv4
  obtain hch | hch := mem_dotted h
  · exact absurd hch (by decide)
  · exact absurd hch (by decide)

theorem isIP_dotted (dotted : Dotted) : isIP dotted.text = some .ipv4 := by
  rw [isIP, if_pos (isIPv4_dotted dotted)]

theorem splitOn_withZone {body : Text} (h : '%' ∉ body) (zone : Option Text) :
    (withZone body zone).splitOn '%' = body :: zone.elim [] (·.splitOn '%') := by
  cases zone with
  | none => simp [withZone, List.splitOn_eq_singleton h]
  | some zone => simp [withZone, List.splitOn_append_cons_self_of_not_mem h]

theorem notMem_zone {zone : Zone} {ch : Char} (h : ch.isAlphanum = false)
    (hmark : ch ∉ ['-', '.', ':']) : ch ∉ zone.1 := by
  intro hmem
  have hzone := zone.2
  simp only [isZone, Bool.and_eq_true, List.all_eq_true, Bool.or_eq_true, decide_eq_true_eq]
    at hzone
  simp only [List.mem_cons, List.not_mem_nil, or_false, not_or] at hmark
  have hch := hzone.2 ch hmem
  simp [h, hmark] at hch

/-- The texts of addresses of version 6 are the spellings with a zone, if there is one. -/
theorem isIPv6_iff : isIPv6 text ↔ ∃ (dotted? : Option Dotted) (spelling : Spelling dotted?)
    (zone : Option Zone), withZone spelling.text (zone.map Subtype.val) = text := by
  constructor
  · intro h
    have htext : ['%'].intercalate (text.splitOn '%') = text := List.intercalate_splitOn '%'
    unfold isIPv6 at h
    split at h
    · rename_i body hsplit
      obtain ⟨dotted?, spelling, rfl⟩ := isIPv6Body_iff.mp h
      rw [hsplit, List.intercalate_singleton] at htext
      exact ⟨dotted?, spelling, none, (List.append_nil _).trans htext⟩
    · rename_i body zone hsplit
      obtain ⟨hbody, hzone⟩ := Bool.and_eq_true_iff.mp h
      obtain ⟨dotted?, spelling, rfl⟩ := isIPv6Body_iff.mp hbody
      rw [hsplit, List.intercalate_cons_cons, List.intercalate_singleton] at htext
      exact ⟨dotted?, spelling, some ⟨zone, hzone⟩, by simpa [withZone] using htext⟩
    · cases h
  · rintro ⟨dotted?, spelling, zone, rfl⟩
    rw [isIPv6, splitOn_withZone (percent_notMem_text spelling)]
    cases zone with
    | none => exact isIPv6Body_text spelling
    | some zone =>
        have hpercent : '%' ∉ zone.1 := notMem_zone (by decide) (by decide)
        simp only [Option.map_some, Option.elim_some, List.splitOn_eq_singleton hpercent,
          isIPv6Body_text, Bool.true_and]
        exact zone.2

theorem isIP_withZone (spelling : Spelling dotted?) (zone : Option Zone) :
    isIP (withZone spelling.text (zone.map Subtype.val)) = some .ipv6 := by
  have hipv4 : isIPv4 (withZone spelling.text (zone.map Subtype.val)) = false :=
    isIPv4_of_colon_mem (List.mem_append_left _ (colon_mem_text spelling))
  rw [isIP, if_neg (Bool.eq_false_iff.mp hipv4),
    if_pos (isIPv6_iff.mpr ⟨dotted?, spelling, zone, rfl⟩)]

theorem isIP_text (spelling : Spelling dotted?) : isIP spelling.text = some .ipv6 := by
  have h := isIP_withZone spelling none
  rwa [withZone, Option.map_none, Option.elim_none, List.append_nil] at h

theorem slash_notMem_withZone (spelling : Spelling dotted?) (zone : Option Zone) :
    '/' ∉ withZone spelling.text (zone.map Subtype.val) := by
  intro h
  rcases List.mem_append.mp h with h | h
  · exact notMem_text (by decide) (by decide) (by decide) h
  · cases zone with
    | none => cases h
    | some zone =>
        obtain heq | h := List.mem_cons.mp h
        · cases heq
        · exact notMem_zone (by decide) (by decide) h

theorem spelled_of_isIP {version : IpVersion} (h : isIP text = some version) :
    (version = .ipv4 ∧ ∃ dotted : Dotted, dotted.text = text) ∨
      (version = .ipv6 ∧ ∃ (dotted? : Option Dotted) (spelling : Spelling dotted?)
        (zone : Option Zone), withZone spelling.text (zone.map Subtype.val) = text) := by
  unfold isIP at h
  split at h
  · rename_i hipv4
    exact Or.inl ⟨(Option.some.inj h).symm, isIPv4_iff.mp hipv4⟩
  split at h
  · rename_i hipv6
    exact Or.inr ⟨(Option.some.inj h).symm, isIPv6_iff.mp hipv6⟩
  · cases h

end Recognition

section Values

variable {dotted? : Option Dotted}

theorem Dotted.value_lt (dotted : Dotted) : dotted.value < 2 ^ 32 := by
  have hdigits : ∀ digit ∈ dotted.octets.map Octet.value, digit < 256 := by
    intro digit hdigit
    obtain ⟨octet, _, rfl⟩ := List.mem_map.mp hdigit
    exact Nat.lt_succ_iff.mpr (octet_value_le octet)
  have h := valueOf_lt hdigits (by decide)
  rwa [List.length_map, dotted.length] at h

theorem length_flatMap_groups (dotted? : Option Dotted) :
    (dotted?.toList.flatMap Dotted.groups).length = 2 * dotted?.toList.length := by
  cases dotted? <;> simp [Dotted.groups]

theorem Spelling.length_groups (spelling : Spelling dotted?) : spelling.groups.length = 8 := by
  cases spelling with
  | full groups h =>
      rw [Spelling.groups, List.length_append, List.length_map, length_flatMap_groups, h]
  | compressed head tail h =>
      simp only [Spelling.groups, List.length_append, List.length_map, List.length_replicate,
        length_flatMap_groups]
      omega

theorem Spelling.lt_of_mem_groups {spelling : Spelling dotted?} {group : Nat}
    (h : group ∈ spelling.groups) : group < 65536 := by
  have hgroups : ∀ groups : List Group, group ∈ groups.map Group.value → group < 65536 := by
    intro groups h
    obtain ⟨spelled, _, rfl⟩ := List.mem_map.mp h
    exact group_value_lt spelled
  have hdotted : group ∈ dotted?.toList.flatMap Dotted.groups → group < 65536 := by
    intro h
    obtain ⟨dotted, _, h⟩ := List.mem_flatMap.mp h
    have hvalue := dotted.value_lt
    simp only [Dotted.groups, List.mem_cons, List.not_mem_nil, or_false] at h
    omega
  cases spelling with
  | full groups _ =>
      obtain h | h := List.mem_append.mp h
      · exact hgroups groups h
      · exact hdotted h
  | compressed head tail _ =>
      simp only [Spelling.groups, List.mem_append] at h
      obtain ((h | h) | h) | h := h
      · exact hgroups head h
      · rw [List.eq_of_mem_replicate h]
        decide
      · exact hgroups tail h
      · exact hdotted h

theorem Spelling.value_lt (spelling : Spelling dotted?) : spelling.value < 2 ^ 128 := by
  have h := valueOf_lt (fun _ => spelling.lt_of_mem_groups) (by decide)
  rwa [spelling.length_groups] at h

end Values

end SmsNotification.InternetAddresses
