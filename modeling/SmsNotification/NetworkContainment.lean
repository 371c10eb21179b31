import SmsNotification.PrivateNetworkGuard

namespace SmsNotification.NetworkContainment

open SmsNotification.InternetAddresses
open SmsNotification.JavaScriptText
open SmsNotification.PrivateNetworkGuard
open SmsNotification.SmsProcessor (isTrimmed)

/-- Two addresses of some width have the same first bits. -/
def AgreeOn (width length a b : Nat) : Prop :=
  ∀ i < length, a.testBit (width - 1 - i) = b.testBit (width - 1 - i)

section Bits

variable {width length a b : Nat}

theorem agreeOn_zero (width a b : Nat) : AgreeOn width 0 a b :=
  fun _ h => absurd h (Nat.not_lt_zero _)

theorem agreeOn_iff (hlength : length ≤ width) (ha : a < 2 ^ width) (hb : b < 2 ^ width) :
    AgreeOn width length a b ↔ ∀ i, width - length ≤ i → a.testBit i = b.testBit i := by
  constructor
  · intro h i hi
    by_cases hwidth : i < width
    · have hbit := h (width - 1 - i) (by omega)
      rwa [show width - 1 - (width - 1 - i) = i by omega] at hbit
    · have hpow : 2 ^ width ≤ 2 ^ i := Nat.pow_le_pow_right (by decide) (by omega)
      rw [Nat.testBit_lt_two_pow (ha.trans_le hpow), Nat.testBit_lt_two_pow (hb.trans_le hpow)]
  · intro h i hi
    exact h _ (by omega)

theorem agreeOn_width (ha : a < 2 ^ width) (hb : b < 2 ^ width) :
    AgreeOn width width a b ↔ a = b := by
  rw [agreeOn_iff le_rfl ha hb]
  constructor
  · exact fun h => Nat.eq_of_testBit_eq fun i => h i (by omega)
  · rintro rfl i _
    rfl

theorem one_shiftLeft_sub_one (n : Nat) : ((1 : ℤ) <<< n) - 1 = ((2 ^ n - 1 : Nat) : ℤ) := by
  rw [Int.shiftLeft_eq, one_mul, Nat.cast_sub Nat.one_le_two_pow]
  push_cast
  rfl

theorem land_mask_iff (hostBits : Nat) :
    Int.land a (Int.lnot (((1 : ℤ) <<< hostBits) - 1)) =
        Int.land b (Int.lnot (((1 : ℤ) <<< hostBits) - 1)) ↔
      ∀ i, hostBits ≤ i → a.testBit i = b.testBit i := by
  have hland : ∀ n : Nat, Int.land n (Int.lnot ((2 ^ hostBits - 1 : Nat) : ℤ)) =
      (Nat.ldiff n (2 ^ hostBits - 1) : Nat) := fun n => rfl
  rw [one_shiftLeft_sub_one, hland, hland, Int.natCast_inj]
  constructor
  · intro h i hi
    have hbit := congrArg (Nat.testBit · i) h
    simpa [Nat.testBit_ldiff, Nat.not_lt.mpr hi] using hbit
  · intro h
    refine Nat.eq_of_testBit_eq fun i => ?_
    rw [Nat.testBit_ldiff, Nat.testBit_ldiff, Nat.testBit_two_pow_sub_one]
    by_cases hi : i < hostBits
    · simp [hi]
    · simp [hi, h i (Nat.not_lt.mp hi)]

end Bits

theorem matchesCidr_iff {v w : IpVersion} {a b length : Nat} (ha : a < 2 ^ v.width)
    (hb : b < 2 ^ w.width) (hlength : length ≤ w.width) :
    matchesCidr ⟨v, a⟩ ⟨⟨w, b⟩, length⟩ ↔ v = w ∧ AgreeOn w.width length a b := by
  unfold matchesCidr
  by_cases hversion : v = w
  · subst hversion
    simp only [ne_eq, not_true, if_false, true_and, decide_eq_true_eq]
    by_cases hhost : v.width - length = 0
    · obtain rfl : length = v.width := by omega
      have hland : ∀ n : Nat, n < 2 ^ v.width →
          Int.land (n : ℤ) ((2 ^ v.width - 1 : Nat) : ℤ) = (n : ℤ) := by
        intro n hn
        have hmask := Nat.and_two_pow_sub_one_of_lt_two_pow hn
        exact congrArg Nat.cast hmask
      rw [if_pos hhost, one_shiftLeft_sub_one, hland a ha, hland b hb, agreeOn_width ha hb,
        Int.natCast_inj]
    · rw [if_neg hhost, land_mask_iff, agreeOn_iff hlength ha hb]
  · simp [hversion]

/-- An address of either version, without a dotted end in version 6. -/
inductive AddressSpelling where
  | ipv4 (dotted : Dotted)
  | ipv6 (spelling : Spelling none)

namespace AddressSpelling

def text : AddressSpelling → Text
  | ipv4 dotted => dotted.text
  | ipv6 spelling => spelling.text

def version : AddressSpelling → IpVersion
  | ipv4 _ => .ipv4
  | ipv6 _ => .ipv6

def value : AddressSpelling → Nat
  | ipv4 dotted => dotted.value
  | ipv6 spelling => spelling.value

end AddressSpelling

/-- A network: an address and, if it is there, the prefix length in decimal digits. -/
structure CidrSpelling where
  address : AddressSpelling
  digits : Option { digits : Text //
    isDecimal digits ∧ digitsValue 10 digits ≤ address.version.width }

namespace CidrSpelling

def text (cidr : CidrSpelling) : Text :=
  cidr.address.text ++ cidr.digits.elim [] fun digits => '/' :: digits.1

def prefixLength (cidr : CidrSpelling) : Nat :=
  cidr.digits.elim cidr.address.version.width fun digits => digitsValue 10 digits.1

/-- The address has the version of the network and begins with its first bits. -/
def Contains (cidr : CidrSpelling) (version : IpVersion) (value : Nat) : Prop :=
  version = cidr.address.version ∧
    AgreeOn cidr.address.version.width cidr.prefixLength value cidr.address.value

def parsed (cidr : CidrSpelling) : ParsedCidr :=
  ⟨⟨cidr.address.version, cidr.address.value⟩, cidr.prefixLength⟩

end CidrSpelling

/-- The address of a caller: of version 4, bare or mapped into version 6, or of version 6
with a zone, if there is one. -/
inductive CallerSpelling where
  | ipv4 (dotted : Dotted)
  | mapped (marker : Marker) (dotted : Dotted)
  | ipv6 (spelling : Spelling none) (zone : Option Text)

namespace CallerSpelling

def text : CallerSpelling → Text
  | ipv4 dotted => dotted.text
  | mapped marker dotted => marker.1 ++ dotted.text
  | ipv6 spelling zone => withZone spelling.text zone

def version : CallerSpelling → IpVersion
  | ipv4 _ => .ipv4
  | mapped _ _ => .ipv4
  | ipv6 _ _ => .ipv6

def value : CallerSpelling → Nat
  | ipv4 dotted => dotted.value
  | mapped _ dotted => dotted.value
  | ipv6 spelling _ => spelling.value

end CallerSpelling

section Spellings

variable {address : AddressSpelling} {cidr : CidrSpelling} {caller : CallerSpelling}

theorem withZone_none (body : Text) : withZone body none = body :=
  List.append_nil body

theorem AddressSpelling.value_lt (address : AddressSpelling) :
    address.value < 2 ^ address.version.width := by
  cases address with
  | ipv4 dotted => exact dotted.value_lt
  | ipv6 spelling => exact spelling.value_lt

theorem AddressSpelling.parseIp_text (address : AddressSpelling) :
    parseIp address.text = .ok (some ⟨address.version, address.value⟩) := by
  cases address with
  | ipv4 dotted =>
      have h := parseIp_dotted dotted none
      rwa [withZone_none] at h
  | ipv6 spelling =>
      have h := parseIp_hexadecimal spelling none
      rwa [withZone_none] at h

theorem AddressSpelling.mem_text {ch : Char} (h : ch ∈ address.text) :
    isHexDigit ch ∨ ch = '.' ∨ ch = ':' := by
  cases address with
  | ipv4 dotted =>
      obtain hdigit | hdot := mem_dotted h
      · exact Or.inl (isHexDigit_of_isDigit hdigit)
      · exact Or.inr (Or.inl hdot)
  | ipv6 spelling => exact InternetAddresses.mem_text h

theorem CidrSpelling.mem_text {ch : Char} (h : ch ∈ cidr.text) :
    isHexDigit ch ∨ ch = '.' ∨ ch = ':' ∨ ch = '/' := by
  obtain ⟨address, digits⟩ := cidr
  rcases List.mem_append.mp h with h | h
  · obtain hhex | hdot | hcolon := AddressSpelling.mem_text h
    · exact Or.inl hhex
    · exact Or.inr (Or.inl hdot)
    · exact Or.inr (Or.inr (Or.inl hcolon))
  · cases digits with
    | none => simp at h
    | some digits =>
        obtain rfl | hdigit := List.mem_cons.mp h
        · exact Or.inr (Or.inr (Or.inr rfl))
        · exact Or.inl (isHexDigit_of_isDigit ((of_isDecimal digits.2.1).2 ch hdigit))

theorem CidrSpelling.prefixLength_le (cidr : CidrSpelling) :
    cidr.prefixLength ≤ cidr.address.version.width := by
  obtain ⟨address, digits⟩ := cidr
  cases digits with
  | none => exact le_rfl
  | some digits => exact digits.2.2

theorem CidrSpelling.parseCidr_text (cidr : CidrSpelling) :
    parseCidr cidr.text = .ok cidr.parsed := by
  obtain ⟨address, digits⟩ := cidr
  have hslash : '/' ∉ address.text := by
    intro h
    obtain h | h | h := AddressSpelling.mem_text h <;> revert h <;> decide
  cases digits with
  | none =>
      rw [CidrSpelling.text, Option.elim_none, List.append_nil,
        parseCidr_address hslash address.parseIp_text]
      rfl
  | some digits =>
      rw [CidrSpelling.text, Option.elim_some,
        parseCidr_slash hslash address.parseIp_text digits.2.1 digits.2.2]
      rfl

theorem CallerSpelling.value_lt (caller : CallerSpelling) :
    caller.value < 2 ^ caller.version.width := by
  cases caller with
  | ipv4 dotted => exact dotted.value_lt
  | mapped marker dotted => exact dotted.value_lt
  | ipv6 spelling zone => exact spelling.value_lt

theorem CallerSpelling.parseIp_text (caller : CallerSpelling) :
    parseIp caller.text = .ok (some ⟨caller.version, caller.value⟩) := by
  cases caller with
  | ipv4 dotted =>
      have h := parseIp_dotted dotted none
      rwa [withZone_none] at h
  | mapped marker dotted =>
      have h := parseIp_mapped marker dotted none
      rwa [withZone_none] at h
  | ipv6 spelling zone => exact parseIp_hexadecimal spelling zone

end Spellings

section Decisions

variable {raw : String} {cidrs : List CidrSpelling} {caller : CallerSpelling} {request : Request}

/-- The text that configures networks. -/
def configured (cidrs : List CidrSpelling) : String :=
  String.ofList ([','].intercalate (cidrs.map CidrSpelling.text))

theorem CidrSpelling.text_ne_nil (cidr : CidrSpelling) : cidr.text ≠ [] := by
  obtain ⟨address, digits⟩ := cidr
  intro h
  have haddress : address.text = [] := (List.append_eq_nil_iff.mp h).1
  cases address with
  | ipv4 dotted =>
      obtain ⟨first, rest, htext, _⟩ := exists_dotted_eq dotted
      rw [AddressSpelling.text, htext] at haddress
      simp at haddress
  | ipv6 spelling =>
      have hcolon := colon_mem_text spelling
      rw [show spelling.text = [] from haddress] at hcolon
      cases hcolon

theorem entries_configured (cidrs : List CidrSpelling) :
    entries (configured cidrs) = cidrs.map CidrSpelling.text := by
  rw [entries, configured, String.toList_ofList]
  by_cases hnil : cidrs.map CidrSpelling.text = []
  · rw [hnil]
    decide
  · have hchar : ∀ text ∈ cidrs.map CidrSpelling.text, ∀ ch ∈ text,
        ch ≠ ',' ∧ isTrimmed ch = false := by
      intro text htext ch hch
      obtain ⟨cidr, _, rfl⟩ := List.mem_map.mp htext
      obtain hhex | rfl | rfl | rfl := CidrSpelling.mem_text hch
      · refine ⟨?_, not_trimmed_of_isHexDigit hhex⟩
        rintro rfl
        revert hhex
        decide
      all_goals decide
    rw [List.splitOn_intercalate ',' (fun text htext hmem => (hchar text htext _ hmem).1 rfl) hnil,
      List.map_congr_left fun text htext => trim_eq_self fun ch hch => (hchar text htext ch hch).2,
      List.map_id', List.filter_eq_self]
    intro text htext
    obtain ⟨cidr, _, rfl⟩ := List.mem_map.mp htext
    exact decide_eq_true cidr.text_ne_nil

theorem create_spelled (h : entries raw = cidrs.map CidrSpelling.text) :
    Guard.create raw = .ok ⟨cidrs.map CidrSpelling.parsed⟩ := by
  have hparse : ∀ cidrs : List CidrSpelling,
      (cidrs.map CidrSpelling.text).mapM parseCidr = .ok (cidrs.map CidrSpelling.parsed) := by
    intro cidrs
    induction cidrs with
    | nil => rfl
    | cons cidr cidrs ih =>
        rw [List.map_cons, List.mapM_cons, cidr.parseCidr_text, ih]
        rfl
  rw [Guard.create, h, hparse]
  rfl

theorem any_matchesCidr_iff :
    (cidrs.map CidrSpelling.parsed).any (matchesCidr ⟨caller.version, caller.value⟩) ↔
      ∃ cidr ∈ cidrs, cidr.Contains caller.version caller.value := by
  rw [List.any_map, List.any_eq_true]
  refine exists_congr fun cidr => and_congr_right fun _ => ?_
  exact matchesCidr_iff caller.value_lt cidr.address.value_lt cidr.prefixLength_le

theorem CallerSpelling.text_ne_nil (caller : CallerSpelling) : caller.text ≠ [] := by
  intro h
  have hparse := caller.parseIp_text
  rw [h] at hparse
  cases hparse

/-- What a guard decides about a caller, by the address that was parsed. -/
theorem canActivate_spelled (guard : Guard)
    (h : request.rawIp = some (String.ofList caller.text)) :
    guard.canActivate request =
      if guard.allowedCidrs.any (matchesCidr ⟨caller.version, caller.value⟩) then .ok true
      else .error forbidden := by
  rw [canActivate_rawIp guard caller.text_ne_nil h, caller.parseIp_text]
  rfl

theorem contains_zero {cidr : CidrSpelling} (h : cidr.prefixLength = 0) (version : IpVersion)
    (value : Nat) : cidr.Contains version value ↔ version = cidr.address.version := by
  rw [CidrSpelling.Contains, h]
  exact and_iff_left (agreeOn_zero _ _ _)

theorem contains_width {cidr : CidrSpelling}
    (h : cidr.prefixLength = cidr.address.version.width) :
    cidr.Contains caller.version caller.value ↔
      caller.version = cidr.address.version ∧ caller.value = cidr.address.value := by
  rw [CidrSpelling.Contains, h]
  refine and_congr_right fun hversion => agreeOn_width ?_ cidr.address.value_lt
  rw [← hversion]
  exact caller.value_lt

/-- Containment is exact. A guard of networks admits a caller just where one of them
contains its address and else refuses it, whichever way the address is spelled; a prefix of
no bits admits the whole family and a full one just its own address. -/
theorem containment_exact (cidrs : List CidrSpelling) :
    entries (configured cidrs) = cidrs.map CidrSpelling.text ∧
      (∀ raw, entries raw = cidrs.map CidrSpelling.text →
        ∃ guard, Guard.create raw = .ok guard ∧
          ∀ (caller : CallerSpelling) (request : Request),
            request.rawIp = some (String.ofList caller.text) →
            (guard.canActivate request = .ok true ↔
              ∃ cidr ∈ cidrs, cidr.Contains caller.version caller.value) ∧
            (guard.canActivate request ≠ .ok true →
              guard.canActivate request = .error forbidden) ∧
            ∀ (caller' : CallerSpelling) (request' : Request),
              request'.rawIp = some (String.ofList caller'.text) →
              caller'.version = caller.version → caller'.value = caller.value →
              guard.canActivate request' = guard.canActivate request) ∧
      ∀ (cidr : CidrSpelling) (caller : CallerSpelling),
        (cidr.prefixLength = 0 → (cidr.Contains caller.version caller.value ↔
          caller.version = cidr.address.version)) ∧
        (cidr.prefixLength = cidr.address.version.width →
          (cidr.Contains caller.version caller.value ↔
            caller.version = cidr.address.version ∧ caller.value = cidr.address.value)) := by
  refine ⟨entries_configured cidrs, fun raw hraw => ⟨_, create_spelled hraw, ?_⟩, ?_⟩
  · intro caller request hrequest
    rw [canActivate_spelled _ hrequest]
    refine ⟨?_, ?_, ?_⟩
    · rw [← any_matchesCidr_iff]
      split <;> simp_all
    · split <;> simp
    · intro caller' request' hrequest' hversion hvalue
      rw [canActivate_spelled _ hrequest', hversion, hvalue]
  · exact fun cidr caller => ⟨fun h => contains_zero h _ _, contains_width⟩

/-- The network 10.0.0.0/8. -/
def tens : CidrSpelling where
  address := .ipv4 ⟨[⟨['1', '0'], by decide⟩, ⟨['0'], isOctet_zero⟩, ⟨['0'], isOctet_zero⟩,
    ⟨['0'], isOctet_zero⟩], rfl⟩
  digits := some ⟨['8'], by decide⟩

/-- The network ::1/128. -/
def loopback : CidrSpelling where
  address := .ipv6 (.compressed [] [⟨['1'], by decide⟩] (by decide))
  digits := some ⟨['1', '2', '8'], by decide⟩

/-- The caller ::ffff:10.42.7.9. -/
def mappedTen : CallerSpelling :=
  .mapped ⟨[':', ':', 'f', 'f', 'f', 'f', ':'], by decide⟩
    ⟨[⟨['1', '0'], by decide⟩, ⟨['4', '2'], by decide⟩, ⟨['7'], by decide⟩,
      ⟨['9'], by decide⟩], rfl⟩

/-- The caller 0::01%eth0. -/
def zonedLoopback : CallerSpelling :=
  .ipv6 (.compressed [⟨['0'], by decide⟩] [⟨['0', '1'], by decide⟩] (by decide))
    (some ['e', 't', 'h', '0'])

theorem containment_exact_private :
    ∃ guard, Guard.create "10.0.0.0/8, ::1/128" = .ok guard ∧
      guard.canActivate ⟨some "::ffff:10.42.7.9", none⟩ = .ok true ∧
      guard.canActivate ⟨none, some "0::01%eth0"⟩ = .ok true := by
  obtain ⟨guard, hguard, hdecides⟩ :=
    (containment_exact [tens, loopback]).2.1 "10.0.0.0/8, ::1/128" (by decide +kernel)
  refine ⟨guard, hguard, ?_, ?_⟩
  · exact (hdecides mappedTen _ (by decide +kernel)).1.mpr
      ⟨tens, by simp, rfl, by unfold AgreeOn; decide +kernel⟩
  · exact (hdecides zonedLoopback _ (by decide +kernel)).1.mpr
      ⟨loopback, by simp, rfl, by unfold AgreeOn; decide +kernel⟩

end Decisions

end SmsNotification.NetworkContainment
