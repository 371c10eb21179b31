import SmsNotification.PrivateNetworkGuard

namespace SmsNotification.AllowListGrammar

open SmsNotification.InternetAddresses
open SmsNotification.JavaScriptText
open SmsNotification.PrivateNetworkGuard

/-- What stands before the first slash of an entry. -/
def addressText (entry : Text) : Text :=
  (entry.splitOn '/').head?.getD []

/-- What stands between the first slash of an entry and the next one. -/
def prefixText? (entry : Text) : Option Text :=
  (entry.splitOn '/')[1]?

/-- The text that an address is read as: without a zone, and of version 4 if it is a
mapped one. -/
def candidate (address : Text) : Text :=
  let withoutZone := (address.splitOn '%').head?.getD []
  (mappedMatch withoutZone).getD withoutZone

/-- An entry as it should be written denotes a network: an address of some family, mapped
ones being of version 4, and behind it nothing or one slash and a prefix length in decimal
digits within the width of the family. -/
def Denotes (entry : Text) (cidr : ParsedCidr) : Prop :=
  ∃ address, (isIP address).isSome ∧ isIP (candidate address) = some cidr.version ∧
    ((entry = address ∧ cidr.prefixLength = cidr.version.width) ∨
      ∃ digits, isDecimal digits ∧ entry = address ++ '/' :: digits ∧
        digitsValue 10 digits ≤ cidr.version.width ∧
        cidr.prefixLength = digitsValue 10 digits)

/-- An entry that the code can read: an address without regard to its zone, and between
the first two slashes an integer within the width, in any notation for numbers. -/
def Readable (entry : Text) : Prop :=
  ∃ version, isIP (candidate (addressText entry)) = some version ∧
    ∀ digits ∈ prefixText? entry, ∃ number, number? digits = some number ∧
      isPrefixLength version number

/-- An entry without a second slash, another notation for its prefix length than decimal
digits or a `%` that no zone stands behind. -/
structure Tidy (entry : Text) : Prop where
  slash : (entry.splitOn '/').length ≤ 2
  digits : ∀ digits ∈ prefixText? entry, isDecimal digits
  zone : '%' ∈ addressText entry → (isIP (addressText entry)).isSome

section Cuts

variable {sep : Char} {text head : Text}

theorem exists_cut (sep : Char) (text : Text) :
    sep ∉ text ∨ ∃ head rest, text = head ++ sep :: rest ∧ sep ∉ head := by
  by_cases h : sep ∈ text
  · obtain ⟨head, rest, htext, hhead⟩ := List.eq_append_cons_of_mem h
    exact Or.inr ⟨head, rest, htext, hhead⟩
  · exact Or.inl h

theorem notMem_head?_splitOn (sep : Char) (text : Text) :
    sep ∉ (text.splitOn sep).head?.getD [] := by
  obtain h | ⟨head, rest, rfl, h⟩ := exists_cut sep text
  · simpa [List.splitOn_eq_singleton h] using h
  · simpa [List.splitOn_append_cons_self_of_not_mem h] using h

theorem percent_notMem_candidate (address : Text) : '%' ∉ candidate address := by
  have hhead := notMem_head?_splitOn '%' address
  rw [candidate]
  cases hmatch : mappedMatch ((address.splitOn '%').head?.getD []) with
  | none => exact hhead
  | some rest =>
      obtain ⟨rfl, _⟩ := of_mappedMatch hmatch
      exact fun hmem => hhead (List.mem_of_mem_drop hmem)

end Cuts

section Reading

variable {address entry : Text} {version : IpVersion} {cidr : ParsedCidr}

theorem parseIp_eq (address : Text) : parseIp address =
    match isIP (candidate address) with
    | some .ipv4 => (ipv4ToBigInt (candidate address)).map fun value => some ⟨.ipv4, value⟩
    | some .ipv6 => (ipv6ToBigInt (candidate address)).map fun value => some ⟨.ipv6, value⟩
    | none => .ok none :=
  rfl

theorem parseIp_of_isIP (h : isIP (candidate address) = some version) :
    ∃ value, parseIp address = .ok (some ⟨version, value⟩) := by
  have hpercent := percent_notMem_candidate address
  rw [parseIp_eq, h]
  obtain ⟨rfl, dotted, hdotted⟩ | ⟨rfl, dotted?, spelling, zone, hspelling⟩ := spelled_of_isIP h
  · rw [← hdotted]
    simp only [ipv4ToBigInt_dotted]
    exact ⟨_, rfl⟩
  · cases zone with
    | some zone =>
        rw [← hspelling] at hpercent
        exact absurd (List.mem_append_right _ List.mem_cons_self) hpercent
    | none =>
        rw [Option.map_none, withZone, Option.elim_none, List.append_nil] at hspelling
        rw [← hspelling]
        simp only [ipv6ToBigInt_text]
        exact ⟨_, rfl⟩

theorem isIP_of_parseIp {parsed : ParsedIp} (h : parseIp address = .ok (some parsed)) :
    isIP (candidate address) = some parsed.version := by
  cases hversion : isIP (candidate address) with
  | none =>
      rw [parseIp_eq, hversion] at h
      cases h
  | some version =>
      obtain ⟨value, hparsed⟩ := parseIp_of_isIP hversion
      rw [hparsed] at h
      obtain rfl := Option.some.inj (Except.ok.inj h)
      rfl

/-- The number that a prefix length is read as. -/
def prefixNumber (entry : Text) (version : IpVersion) : Option ℚ :=
  (prefixText? entry).elim (some (version.width : ℚ)) number?

theorem parseCidr_eq (entry : Text) : parseCidr entry =
    match parseIp (addressText entry) with
    | .error thrown => .error thrown
    | .ok none => .error ⟨"Error", "Invalid CIDR entry: " ++ String.ofList entry⟩
    | .ok (some parsed) =>
        match (prefixNumber entry parsed.version).filter (isPrefixLength parsed.version) with
        | none => .error ⟨"Error", "Invalid CIDR prefix: " ++ String.ofList entry⟩
        | some number => .ok ⟨parsed, number.num.toNat⟩ := by
  simp only [parseCidr, prefixNumber, prefixText?, addressText]
  cases (entry.splitOn '/')[1]? <;> rfl

theorem parseCidr_eq_ok_iff : parseCidr entry = .ok cidr ↔
    parseIp (addressText entry) = .ok (some cidr.toParsedIp) ∧
      ∃ number, prefixNumber entry cidr.version = some number ∧
        isPrefixLength cidr.version number ∧ cidr.prefixLength = number.num.toNat := by
  rw [parseCidr_eq]
  constructor
  · intro h
    split at h
    · cases h
    · cases h
    split at h
    · cases h
    · rename_i parsed hparsed _ number hnumber
      obtain ⟨hsome, hwithin⟩ := Option.filter_eq_some_iff.mp hnumber
      obtain rfl := Except.ok.inj h
      exact ⟨hparsed, number, hsome, hwithin, rfl⟩
  · rintro ⟨hparsed, number, hsome, hwithin, hlength⟩
    obtain ⟨parsed, length⟩ := cidr
    obtain rfl : length = number.num.toNat := hlength
    simp only [hparsed, hsome, Option.filter_some_pos hwithin]

theorem readable_iff : Readable entry ↔ ∃ cidr, parseCidr entry = .ok cidr := by
  constructor
  · rintro ⟨version, hversion, hprefix⟩
    obtain ⟨value, hparsed⟩ := parseIp_of_isIP hversion
    obtain ⟨number, hnumber, hwithin⟩ : ∃ number,
        prefixNumber entry version = some number ∧ isPrefixLength version number := by
      rw [prefixNumber]
      cases htext : prefixText? entry with
      | none => exact ⟨version.width, rfl, by simp [isPrefixLength]⟩
      | some digits => exact hprefix digits htext
    exact ⟨⟨⟨version, value⟩, number.num.toNat⟩,
      parseCidr_eq_ok_iff.mpr ⟨hparsed, number, hnumber, hwithin, rfl⟩⟩
  · rintro ⟨cidr, h⟩
    obtain ⟨hparsed, number, hnumber, hwithin, _⟩ := parseCidr_eq_ok_iff.mp h
    refine ⟨cidr.version, isIP_of_parseIp hparsed, fun digits hdigits => ⟨number, ?_, hwithin⟩⟩
    rwa [prefixNumber, hdigits] at hnumber

end Reading

section Grammar

variable {address entry digits : Text} {version : IpVersion} {cidr : ParsedCidr}

theorem isIP_mapped (marker : Marker) (dotted : Dotted) :
    isIP (marker.1 ++ dotted.text) = some .ipv6 := by
  obtain ⟨marker, hmarker⟩ := marker
  obtain ⟨a, b, c, d, e, f, g, rfl⟩ : ∃ a b c d e f g, marker = [a, b, c, d, e, f, g] := by
    have hlength : marker.length = 7 := by simpa using congrArg List.length hmarker
    rcases marker with _ | ⟨a, _ | ⟨b, _ | ⟨c, _ | ⟨d, _ | ⟨e, _ | ⟨f, _ | ⟨g, _ | ⟨h, rest⟩⟩⟩⟩⟩⟩⟩⟩
      <;> simp at hlength ⊢
  simp only [List.map_cons, List.map_nil, List.cons.injEq, and_true] at hmarker
  obtain ⟨ha, hb, hc, hd, he, hf, hg⟩ := hmarker
  have hcolon : ∀ {ch : Char}, ch.toLower = ':' → ch = ':' := by
    intro ch h
    obtain heq | ⟨hupper, hval⟩ := eq_of_toLower h
    · exact heq
    · rw [hval] at hupper
      exact absurd hupper (by decide)
  have hletter : ∀ {ch : Char}, ch.toLower = 'f' → isHexDigit ch := by
    intro ch h
    obtain rfl | ⟨_, hval⟩ := eq_of_toLower h
    · decide
    · obtain rfl : ch = 'F' := Char.ext hval
      decide
  obtain rfl := hcolon ha
  obtain rfl := hcolon hb
  obtain rfl := hcolon hg
  have hgroup : isHexGroup [c, d, e, f] := by
    simp [isHexGroup, hletter hc, hletter hd, hletter he, hletter hf]
  have hspelled := isIP_text
    (Spelling.compressed [] [⟨[c, d, e, f], hgroup⟩] (by simp) : Spelling (some dotted))
  simpa [Spelling.text, pieces, List.intercalate_cons_cons] using hspelled

theorem isIP_of_candidate (hpercent : '%' ∉ address) (h : (isIP (candidate address)).isSome) :
    (isIP address).isSome := by
  have hhead : (address.splitOn '%').head?.getD [] = address := by
    simp [List.splitOn_eq_singleton hpercent]
  rw [candidate, hhead] at h
  cases hmatch : mappedMatch address with
  | none => rwa [hmatch] at h
  | some rest =>
      rw [hmatch, Option.getD_some] at h
      obtain ⟨hrest, hmarker, _, hcolon⟩ := of_mappedMatch hmatch
      obtain ⟨version, hversion⟩ := Option.isSome_iff_exists.mp h
      obtain ⟨_, dotted, hdotted⟩ | ⟨_, _, spelling, _, hspelling⟩ := spelled_of_isIP hversion
      · have haddress : address.take 7 ++ dotted.text = address := by
          rw [hdotted, hrest, List.take_append_drop]
        rw [← haddress, isIP_mapped ⟨address.take 7, hmarker⟩ dotted]
        rfl
      · rw [← hspelling] at hcolon
        exact absurd (List.mem_append_left _ (colon_mem_text spelling)) hcolon

theorem slash_notMem_of_isIP (h : (isIP address).isSome) : '/' ∉ address := by
  obtain ⟨version, hversion⟩ := Option.isSome_iff_exists.mp h
  obtain ⟨_, dotted, rfl⟩ | ⟨_, _, spelling, zone, rfl⟩ := spelled_of_isIP hversion
  · intro hmem
    obtain hch | hch := mem_dotted hmem <;> revert hch <;> decide
  · exact slash_notMem_withZone spelling zone

theorem splitOn_of_isDecimal (hslash : '/' ∉ address) (h : isDecimal digits) :
    (address ++ '/' :: digits).splitOn '/' = [address, digits] := by
  have hnone : '/' ∉ digits := fun hmem => absurd ((of_isDecimal h).2 _ hmem) (by decide)
  rw [List.splitOn_append_cons_self_of_not_mem hslash, List.splitOn_eq_singleton hnone]

theorem value_of_number? {number : ℚ} (hdigits : isDecimal digits)
    (h : number? digits = some number) (hwithin : isPrefixLength version number) :
    digitsValue 10 digits ≤ version.width ∧ number = digitsValue 10 digits := by
  obtain ⟨hne, hdecimal⟩ := of_isDecimal hdigits
  rw [number?_digits hne hdecimal] at h
  simp only [isPrefixLength, Bool.and_eq_true, decide_eq_true_eq] at hwithin
  have hwidth : (version.width : ℚ) < 2 ^ 52 := by
    exact_mod_cast (width_lt version).trans (by decide)
  by_cases hsmall : digitsValue 10 digits < 2 ^ 53
  · rw [double?_natCast hsmall] at h
    obtain rfl := Option.some.inj h
    exact ⟨by exact_mod_cast hwithin.2, rfl⟩
  · have hlarge := le_of_double?_natCast (Nat.not_lt.mp hsmall) h
    exact absurd (hwithin.2.trans_lt hwidth) (not_lt.mpr hlarge)

theorem denotes_iff (h : parseCidr entry = .ok cidr) : Denotes entry cidr ↔ Tidy entry := by
  obtain ⟨hparsed, number, hnumber, hwithin, hlength⟩ := parseCidr_eq_ok_iff.mp h
  have hversion := isIP_of_parseIp hparsed
  constructor
  · rintro ⟨address, haddress, _, ⟨rfl, _⟩ | ⟨digits, hdigits, rfl, _⟩⟩
    · have hsplit := List.splitOn_eq_singleton (slash_notMem_of_isIP haddress)
      refine ⟨by simp [hsplit], by simp [prefixText?, hsplit], fun _ => ?_⟩
      simpa [addressText, hsplit] using haddress
    · have hsplit := splitOn_of_isDecimal (slash_notMem_of_isIP haddress) hdigits
      refine ⟨by simp [hsplit], by simp [prefixText?, hsplit, hdigits], fun _ => ?_⟩
      simpa [addressText, hsplit] using haddress
  · intro htidy
    have haddress : (isIP (addressText entry)).isSome := by
      by_cases hpercent : '%' ∈ addressText entry
      · exact htidy.zone hpercent
      · exact isIP_of_candidate hpercent (by rw [hversion]; rfl)
    have hslash := slash_notMem_of_isIP haddress
    obtain hnone | ⟨head, rest, rfl, hhead⟩ := exists_cut '/' entry
    · have hsplit := List.splitOn_eq_singleton hnone
      have hentry : addressText entry = entry := by simp [addressText, hsplit]
      rw [hentry] at haddress hversion
      refine ⟨entry, haddress, hversion, Or.inl ⟨rfl, ?_⟩⟩
      have hwidth : some (cidr.version.width : ℚ) = some number := by
        simpa [prefixNumber, prefixText?, hsplit] using hnumber
      rw [hlength, ← Option.some.inj hwidth, Rat.num_natCast, Int.toNat_natCast]
    · have hsplit := List.splitOn_append_cons_self_of_not_mem hhead rest
      have hrest : '/' ∉ rest := by
        intro hmem
        obtain ⟨middle, last, rfl, hmiddle⟩ := List.eq_append_cons_of_mem hmem
        have hslashes := htidy.slash
        rw [hsplit, List.splitOn_append_cons_self_of_not_mem hmiddle last] at hslashes
        have hlast := List.length_pos_iff.mpr (List.splitOn_ne_nil '/' last)
        simp only [List.length_cons] at hslashes
        omega
      rw [List.splitOn_eq_singleton hrest] at hsplit
      have hentry : addressText (head ++ '/' :: rest) = head := by simp [addressText, hsplit]
      have hprefix : prefixText? (head ++ '/' :: rest) = some rest := by
        simp [prefixText?, hsplit]
      have hdigits := htidy.digits rest hprefix
      rw [prefixNumber, hprefix, Option.elim_some] at hnumber
      obtain ⟨hwidth, rfl⟩ := value_of_number? hdigits hnumber hwithin
      rw [hentry] at haddress hversion
      refine ⟨head, haddress, hversion, Or.inr ⟨rest, hdigits, rfl, hwidth, ?_⟩⟩
      rw [hlength, Rat.num_natCast, Int.toNat_natCast]

end Grammar

section Configuration

variable {raw : String} {guard : Guard}

theorem mapM_eq_ok_iff {ε α β : Type} {f : α → Except ε β} {xs : List α} {ys : List β} :
    xs.mapM f = .ok ys ↔ List.Forall₂ (fun x y => f x = .ok y) xs ys := by
  induction xs generalizing ys with
  | nil => cases ys <;> simp [pure, Except.pure]
  | cons x xs ih =>
      rw [List.mapM_cons, List.forall₂_cons_left_iff]
      constructor
      · intro h
        cases hx : f x with
        | error thrown =>
            rw [hx] at h
            cases h
        | ok y =>
            cases hxs : xs.mapM f with
            | error thrown =>
                rw [hx, hxs] at h
                cases h
            | ok rest =>
                rw [hx, hxs] at h
                exact ⟨y, rest, rfl, ih.mp hxs, (Except.ok.inj h).symm⟩
      · rintro ⟨y, rest, hx, hrest, rfl⟩
        rw [hx, ih.mpr hrest]
        rfl

/-- A guard is constructed just where every entry is read, and holds what is read. -/
theorem create_eq_ok_iff : Guard.create raw = .ok guard ↔
    List.Forall₂ (fun entry cidr => parseCidr entry = .ok cidr) (entries raw)
      guard.allowedCidrs := by
  rw [Guard.create, ← mapM_eq_ok_iff]
  cases (entries raw).mapM parseCidr with
  | error thrown => simp [Except.map]
  | ok cidrs =>
      obtain ⟨allowedCidrs⟩ := guard
      simp [Except.map]

theorem exists_forall₂_iff {α β : Type} {R : α → β → Prop} {xs : List α} :
    (∃ ys, List.Forall₂ R xs ys) ↔ ∀ x ∈ xs, ∃ y, R x y := by
  induction xs with
  | nil => simp
  | cons x xs ih =>
      simp only [List.forall₂_cons_left_iff, List.forall_mem_cons, ← ih]
      constructor
      · rintro ⟨_, y, ys, hy, hys, _⟩
        exact ⟨⟨y, hy⟩, ys, hys⟩
      · rintro ⟨⟨y, hy⟩, ys, hys⟩
        exact ⟨y :: ys, y, ys, hy, hys, rfl⟩

theorem exists_create_iff :
    (∃ guard, Guard.create raw = .ok guard) ↔ ∀ entry ∈ entries raw, Readable entry := by
  simp only [create_eq_ok_iff, readable_iff, ← exists_forall₂_iff]
  exact ⟨fun ⟨guard, h⟩ => ⟨guard.allowedCidrs, h⟩, fun ⟨cidrs, h⟩ => ⟨⟨cidrs⟩, h⟩⟩

theorem forall₂_denotes_iff {texts : List Text} {cidrs : List ParsedCidr}
    (h : List.Forall₂ (fun entry cidr => parseCidr entry = .ok cidr) texts cidrs) :
    List.Forall₂ Denotes texts cidrs ↔ ∀ entry ∈ texts, Tidy entry := by
  induction h with
  | nil => simp
  | cons hcidr _ ih => rw [List.forall₂_cons, denotes_iff hcidr, ih, List.forall_mem_cons]

/-- A guard accepts networks as they should be written only, just where one of its entries
cannot be read at all or all are tidy. -/
theorem accepts_wellFormed_iff (raw : String) :
    (∀ guard, Guard.create raw = .ok guard →
        List.Forall₂ Denotes (entries raw) guard.allowedCidrs) ↔
      (∃ entry ∈ entries raw, ¬Readable entry) ∨ ∀ entry ∈ entries raw, Tidy entry := by
  by_cases hall : ∀ entry ∈ entries raw, Readable entry
  · obtain ⟨guard, hguard⟩ := exists_create_iff.mpr hall
    have hunreadable : ¬∃ entry ∈ entries raw, ¬Readable entry :=
      fun ⟨entry, hentry, hnot⟩ => hnot (hall entry hentry)
    have hdenotes := forall₂_denotes_iff (create_eq_ok_iff.mp hguard)
    rw [or_iff_right hunreadable, ← hdenotes]
    refine ⟨fun h => h guard hguard, fun h other hother => ?_⟩
    rw [hguard] at hother
    exact Except.ok.inj hother ▸ h
  · have hunreadable : ∃ entry ∈ entries raw, ¬Readable entry := by
      simpa only [not_forall, exists_prop] using hall
    refine iff_of_true (fun guard hguard => ?_) (Or.inl hunreadable)
    exact absurd (exists_create_iff.mp ⟨guard, hguard⟩) hall

/-- A slash with nothing behind it opens the network to every address of its family. -/
theorem not_accepts_wellFormed :
    ¬∀ guard, Guard.create "10.0.0.1/" = .ok guard →
      List.Forall₂ Denotes (entries "10.0.0.1/") guard.allowedCidrs := by
  intro h
  have hguard : Guard.create "10.0.0.1/" = .ok ⟨[⟨⟨.ipv4, 167772161⟩, 0⟩]⟩ := by decide +kernel
  have hentries : entries "10.0.0.1/" = ["10.0.0.1/".toList] := by decide +kernel
  have hdenotes := h _ hguard
  rw [hentries, List.forall₂_cons] at hdenotes
  obtain ⟨address, haddress, _, ⟨hentry, hwidth⟩ | ⟨digits, hdigits, hentry, _⟩⟩ := hdenotes.1
  · cases hwidth
  · have hsplit := splitOn_of_isDecimal (slash_notMem_of_isIP haddress) hdigits
    rw [← hentry, show "10.0.0.1/".toList.splitOn '/' = ["10.0.0.1".toList, []] by decide +kernel]
      at hsplit
    obtain rfl : [] = digits := by simpa using (List.cons.inj hsplit).2
    cases hdigits

end Configuration

end SmsNotification.AllowListGrammar
