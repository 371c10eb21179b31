import Mathlib.Data.Int.Bitwise
import SmsNotification.InternetAddresses

namespace SmsNotification.PrivateNetworkGuard

open SmsNotification.InternetAddresses
open SmsNotification.JavaScriptText

structure ParsedIp where
  version : IpVersion
  value : ℤ
  deriving DecidableEq, Repr

structure ParsedCidr extends ParsedIp where
  prefixLength : Nat
  deriving DecidableEq, Repr

/-- What is thrown. -/
structure Thrown where
  name : String
  message : String
  deriving DecidableEq, Repr

/-- `BigInt` of a number. -/
def toBigInt (number : Option ℚ) : Except Thrown ℤ :=
  match bigInt? number with
  | some value => .ok value
  | none => .error ⟨"RangeError", "The number is not an integer"⟩

def ipv4ToBigInt (address : Text) : Except Thrown ℤ :=
  (address.splitOn '.').foldlM
    (fun accumulator octet =>
      (toBigInt (number? octet)).map fun value => (accumulator <<< (8 : ℕ)) + value) 0

def ipv6ToBigInt (address : Text) : Except Thrown ℤ :=
  let parts := splitOnDouble ':' address
  let head := parts.head?.getD []
  let headGroups := if head.isEmpty then [] else (head.splitOn ':').filter (· ≠ [])
  let tailGroups := match parts[1]? with
    | none => []
    | some tail => (tail.splitOn ':').filter (· ≠ [])
  -- a difference of natural numbers is not negative, as `Math.max` makes the one here
  let missing := 8 - (headGroups.length + tailGroups.length)
  (headGroups ++ List.replicate missing ['0'] ++ tailGroups).foldlM
    (fun accumulator group =>
      (toBigInt (parseHex? group)).map fun value => (accumulator <<< (16 : ℕ)) + value) 0

/-- The pattern `/^::ffff:(\d+\.\d+\.\d+\.\d+)$/i`. -/
def mappedMatch (text : Text) : Option Text :=
  let octets := (text.drop 7).splitOn '.'
  if (text.take 7).map Char.toLower = [':', ':', 'f', 'f', 'f', 'f', ':'] ∧ octets.length = 4 ∧
      octets.all (fun octet => octet ≠ [] && octet.all Char.isDigit) then
    some (text.drop 7)
  else none

def parseIp (address : Text) : Except Thrown (Option ParsedIp) :=
  let withoutZone := (address.splitOn '%').head?.getD []
  let candidate := (mappedMatch withoutZone).getD withoutZone
  match isIP candidate with
  | some .ipv4 => (ipv4ToBigInt candidate).map fun value => some ⟨.ipv4, value⟩
  | some .ipv6 => (ipv6ToBigInt candidate).map fun value => some ⟨.ipv6, value⟩
  | none => .ok none

/-- An integer from 0 to the width. -/
def isPrefixLength (version : IpVersion) (number : ℚ) : Bool :=
  number.den = 1 && 0 ≤ number && number ≤ version.width

def parseCidr (entry : Text) : Except Thrown ParsedCidr :=
  let parts := entry.splitOn '/'
  match parseIp (parts.head?.getD []) with
  | .error thrown => .error thrown
  | .ok none => .error ⟨"Error", "Invalid CIDR entry: " ++ String.ofList entry⟩
  | .ok (some parsed) =>
      let number := match parts[1]? with
        | none => some (parsed.version.width : ℚ)
        | some prefixText => number? prefixText
      match number.filter (isPrefixLength parsed.version) with
      | none => .error ⟨"Error", "Invalid CIDR prefix: " ++ String.ofList entry⟩
      | some number => .ok ⟨parsed, number.num.toNat⟩

def matchesCidr (ip : ParsedIp) (cidr : ParsedCidr) : Bool :=
  if ip.version ≠ cidr.version then false
  else
    let totalBits := ip.version.width
    let hostBits := totalBits - cidr.prefixLength
    let mask : ℤ :=
      if hostBits = 0 then ((1 : ℤ) <<< totalBits) - 1
      else Int.lnot (((1 : ℤ) <<< hostBits) - 1)
    Int.land ip.value mask = Int.land cidr.value mask

structure Guard where
  allowedCidrs : List ParsedCidr
  deriving DecidableEq, Repr

/-- The entries of `PRIVATE_NETWORK_CIDRS`. -/
def entries (raw : String) : List Text :=
  ((raw.toList.splitOn ',').map trim).filter (· ≠ [])

/-- The constructor. -/
def Guard.create (raw : String) : Except Thrown Guard :=
  ((entries raw).mapM parseCidr).map Guard.mk

/-- The addresses of a request: the one of its socket, and the one that the framework
gives it. -/
structure Request where
  remoteAddress : Option String
  ip : Option String

def Request.rawIp (request : Request) : Option String :=
  request.remoteAddress.or request.ip

def forbidden : Thrown :=
  ⟨"ForbiddenException", "Caller is not within an allowed private network"⟩

def Guard.canActivate (guard : Guard) (request : Request) : Except Thrown Bool :=
  -- an empty text is none
  match (request.rawIp.filter (· ≠ "")).elim (.ok none) fun rawIp => parseIp rawIp.toList with
  | .error thrown => .error thrown
  | .ok parsed =>
      if parsed.any fun ip => guard.allowedCidrs.any (matchesCidr ip) then .ok true
      else .error forbidden

section Values

variable {α : Type}

theorem foldlM_of_read (bits : Nat) {read : α → Except Thrown ℤ} {value : α → Nat} {xs : List α}
    (h : ∀ x ∈ xs, read x = .ok (value x : ℤ)) (start : Nat) :
    xs.foldlM (fun (accumulator : ℤ) x =>
        (read x).map fun number => (accumulator <<< bits) + number) (start : ℤ) =
      .ok ((valueFrom (2 ^ bits) start (xs.map value) : Nat) : ℤ) := by
  induction xs generalizing start with
  | nil => rfl
  | cons x xs ih =>
      have hstep : ((start : ℤ) <<< bits) + (value x : ℤ) =
          ((start * 2 ^ bits + value x : Nat) : ℤ) := by
        rw [Int.shiftLeft_eq]
        push_cast
        rfl
      rw [List.foldlM_cons, h x List.mem_cons_self, List.map_cons, valueFrom, List.foldl_cons]
      change List.foldlM _ (((start : ℤ) <<< bits) + (value x : ℤ)) xs = _
      rw [hstep]
      exact ih (fun y hy => h y (List.mem_cons_of_mem _ hy)) _

theorem toBigInt_natCast (n : Nat) : toBigInt (some (n : ℚ)) = .ok (n : ℤ) := by
  rw [toBigInt, bigInt?_natCast]

theorem ipv4ToBigInt_dotted (dotted : Dotted) :
    ipv4ToBigInt dotted.text = .ok (dotted.value : ℤ) := by
  have hread : ∀ octet ∈ dotted.octets.map Subtype.val,
      toBigInt (number? octet) = .ok (digitsValue 10 octet : ℤ) := by
    intro text htext
    obtain ⟨octet, _, rfl⟩ := List.mem_map.mp htext
    have hvalue : digitsValue 10 octet.1 < 2 ^ 53 :=
      (octet_value_le octet).trans_lt (by decide)
    rw [number?_digits (octet_ne_nil octet) fun ch => isDigit_of_octet, double?_natCast hvalue,
      toBigInt_natCast]
  have hfold := foldlM_of_read 8 hread 0
  rw [Nat.cast_zero, List.map_map] at hfold
  rw [ipv4ToBigInt, splitOn_dotted]
  exact hfold

/-- The number that a piece of an address is read as. -/
def pieceValue (piece : Text) : Nat :=
  digitsValue 16 (piece.takeWhile isHexDigit)

/-- The groups that are read of a spelling of version 6: a dotted end counts as one. -/
def readGroups {dotted? : Option Dotted} : Spelling dotted? → List Nat
  | .full groups _ =>
      (pieces groups dotted?).map pieceValue ++
        List.replicate (8 - (pieces groups dotted?).length) 0
  | .compressed head tail _ =>
      (pieces head none).map pieceValue ++
        List.replicate (8 - ((pieces head none).length + (pieces tail dotted?).length)) 0 ++
        (pieces tail dotted?).map pieceValue

theorem takeWhile_group (group : Group) : group.1.takeWhile isHexDigit = group.1 :=
  List.takeWhile_eq_self_iff.mpr fun _ => isHexDigit_of_group

theorem parseHex?_group (group : Group) :
    parseHex? group.1 = some (pieceValue group.1 : ℚ) := by
  have h : parseHex? (group.1 ++ []) = some (digitsValue 16 group.1 : ℚ) :=
    parseHex?_append (group_ne_nil group) (fun _ => isHexDigit_of_group) (group_length_le group)
      (by simp) (by simp)
  rw [List.append_nil] at h
  rw [pieceValue, takeWhile_group, h]

theorem takeWhile_dotted (first : Octet) (rest : Text) :
    (first.1 ++ '.' :: rest).takeWhile isHexDigit = first.1 := by
  rw [List.takeWhile_append_of_pos fun ch hch => isHexDigit_of_isDigit (isDigit_of_octet hch),
    List.takeWhile_cons_of_neg (by decide), List.append_nil]

theorem parseHex?_dotted (dotted : Dotted) :
    parseHex? dotted.text = some (pieceValue dotted.text : ℚ) := by
  obtain ⟨first, rest, htext, _⟩ := exists_dotted_eq dotted
  rw [pieceValue, htext, takeWhile_dotted]
  refine parseHex?_append (octet_ne_nil first)
    (fun ch hch => isHexDigit_of_isDigit (isDigit_of_octet hch))
    ((octet_length_le first).trans (by decide)) ?_ ?_
  · simp [isHexDigit]
  · simp

theorem parseHex?_piece {groups : List Group} {dotted? : Option Dotted} {piece : Text}
    (h : piece ∈ pieces groups dotted?) : parseHex? piece = some (pieceValue piece : ℚ) := by
  rcases List.mem_append.mp h with h | h
  · obtain ⟨group, _, rfl⟩ := List.mem_map.mp h
    exact parseHex?_group group
  · obtain ⟨dotted, _, rfl⟩ := List.mem_map.mp h
    exact parseHex?_dotted dotted

theorem parseHex?_zero : parseHex? ['0'] = some (pieceValue ['0'] : ℚ) :=
  parseHex?_group ⟨['0'], by decide⟩

theorem filter_splitOn_pieces (groups : List Group) (dotted? : Option Dotted) :
    (([':'].intercalate (pieces groups dotted?)).splitOn ':').filter (· ≠ []) =
      pieces groups dotted? := by
  by_cases hnil : pieces groups dotted? = []
  · rw [hnil]
    rfl
  · rw [splitOn_pieces hnil, List.filter_eq_self]
    exact fun piece hpiece => decide_eq_true (mem_pieces hpiece).1

theorem ite_isEmpty_pieces (groups : List Group) (dotted? : Option Dotted) :
    (if ([':'].intercalate (pieces groups dotted?)).isEmpty then []
      else pieces groups dotted?) = pieces groups dotted? := by
  split
  · rename_i hnil
    exact (intercalate_pieces_eq_nil.mp (List.isEmpty_iff.mp hnil)).symm
  · rfl

theorem ipv6ToBigInt_text {dotted? : Option Dotted} (spelling : Spelling dotted?) :
    ipv6ToBigInt spelling.text = .ok (valueOf 65536 (readGroups spelling) : ℤ) := by
  have hfold : ∀ texts : List Text, (∀ text ∈ texts, parseHex? text = some (pieceValue text : ℚ)) →
      texts.foldlM (fun (accumulator : ℤ) text =>
        (toBigInt (parseHex? text)).map fun value => (accumulator <<< (16 : ℕ)) + value) 0 =
      .ok (valueOf 65536 (texts.map pieceValue) : ℤ) := by
    intro texts htexts
    have hread : ∀ text ∈ texts, toBigInt (parseHex? text) = .ok (pieceValue text : ℤ) := by
      intro text htext
      rw [htexts text htext, toBigInt_natCast]
    have hfold := foldlM_of_read 16 hread 0
    rwa [Nat.cast_zero] at hfold
  have hzeros : ∀ n, ∀ text ∈ List.replicate n ['0'],
      parseHex? text = some (pieceValue text : ℚ) := by
    intro n text htext
    rw [List.eq_of_mem_replicate htext]
    exact parseHex?_zero
  have hzero : pieceValue ['0'] = 0 := by decide
  cases spelling with
  | full groups h =>
      rw [ipv6ToBigInt, Spelling.text, splitOnDouble_pieces]
      simp only [List.head?_cons, Option.getD_some, filter_splitOn_pieces, ite_isEmpty_pieces,
        List.getElem?_cons_succ, List.getElem?_nil, List.length_nil, Nat.add_zero, List.append_nil]
      rw [hfold, readGroups, List.map_append, List.map_replicate, hzero]
      intro text htext
      rcases List.mem_append.mp htext with htext | htext
      · exact parseHex?_piece htext
      · exact hzeros _ text htext
  | compressed head tail h =>
      rw [ipv6ToBigInt, Spelling.text, splitOnDouble_compressed]
      simp only [List.head?_cons, Option.getD_some, filter_splitOn_pieces, ite_isEmpty_pieces,
        List.getElem?_cons_succ, List.getElem?_cons_zero]
      rw [hfold, readGroups, List.map_append, List.map_append, List.map_replicate, hzero]
      intro text htext
      simp only [List.mem_append] at htext
      obtain (htext | htext) | htext := htext
      · exact parseHex?_piece htext
      · exact hzeros _ text htext
      · exact parseHex?_piece htext

theorem readGroups_hexadecimal (spelling : Spelling none) :
    readGroups spelling = spelling.groups := by
  have hmap : ∀ groups : List Group,
      (pieces groups none).map pieceValue = groups.map Group.value := by
    intro groups
    rw [pieces, Option.toList_none, List.map_nil, List.append_nil, List.map_map]
    refine List.map_congr_left fun group _ => ?_
    rw [Function.comp_apply, pieceValue, takeWhile_group, Group.value]
  cases spelling with
  | full groups h =>
      have hlength : groups.length = 8 := by simpa using h
      simp [readGroups, Spelling.groups, hmap, length_pieces, hlength]
  | compressed head tail h =>
      simp [readGroups, Spelling.groups, hmap, length_pieces]

end Values

section Addresses

variable {body : Text} {dotted? : Option Dotted}

theorem percent_notMem_dotted (dotted : Dotted) : '%' ∉ dotted.text := by
  intro h
  obtain h | h := mem_dotted h
  · exact absurd h (by decide)
  · exact absurd h (by decide)

/-- The text `::ffff:` in any case. -/
abbrev Marker :=
  { text : Text // text.map Char.toLower = [':', ':', 'f', 'f', 'f', 'f', ':'] }

theorem length_marker (marker : Marker) : marker.1.length = 7 := by
  simpa using congrArg List.length marker.2

theorem mappedMatch_marker (marker : Marker) (dotted : Dotted) :
    mappedMatch (marker.1 ++ dotted.text) = some dotted.text := by
  have htake : (marker.1 ++ dotted.text).take 7 = marker.1 := by
    rw [← length_marker marker, List.take_left]
  have hdrop : (marker.1 ++ dotted.text).drop 7 = dotted.text := by
    rw [← length_marker marker, List.drop_left]
  have hall : (dotted.octets.map Subtype.val).all
      (fun octet => octet ≠ [] && octet.all Char.isDigit) := by
    rw [List.all_eq_true]
    intro text htext
    obtain ⟨octet, _, rfl⟩ := List.mem_map.mp htext
    simp only [octet_ne_nil octet, ne_eq, not_false_eq_true, decide_true, Bool.true_and,
      List.all_eq_true]
    exact fun ch => isDigit_of_octet
  simp only [mappedMatch, htake, hdrop, marker.2, splitOn_dotted, List.length_map, dotted.length,
    hall, and_self, if_true]

theorem of_mappedMatch {text rest : Text} (h : mappedMatch text = some rest) :
    rest = text.drop 7 ∧ (text.take 7).map Char.toLower = [':', ':', 'f', 'f', 'f', 'f', ':'] ∧
      '.' ∈ rest ∧ ':' ∉ rest := by
  simp only [mappedMatch] at h
  split at h
  · rename_i hmatch
    obtain ⟨hmarker, hlength, hall⟩ := hmatch
    obtain rfl := Option.some.inj h
    refine ⟨rfl, hmarker, ?_, fun hcolon => ?_⟩
    · by_contra hdot
      rw [List.splitOn_eq_singleton hdot] at hlength
      cases hlength
    · have hjoin : ['.'].intercalate ((text.drop 7).splitOn '.') = text.drop 7 :=
        List.intercalate_splitOn '.'
      rw [← hjoin] at hcolon
      obtain heq | ⟨piece, hpiece, hmem⟩ := mem_of_mem_intercalate hcolon
      · cases heq
      · have hdigits := List.all_eq_true.mp hall piece hpiece
        simp only [Bool.and_eq_true, List.all_eq_true] at hdigits
        exact absurd (hdigits.2 _ hmem) (by decide)
  · cases h

theorem mappedMatch_of_notMem {text : Text} (h : '.' ∉ text) : mappedMatch text = none := by
  cases hmatch : mappedMatch text with
  | none => rfl
  | some rest =>
      obtain ⟨rfl, _, hdot, _⟩ := of_mappedMatch hmatch
      exact absurd (List.mem_of_mem_drop hdot) h

theorem mappedMatch_dotted (dotted : Dotted) : mappedMatch dotted.text = none := by
  cases hmatch : mappedMatch dotted.text with
  | none => rfl
  | some rest =>
      obtain ⟨_, hmarker, _, _⟩ := of_mappedMatch hmatch
      obtain ⟨first, rest, htext, _⟩ := exists_dotted_eq dotted
      obtain ⟨ch, others, hfirst⟩ := List.exists_cons_of_ne_nil (octet_ne_nil first)
      have hdigit : ch.isDigit := isDigit_of_octet (hfirst ▸ List.mem_cons_self)
      rw [htext, hfirst] at hmarker
      have hlower : ch.toLower = ':' := by simpa using congrArg List.head? hmarker
      obtain rfl | ⟨hupper, hval⟩ := eq_of_toLower hlower
      · cases hdigit
      · rw [hval] at hupper
        exact absurd hupper (by decide)

theorem parseIp_dotted (dotted : Dotted) (zone : Option Text) :
    parseIp (withZone dotted.text zone) = .ok (some ⟨.ipv4, dotted.value⟩) := by
  rw [parseIp, splitOn_withZone (percent_notMem_dotted dotted)]
  simp only [List.head?_cons, Option.getD_some, mappedMatch_dotted, Option.getD_none, isIP_dotted,
    ipv4ToBigInt_dotted]
  rfl

theorem parseIp_mapped (marker : Marker) (dotted : Dotted) (zone : Option Text) :
    parseIp (withZone (marker.1 ++ dotted.text) zone) = .ok (some ⟨.ipv4, dotted.value⟩) := by
  have hpercent : '%' ∉ marker.1 ++ dotted.text := by
    intro h
    rcases List.mem_append.mp h with h | h
    · have hlower : '%' ∈ marker.1.map Char.toLower := List.mem_map.mpr ⟨'%', h, by decide⟩
      rw [marker.2] at hlower
      exact absurd hlower (by decide)
    · exact percent_notMem_dotted dotted h
  rw [parseIp, splitOn_withZone hpercent]
  simp only [List.head?_cons, mappedMatch_marker, Option.getD_some, isIP_dotted,
    ipv4ToBigInt_dotted]
  rfl

theorem parseIp_text (spelling : Spelling dotted?) (h : mappedMatch spelling.text = none)
    (zone : Option Text) : parseIp (withZone spelling.text zone) =
      .ok (some ⟨.ipv6, (valueOf 65536 (readGroups spelling) : ℤ)⟩) := by
  rw [parseIp, splitOn_withZone (percent_notMem_text spelling)]
  simp only [List.head?_cons, Option.getD_some, h, Option.getD_none, isIP_text, ipv6ToBigInt_text]
  rfl

theorem dot_notMem_text (spelling : Spelling none) : '.' ∉ spelling.text := by
  have hpieces : ∀ groups : List Group, '.' ∉ [':'].intercalate (pieces groups none) := by
    intro groups h
    obtain heq | ⟨piece, hpiece, hmem⟩ := mem_of_mem_intercalate h
    · cases heq
    · rw [pieces, Option.toList_none, List.map_nil, List.append_nil] at hpiece
      obtain ⟨group, _, rfl⟩ := List.mem_map.mp hpiece
      exact notMem_group (by decide) hmem
  cases spelling with
  | full groups _ => exact hpieces groups
  | compressed head tail _ => simp [Spelling.text, hpieces]

theorem parseIp_hexadecimal (spelling : Spelling none) (zone : Option Text) :
    parseIp (withZone spelling.text zone) = .ok (some ⟨.ipv6, spelling.value⟩) := by
  rw [parseIp_text spelling (mappedMatch_of_notMem (dot_notMem_text spelling)),
    readGroups_hexadecimal]
  rfl

end Addresses

section Decisions

variable {text : Text} {request : Request}

theorem canActivate_rawIp (guard : Guard) (hne : text ≠ [])
    (h : request.rawIp = some (String.ofList text)) :
    guard.canActivate request = (parseIp text).bind fun parsed =>
      if parsed.any fun ip => guard.allowedCidrs.any (matchesCidr ip) then .ok true
      else .error forbidden := by
  have hnonempty : String.ofList text ≠ "" := by
    intro heq
    have hnil := congrArg String.toList heq
    rw [String.toList_ofList] at hnil
    exact hne hnil
  rw [Guard.canActivate, h, Option.filter_some_pos (by simp [hnonempty])]
  simp only [Option.elim_some, String.toList_ofList]
  cases parseIp text <;> rfl

end Decisions

section Cidrs

variable {address digits : Text} {parsed : ParsedIp}

/-- The texts of prefix lengths. -/
def isDecimal (digits : Text) : Bool :=
  digits ≠ [] && digits.all Char.isDigit

theorem of_isDecimal (h : isDecimal digits) : digits ≠ [] ∧ ∀ ch ∈ digits, ch.isDigit := by
  simpa [isDecimal] using h

theorem width_lt (version : IpVersion) : version.width < 2 ^ 8 := by
  cases version <;> decide

theorem filter_isPrefixLength {version : IpVersion} {n : Nat} (h : n ≤ version.width) :
    (some (n : ℚ)).filter (isPrefixLength version) = some (n : ℚ) :=
  Option.filter_some_pos (by simp [isPrefixLength, h])

theorem parseCidr_address (hslash : '/' ∉ address) (h : parseIp address = .ok (some parsed)) :
    parseCidr address = .ok ⟨parsed, parsed.version.width⟩ := by
  simp only [parseCidr, List.splitOn_eq_singleton hslash, List.head?_cons, Option.getD_some, h,
    List.getElem?_cons_succ, List.getElem?_nil, filter_isPrefixLength le_rfl, Rat.num_natCast,
    Int.toNat_natCast]

theorem parseCidr_slash (hslash : '/' ∉ address) (h : parseIp address = .ok (some parsed))
    (hdigits : isDecimal digits) (hwidth : digitsValue 10 digits ≤ parsed.version.width) :
    parseCidr (address ++ '/' :: digits) = .ok ⟨parsed, digitsValue 10 digits⟩ := by
  obtain ⟨hne, hdecimal⟩ := of_isDecimal hdigits
  have hnone : '/' ∉ digits := fun hmem => absurd (hdecimal _ hmem) (by decide)
  have hsmall : digitsValue 10 digits < 2 ^ 53 :=
    (hwidth.trans_lt (width_lt _)).trans (by decide)
  simp only [parseCidr, List.splitOn_append_cons_self_of_not_mem hslash,
    List.splitOn_eq_singleton hnone, List.head?_cons, Option.getD_some, h,
    List.getElem?_cons_succ, List.getElem?_cons_zero, number?_digits hne hdecimal,
    double?_natCast hsmall, filter_isPrefixLength hwidth, Rat.num_natCast, Int.toNat_natCast]

end Cidrs

end SmsNotification.PrivateNetworkGuard
