import SmsNotification.PrivateNetworkGuard

namespace SmsNotification.MixedSpellings

open SmsNotification.InternetAddresses
open SmsNotification.JavaScriptText
open SmsNotification.PrivateNetworkGuard

/-- The groups that are written between `::` and the dotted end. -/
def groupsBehindGap {dotted? : Option Dotted} : Spelling dotted? → List Group
  | .full _ _ => []
  | .compressed _ tail _ => tail

section Misreading

theorem octet_misread_le (octet : Octet) : digitsValue 16 octet.1 ≤ 3 * octet.value := by
  have hlength := octet_length_le octet
  rw [Octet.value]
  generalize octet.1 = digits at hlength ⊢
  rcases digits with _ | ⟨x, _ | ⟨y, _ | ⟨z, _ | ⟨w, rest⟩⟩⟩⟩
  · exact Nat.zero_le _
  · simp only [digitsValue, List.foldl_cons, List.foldl_nil]
    omega
  · simp only [digitsValue, List.foldl_cons, List.foldl_nil]
    omega
  · simp only [digitsValue, List.foldl_cons, List.foldl_nil]
    omega
  · simp only [List.length_cons] at hlength
    omega

theorem dotted_misread_le (dotted : Dotted) :
    pieceValue dotted.text ≤ 3 * (dotted.value / 2 ^ 24) := by
  obtain ⟨first, rest, htext, hfirst⟩ := exists_dotted_eq dotted
  have hread : pieceValue dotted.text = digitsValue 16 first.1 := by
    rw [pieceValue, htext, takeWhile_dotted]
  obtain ⟨octets, hlength⟩ := dotted
  obtain ⟨a, b, c, d, rfl⟩ : ∃ a b c d, octets = [a, b, c, d] := by
    rcases octets with _ | ⟨a, _ | ⟨b, _ | ⟨c, _ | ⟨d, _ | ⟨e, rest⟩⟩⟩⟩⟩ <;> simp at hlength ⊢
  obtain rfl : a = first := Option.some.inj hfirst
  have hvalue : Dotted.value ⟨[a, b, c, d], hlength⟩ =
      ((a.value * 256 + b.value) * 256 + c.value) * 256 + d.value := by
    simp [Dotted.value, valueOf, valueFrom]
  have hb := octet_value_le b
  have hc := octet_value_le c
  have hd := octet_value_le d
  rw [hread, hvalue]
  refine (octet_misread_le a).trans ?_
  omega

theorem zero_cons_append_iff {xs : List Nat} {last high low : Nat} :
    0 :: (xs ++ [last]) = xs ++ [high, low] ↔ (∀ x ∈ xs, x = 0) ∧ high = 0 ∧ last = low := by
  induction xs with
  | nil => simp [eq_comm]
  | cons x xs ih =>
      simp only [List.cons_append, List.cons.injEq, List.mem_cons, forall_eq_or_imp]
      constructor
      · rintro ⟨rfl, h⟩
        obtain ⟨hxs, hlast⟩ := ih.mp h
        exact ⟨⟨rfl, hxs⟩, hlast⟩
      · rintro ⟨⟨rfl, hxs⟩, hlast⟩
        exact ⟨rfl, ih.mpr ⟨hxs, hlast⟩⟩

variable {dotted : Dotted}

theorem map_pieceValue_none (groups : List Group) :
    (pieces groups none).map pieceValue = groups.map Group.value := by
  rw [pieces, Option.toList_none, List.map_nil, List.append_nil, List.map_map]
  refine List.map_congr_left fun group _ => ?_
  rw [Function.comp_apply, pieceValue, takeWhile_group, Group.value]

theorem map_pieceValue_some (groups : List Group) (dotted : Dotted) :
    (pieces groups (some dotted)).map pieceValue =
      groups.map Group.value ++ [pieceValue dotted.text] := by
  rw [← map_pieceValue_none]
  simp [pieces]

theorem readGroups_eq_iff (mixed : Spelling (some dotted)) :
    readGroups mixed = mixed.groups ↔
      dotted.value = 0 ∧ ∀ group ∈ groupsBehindGap mixed, group.value = 0 := by
  have hmisread := dotted_misread_le dotted
  have hvalue := dotted.value_lt
  cases mixed with
  | full groups h =>
      have hlength : groups.length = 6 := by simpa using h
      simp only [readGroups, Spelling.groups, map_pieceValue_some, length_pieces, hlength,
        Option.toList_some, List.length_singleton, List.flatMap_singleton, Dotted.groups,
        groupsBehindGap, List.append_assoc, List.append_cancel_left_eq]
      simp only [Nat.reduceAdd, Nat.reduceSub, List.replicate_one, List.cons_append,
        List.nil_append, List.cons.injEq, and_true, List.not_mem_nil, false_imp_iff,
        implies_true]
      omega
  | compressed head tail h =>
      have hcount : head.length + tail.length ≤ 5 := by simpa using h
      have hgap : 8 - (head.length + (tail.length + 1)) = 8 - (head.length + tail.length + 2) + 1 :=
        by omega
      simp only [readGroups, Spelling.groups, map_pieceValue_some, map_pieceValue_none,
        length_pieces, Option.toList_some, Option.toList_none, List.length_nil,
        List.length_singleton, List.flatMap_singleton, Dotted.groups, groupsBehindGap,
        List.append_assoc, List.append_cancel_left_eq, Nat.add_zero, Nat.mul_one]
      rw [hgap, List.replicate_succ', List.append_assoc, List.append_cancel_left_eq,
        List.singleton_append, zero_cons_append_iff, List.forall_mem_map]
      constructor
      · rintro ⟨htail, hhigh, hlow⟩
        exact ⟨by omega, htail⟩
      · rintro ⟨hzero, htail⟩
        exact ⟨htail, by omega, by omega⟩

theorem length_readGroups (mixed : Spelling (some dotted)) : (readGroups mixed).length = 8 := by
  cases mixed with
  | full groups h =>
      have hlength : groups.length = 6 := by simpa using h
      simp [readGroups, length_pieces, hlength]
  | compressed head tail h =>
      have hcount : head.length + tail.length ≤ 5 := by simpa using h
      simp only [readGroups, List.length_append, List.length_map, List.length_replicate,
        length_pieces, Option.toList_some, Option.toList_none, List.length_singleton,
        List.length_nil]
      omega

theorem lt_of_mem_readGroups {mixed : Spelling (some dotted)} {group : Nat}
    (h : group ∈ readGroups mixed) : group < 65536 := by
  have hpieces : ∀ {groups : List Group} {dotted? : Option Dotted},
      group ∈ (pieces groups dotted?).map pieceValue → group < 65536 := by
    intro groups dotted? h
    obtain ⟨piece, hpiece, rfl⟩ := List.mem_map.mp h
    rcases List.mem_append.mp hpiece with hpiece | hpiece
    · obtain ⟨spelled, _, rfl⟩ := List.mem_map.mp hpiece
      rw [pieceValue, takeWhile_group]
      exact group_value_lt spelled
    · obtain ⟨dotted, _, rfl⟩ := List.mem_map.mp hpiece
      have hmisread := dotted_misread_le dotted
      have hvalue := dotted.value_lt
      omega
  cases mixed with
  | full groups _ =>
      obtain h | h := List.mem_append.mp h
      · exact hpieces h
      · rw [List.eq_of_mem_replicate h]
        decide
  | compressed head tail _ =>
      simp only [readGroups, List.mem_append] at h
      obtain (h | h) | h := h
      · exact hpieces h
      · rw [List.eq_of_mem_replicate h]
        decide
      · exact hpieces h

end Misreading

section Mapped

variable {dotted : Dotted} {dotted? : Option Dotted}

theorem colon_notMem_head? (groups : List Group) (dotted? : Option Dotted) :
    ':' ∉ ([':'].intercalate (pieces groups dotted?)).head? :=
  (undoubled_intercalate fun piece (hpiece : piece ∈ pieces groups dotted?) =>
    ⟨(mem_pieces hpiece).1, colon_notMem_pieces hpiece⟩).2.2

theorem head?_intercalate {piece : Text} (pieces : List Text) (h : piece ≠ []) :
    ([':'].intercalate (piece :: pieces)).head? = piece.head? := by
  cases pieces with
  | nil => rw [List.intercalate_singleton]
  | cons next pieces =>
      rw [List.intercalate_cons_cons, List.append_assoc, List.head?_append_of_ne_nil _ h]

theorem exists_group_of_mappedMatch {mixed : Spelling (some dotted)} {rest : Text}
    (h : mappedMatch mixed.text = some rest) :
    ∃ group ∈ groupsBehindGap mixed, group.value ≠ 0 := by
  obtain ⟨_, hmarker, _, _⟩ := of_mappedMatch h
  have hat : ∀ i < 7, mixed.text[i]?.map Char.toLower =
      [':', ':', 'f', 'f', 'f', 'f', ':'][i]? := by
    intro i hi
    rw [← hmarker, List.getElem?_map, List.getElem?_take_of_lt hi]
  obtain ⟨first, hfirst, hlower⟩ := Option.map_eq_some_iff.mp (hat 0 (by decide))
  obtain ⟨third, hthird, hlower'⟩ := Option.map_eq_some_iff.mp (hat 2 (by decide))
  obtain rfl : first = ':' := by
    obtain heq | ⟨hupper, hval⟩ := eq_of_toLower hlower
    · exact heq
    · rw [hval] at hupper
      exact absurd hupper (by decide)
  have hletter : third = 'f' ∨ third = 'F' := by
    obtain heq | ⟨_, hval⟩ := eq_of_toLower hlower'
    · exact Or.inl heq
    · exact Or.inr (Char.ext hval)
  rw [← List.head?_eq_getElem?] at hfirst
  cases mixed with
  | full groups _ => exact absurd hfirst (colon_notMem_head? groups _)
  | compressed head tail _ =>
      have hhead : [':'].intercalate (pieces head none) = [] := by
        by_contra hne
        rw [Spelling.text, List.head?_append_of_ne_nil _ hne] at hfirst
        exact colon_notMem_head? head none hfirst
      rw [Spelling.text, hhead] at hthird
      change ([':'].intercalate (pieces tail (some dotted)))[0]? = some third at hthird
      rw [← List.head?_eq_getElem?] at hthird
      cases tail with
      | nil =>
          obtain ⟨octet, rest, htext, _⟩ := exists_dotted_eq dotted
          have hpieces : pieces [] (some dotted) = [dotted.text] := rfl
          rw [hpieces, List.intercalate_singleton, htext,
            List.head?_append_of_ne_nil _ (octet_ne_nil octet)] at hthird
          have hdigit : third.isDigit := isDigit_of_octet (List.mem_of_mem_head? hthird)
          obtain rfl | rfl := hletter <;> cases hdigit
      | cons group tail =>
          rw [pieces, List.map_cons, List.cons_append,
            head?_intercalate _ (group_ne_nil group)] at hthird
          obtain ⟨others, hgroup⟩ := List.head?_eq_some_iff.mp hthird
          have hpos : 0 < digitValue third := by
            obtain rfl | rfl := hletter <;> decide
          refine ⟨group, List.mem_cons_self, Nat.ne_of_gt ?_⟩
          rw [Group.value, hgroup, digitsValue_cons]
          positivity

end Mapped

/-- The guard makes no difference between two texts: they are parsed alike, every guard
decides alike about them, and networks that are written with them are the same. -/
structure ReadAlike (text text' : Text) : Prop where
  parsed : parseIp text = parseIp text'
  decisions : ∀ (guard : Guard) (request request' : Request),
    request.rawIp = some (String.ofList text) → request'.rawIp = some (String.ofList text') →
      guard.canActivate request = guard.canActivate request'
  networks : ∀ prefixText : Option Text,
    (parseCidr (text ++ prefixText.elim [] ('/' :: ·))).toOption =
      (parseCidr (text' ++ prefixText.elim [] ('/' :: ·))).toOption

section Agreement

variable {dotted : Dotted} {dotted? : Option Dotted} {text text' : Text}

theorem readAlike_of_parsed (hne : text ≠ []) (hne' : text' ≠ []) (hslash : '/' ∉ text)
    (hslash' : '/' ∉ text') (h : parseIp text = parseIp text') : ReadAlike text text' where
  parsed := h
  decisions guard request request' hrequest hrequest' := by
    rw [canActivate_rawIp guard hne hrequest, canActivate_rawIp guard hne' hrequest', h]
  networks prefixText := by
    have hsplit : ∀ {text : Text}, '/' ∉ text →
        (text ++ prefixText.elim [] ('/' :: ·)).splitOn '/' =
          text :: prefixText.elim [] (·.splitOn '/') := by
      intro text hslash
      cases prefixText with
      | none => simp [List.splitOn_eq_singleton hslash]
      | some digits => simp [List.splitOn_append_cons_self_of_not_mem hslash]
    simp only [parseCidr, hsplit hslash, hsplit hslash', List.head?_cons, Option.getD_some,
      List.getElem?_cons_succ, h]
    cases parseIp text' with
    | error thrown => rfl
    | ok parsed =>
        cases parsed with
        | none => rfl
        | some parsed =>
            dsimp only
            generalize Option.filter (isPrefixLength parsed.version) _ = number
            cases number <;> rfl

theorem withZone_ne_nil (spelling : Spelling dotted?) (zone : Option Text) :
    withZone spelling.text zone ≠ [] := by
  intro h
  have hcolon := colon_mem_text spelling
  rw [(List.append_eq_nil_iff.mp h).1] at hcolon
  cases hcolon

theorem parseIp_ne_of_mappedMatch {spelling : Spelling dotted?} {rest : Text}
    (h : mappedMatch spelling.text = some rest) (zone : Option Text) (value : ℤ) :
    parseIp (withZone spelling.text zone) ≠ .ok (some ⟨.ipv6, value⟩) := by
  obtain ⟨_, _, _, hcolon⟩ := of_mappedMatch h
  rw [parseIp, splitOn_withZone (percent_notMem_text spelling)]
  simp only [List.head?_cons, Option.getD_some, h]
  cases hversion : isIP rest with
  | none => simp
  | some version =>
      obtain ⟨rfl, _⟩ | ⟨_, _, spelled, _, rfl⟩ := spelled_of_isIP hversion
      · cases ipv4ToBigInt rest <;> simp [Except.map]
      · exact absurd (List.mem_append_left _ (colon_mem_text spelled)) hcolon

/-- Two spellings of one address of version 6, one with a dotted end and one without, are
read alike just where nothing but zeros is written from the `::`, or else from the dotted
end, on. -/
theorem readAlike_iff (mixed : Spelling (some dotted)) (hexadecimal : Spelling none)
    (zone zone' : Option Zone) (h : mixed.value = hexadecimal.value) :
    ReadAlike (withZone mixed.text (zone.map Subtype.val))
        (withZone hexadecimal.text (zone'.map Subtype.val)) ↔
      dotted.value = 0 ∧ ∀ group ∈ groupsBehindGap mixed, group.value = 0 := by
  have hread : parseIp (withZone mixed.text (zone.map Subtype.val)) =
        parseIp (withZone hexadecimal.text (zone'.map Subtype.val)) ↔
      dotted.value = 0 ∧ ∀ group ∈ groupsBehindGap mixed, group.value = 0 := by
    rw [parseIp_hexadecimal hexadecimal, ← h]
    cases hmatch : mappedMatch mixed.text with
    | some rest =>
        obtain ⟨group, hgroup, hvalue⟩ := exists_group_of_mappedMatch hmatch
        exact ⟨fun heq => absurd heq (parseIp_ne_of_mappedMatch hmatch _ _),
          fun hzero => absurd (hzero.2 group hgroup) hvalue⟩
    | none =>
        rw [parseIp_text mixed hmatch, ← readGroups_eq_iff mixed]
        have hvalues : valueOf 65536 (readGroups mixed) = valueOf 65536 mixed.groups ↔
            readGroups mixed = mixed.groups :=
          valueOf_inj (by decide) ((length_readGroups mixed).trans mixed.length_groups.symm)
            (fun _ => lt_of_mem_readGroups) (fun _ => mixed.lt_of_mem_groups)
        rw [← hvalues]
        simp [Spelling.value]
  refine ⟨fun halike => hread.mp halike.parsed, fun hzero => ?_⟩
  exact readAlike_of_parsed (withZone_ne_nil mixed _) (withZone_ne_nil hexadecimal _)
    (slash_notMem_withZone mixed zone) (slash_notMem_withZone hexadecimal zone')
    (hread.mpr hzero)

/-- The address 64:ff9b::192.0.2.1, with its end in dots and without. -/
def translated : Dotted :=
  ⟨[⟨['1', '9', '2'], by decide⟩, ⟨['0'], isOctet_zero⟩, ⟨['2'], by decide⟩,
    ⟨['1'], by decide⟩], rfl⟩

def translatedMixed : Spelling (some translated) :=
  .compressed [⟨['6', '4'], by decide⟩, ⟨['f', 'f', '9', 'b'], by decide⟩] [] (by decide)

def translatedHexadecimal : Spelling none :=
  .compressed [⟨['6', '4'], by decide⟩, ⟨['f', 'f', '9', 'b'], by decide⟩]
    [⟨['c', '0', '0', '0'], by decide⟩, ⟨['2', '0', '1'], by decide⟩] (by decide)

theorem not_readAlike_translated :
    translatedMixed.text = "64:ff9b::192.0.2.1".toList ∧
      translatedHexadecimal.text = "64:ff9b::c000:201".toList ∧
      isIP "64:ff9b::192.0.2.1".toList = some .ipv6 ∧
      isIP "64:ff9b::c000:201".toList = some .ipv6 ∧
      translatedMixed.value = translatedHexadecimal.value ∧
      ¬ReadAlike "64:ff9b::192.0.2.1".toList "64:ff9b::c000:201".toList := by
  refine ⟨by decide, by decide, by decide +kernel, by decide +kernel, by decide +kernel, ?_⟩
  intro h
  exact absurd h.parsed (by decide +kernel)

/-- The address ::, with its end in dots and without. -/
def unspecified : Dotted :=
  ⟨[⟨['0'], isOctet_zero⟩, ⟨['0'], isOctet_zero⟩, ⟨['0'], isOctet_zero⟩,
    ⟨['0'], isOctet_zero⟩], rfl⟩

def unspecifiedMixed : Spelling (some unspecified) :=
  .compressed [] [] (by decide)

theorem readAlike_unspecified : ReadAlike "::0.0.0.0".toList "::%lo".toList :=
  (readAlike_iff unspecifiedMixed (.compressed [] [] (by decide)) none
    (some ⟨['l', 'o'], by decide⟩) (by decide +kernel)).mpr
      ⟨by decide, by simp [unspecifiedMixed, groupsBehindGap]⟩

end Agreement

end SmsNotification.MixedSpellings
