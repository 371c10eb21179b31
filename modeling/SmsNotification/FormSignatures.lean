import Mathlib.Algebra.GroupWithZero.Nat
import Mathlib.Algebra.Order.BigOperators.Group.List
import Mathlib.Algebra.Order.Group.Nat
import Mathlib.Data.List.Sort
import SmsNotification.ProviderIsolation
import SmsNotification.UnicodeText

namespace SmsNotification.FormSignatures

open SmsNotification.ProviderIsolation
open SmsNotification.UnicodeText
open SmsNotification.Webhooks

abbrev byName (a b : String × String) : Prop :=
  codeUnits a.1 ≤ codeUnits b.1

/-- The text of a list of fields that Twilio signs. -/
def canonicalText (url : String) (fields : List (String × String)) : String :=
  (fields.insertionSort byName).foldl (fun acc field => acc ++ field.1 ++ field.2) url

/-- The verification covers the fields of a form: in every order of the fields the text
that is signed is the canonical one, exactly the header with its signature is accepted,
and so the endpoint rejects exactly the requests with another header. -/
structure Covers (config : WebhookConfig) (authToken url : String)
    (fields : List (String × String)) : Prop where
  signed : ∀ fields' : List (String × String), fields'.Perm fields →
    signedText url (parseFormParams fields') = canonicalText url fields
  verified : ∀ fields' : List (String × String), fields'.Perm fields → ∀ header,
    verifyTwilioSignature config authToken url (parseFormParams fields') header ↔
      header = some (config.hmacSha1Base64 authToken (canonicalText url fields))
  rejected : configured config.authToken = some authToken → config.callbackUrl = url →
    ∀ (request : Request) (rawBody : ByteArray), request.rawBody = some rawBody →
      (config.formFields rawBody).Perm fields →
        (twilioReport config request = .error (.forbidden "Invalid Twilio signature") ↔
          request.signature ≠ some (config.hmacSha1Base64 authToken (canonicalText url fields)))

theorem codeUnits_eq (text : String) :
    codeUnits text = (encode text.toList).map UInt16.toNat := by
  rw [codeUnits, encode, List.map_flatMap]
  congr 1
  funext ch
  have hch := toNat_char ch
  rw [unitsOf]
  split_ifs with h
  · simp only [List.map_cons, List.map_nil, UInt16.toNat_ofNat']
    rw [Nat.mod_eq_of_lt h]
  · simp only [List.map_cons, List.map_nil, UInt16.toNat_ofNat']
    rw [Nat.mod_eq_of_lt (by omega : 0xd800 + (ch.toNat - 0x10000) / 0x400 < 2 ^ 16),
      Nat.mod_eq_of_lt (by omega : 0xdc00 + (ch.toNat - 0x10000) % 0x400 < 2 ^ 16)]

theorem codeUnits_injective : Function.Injective codeUnits := by
  intro a b h
  rw [codeUnits_eq, codeUnits_eq] at h
  have hunits := List.map_injective_iff.mpr (fun _ _ => UInt16.toNat_inj.mp) h
  exact String.toList_inj.mp (encode_injective hunits)

section Fields

variable {url : String} {fields fields' params : List (String × String)}

theorem eq_of_name {a b : String × String} (h : (fields.map Prod.fst).Nodup) (ha : a ∈ fields)
    (hb : b ∈ fields) (hname : a.1 = b.1) : a = b :=
  List.inj_on_of_nodup_map h ha hb hname

theorem insertionSort_eq_of_perm (hnodup : (fields.map Prod.fst).Nodup)
    (h : fields'.Perm fields) :
    fields'.insertionSort byName = fields.insertionSort byName := by
  have htotal : Std.Total byName := ⟨fun a b => le_total (codeUnits a.1) (codeUnits b.1)⟩
  have htrans : IsTrans (String × String) byName := ⟨fun _ _ _ => le_trans⟩
  have hperm := ((List.perm_insertionSort byName fields').trans h).trans
    (List.perm_insertionSort byName fields).symm
  refine hperm.eq_of_pairwise (fun a b ha hb hab hba => ?_)
    (List.pairwise_insertionSort byName _) (List.pairwise_insertionSort byName _)
  have hname : a.1 = b.1 := codeUnits_injective (le_antisymm hab hba)
  exact eq_of_name hnodup (h.mem_iff.mp ((List.mem_insertionSort byName).mp ha))
    ((List.mem_insertionSort byName).mp hb) hname

theorem canonicalText_eq_of_perm (hnodup : (fields.map Prod.fst).Nodup)
    (h : fields'.Perm fields) : canonicalText url fields' = canonicalText url fields := by
  rw [canonicalText, insertionSort_eq_of_perm hnodup h, canonicalText]

theorem foldl_setParam (h : ((params ++ fields).map Prod.fst).Nodup) :
    fields.foldl setParam params =
      params ++ fields.filter fun field => field.1 ≠ "__proto__" := by
  induction fields generalizing params with
  | nil => simp
  | cons field fields ih =>
      have hfresh : ∀ param ∈ params, param.1 ≠ field.1 := by
        rw [List.map_append, List.nodup_append] at h
        exact fun param hparam => h.2.2 _ (List.mem_map_of_mem hparam) _ (by simp)
      rw [List.foldl_cons]
      by_cases hname : field.1 = "__proto__"
      · have hset : setParam params field = params := if_pos hname
        rw [hset, List.filter_cons_of_neg (by simpa using hname)]
        refine ih (h.sublist ?_)
        exact ((List.sublist_cons_self field fields).append_left params).map Prod.fst
      · have hset : setParam params field = params ++ [field] := by
          have hany : ¬params.any fun param => param.1 = field.1 := by
            rw [List.any_eq_true]
            exact fun ⟨param, hparam, heq⟩ => hfresh param hparam (of_decide_eq_true heq)
          rw [setParam, if_neg hname, if_neg hany]
        rw [hset, List.filter_cons_of_pos (by simpa using hname), ih (by simpa using h)]
        simp

theorem parseFormParams_eq (hnodup : (fields.map Prod.fst).Nodup) :
    parseFormParams fields = fields.filter fun field => field.1 ≠ "__proto__" :=
  foldl_setParam hnodup

theorem lookup_name {field : String × String} (hnodup : (fields.map Prod.fst).Nodup)
    (h : field ∈ fields) : fields.lookup field.1 = some field.2 := by
  obtain ⟨l₁, l₂, rfl⟩ := List.append_of_mem h
  refine List.lookup_eq_some_iff.mpr ⟨l₁, l₂, rfl, fun other hother => ?_⟩
  rw [List.map_append, List.nodup_append] at hnodup
  have hne := hnodup.2.2 _ (List.mem_map_of_mem hother) field.1 (by simp)
  simpa using hne.symm

theorem signedText_eq (hnodup : (params.map Prod.fst).Nodup) :
    signedText url params = canonicalText url params := by
  rw [signedText, canonicalText, ← List.map_insertionSort byName _ Prod.fst params fun _ _ _ _ =>
    Iff.rfl, List.foldl_map]
  refine List.foldl_ext _ _ _ fun acc param hparam => ?_
  rw [lookup_name hnodup ((List.mem_insertionSort byName).mp hparam), Option.getD_some]

theorem length_foldl (sorted : List (String × String)) :
    (sorted.foldl (fun acc field => acc ++ field.1 ++ field.2) url).length =
      url.length + (sorted.map fun field => field.1.length + field.2.length).sum := by
  induction sorted generalizing url with
  | nil => simp
  | cons field sorted ih =>
      rw [List.foldl_cons, ih, String.length_append, String.length_append, List.map_cons,
        List.sum_cons]
      omega

theorem length_canonicalText (url : String) (fields : List (String × String)) :
    (canonicalText url fields).length =
      url.length + (fields.map fun field => field.1.length + field.2.length).sum := by
  rw [canonicalText, length_foldl]
  exact congrArg (url.length + ·)
    ((List.perm_insertionSort byName fields).map _).sum_nat

theorem signedText_parseFormParams (hnodup : (fields.map Prod.fst).Nodup)
    (h : fields'.Perm fields) :
    signedText url (parseFormParams fields') =
      canonicalText url (fields.filter fun field => field.1 ≠ "__proto__") := by
  have hnodup' : (fields'.map Prod.fst).Nodup := (h.map Prod.fst).nodup_iff.mpr hnodup
  rw [parseFormParams_eq hnodup', signedText_eq (hnodup'.sublist (List.filter_sublist.map _)),
    canonicalText_eq_of_perm (hnodup.sublist (List.filter_sublist.map _)) (h.filter _)]

theorem length_filter_lt {field : String × String} (h : field ∈ fields)
    (hname : field.1 = "__proto__") :
    (canonicalText url (fields.filter fun field => field.1 ≠ "__proto__")).length <
      (canonicalText url fields).length := by
  obtain ⟨l₁, l₂, rfl⟩ := List.append_of_mem h
  have hle : ∀ l : List (String × String),
      ((l.filter fun field => field.1 ≠ "__proto__").map
        fun field => field.1.length + field.2.length).sum ≤
        (l.map fun field => field.1.length + field.2.length).sum := fun l =>
    (List.filter_sublist.map _).sum_le_sum fun _ _ => Nat.zero_le _
  have hpos : 0 < field.1.length := by
    rw [hname]
    decide
  have h₁ := hle l₁
  have h₂ := hle l₂
  rw [length_canonicalText, length_canonicalText, List.filter_append,
    List.filter_cons_of_neg (by simpa using hname)]
  simp only [List.map_append, List.map_cons, List.sum_append, List.sum_cons]
  omega

end Fields

/-- Exactly the header with the signature of the text is accepted. -/
theorem verify_iff {config : WebhookConfig} {authToken url : String}
    {params : List (String × String)} (hdigest : ∀ text, config.hmacSha1Base64 authToken text ≠ "")
    (header : Option String) :
    verifyTwilioSignature config authToken url params header ↔
      header = some (config.hmacSha1Base64 authToken (signedText url params)) := by
  rw [verifyTwilioSignature, computeTwilioSignature]
  cases header with
  | none => simp
  | some header =>
      by_cases hempty : header = ""
      · have hne := (hdigest (signedText url params)).symm
        simpa [hempty, Option.filter] using hne
      · simpa [hempty, Option.filter] using eq_comm

theorem forbidden_iff {config : WebhookConfig} {authToken : String} {request : Request}
    {rawBody : ByteArray} (htoken : configured config.authToken = some authToken)
    (hbody : request.rawBody = some rawBody) :
    twilioReport config request = .error (.forbidden "Invalid Twilio signature") ↔
      ¬verifyTwilioSignature config authToken config.callbackUrl
        (parseFormParams (config.formFields rawBody)) request.signature := by
  simp only [twilioReport, htoken, hbody]
  cases verifyTwilioSignature config authToken config.callbackUrl
    (parseFormParams (config.formFields rawBody)) request.signature with
  | false => simp
  | true =>
      simp only [Bool.not_true, Bool.false_eq_true, if_false]
      split <;> simp

/-- The verification covers a form of fields with distinct names just if none of them is
named `__proto__`. -/
theorem covers_iff {config : WebhookConfig} {authToken : String}
    (hdigest : ∀ text, config.hmacSha1Base64 authToken text ≠ "") (url : String)
    {fields : List (String × String)} (hnodup : (fields.map Prod.fst).Nodup) :
    Covers config authToken url fields ↔ ∀ field ∈ fields, field.1 ≠ "__proto__" := by
  constructor
  · intro h field hfield hname
    have hsigned := h.signed fields (List.Perm.refl _)
    rw [signedText_parseFormParams hnodup (List.Perm.refl _)] at hsigned
    exact absurd (congrArg String.length hsigned) (length_filter_lt hfield hname).ne
  · intro h
    have hall : (fields.filter fun field => field.1 ≠ "__proto__") = fields :=
      List.filter_eq_self.mpr fun field hfield => by simpa using h field hfield
    have hsigned : ∀ fields' : List (String × String), fields'.Perm fields →
        signedText url (parseFormParams fields') = canonicalText url fields := by
      intro fields' hperm
      rw [signedText_parseFormParams hnodup hperm, hall]
    have hverified : ∀ fields' : List (String × String), fields'.Perm fields → ∀ header,
        verifyTwilioSignature config authToken url (parseFormParams fields') header ↔
          header = some (config.hmacSha1Base64 authToken (canonicalText url fields)) := by
      intro fields' hperm header
      rw [verify_iff hdigest, hsigned fields' hperm]
    refine ⟨hsigned, hverified, ?_⟩
    rintro htoken rfl request rawBody hbody hperm
    rw [forbidden_iff htoken hbody, hverified _ hperm]

section Samples

/-- The signatures of some texts with the token `token`. -/
def sampleDigests : List (String × String) :=
  [("https://sms.example/webhooks/twilioMessageSidXMessageStatusdelivered",
      "GM73E5LTQfe8rMI7sdlilfjnOd0="),
    ("https://sms.example/webhooks/twilioMessageSidX__proto__x",
      "7GLAVoGh1TzP1tppWVptNOx8LDg="),
    ("https://sms.example/webhooks/twilioMessageSidX", "9TXjlduJrwocGyzzV0mmzjFn0no=")]

/-- The endpoints, on which every body has the given fields. -/
def formEndpoints (fields : List (String × String)) : WebhookConfig :=
  { sampleEndpoints with
    hmacSha1Base64 := fun _ text =>
      (sampleDigests.lookup text).getD "AAAAAAAAAAAAAAAAAAAAAAAAAAA="
    formFields := fun _ => fields }

theorem sampleDigest_ne_empty (fields : List (String × String)) (authToken text : String) :
    (formEndpoints fields).hmacSha1Base64 authToken text ≠ "" := by
  have hdigests : ∀ entry ∈ sampleDigests, entry.2 ≠ "" := by decide
  simp only [formEndpoints]
  cases hlookup : sampleDigests.lookup text with
  | none => decide
  | some digest =>
      obtain ⟨l₁, l₂, heq, _⟩ := List.lookup_eq_some_iff.mp hlookup
      refine hdigests (text, digest) ?_
      rw [heq]
      exact List.mem_append_right _ List.mem_cons_self

/-- A form with an id and a status is covered. -/
theorem covers_delivered :
    Covers (formEndpoints [("MessageStatus", "delivered"), ("MessageSid", "X")]) "token"
      "https://sms.example/webhooks/twilio"
      [("MessageStatus", "delivered"), ("MessageSid", "X")] :=
  (covers_iff (sampleDigest_ne_empty _ "token") _ (by decide)).mpr (by decide)

/-- A form with a field named `__proto__`: the endpoint rejects the signature of its text. -/
theorem proto_not_covered :
    ([("MessageSid", "X"), ("__proto__", "x")].map Prod.fst).Nodup ∧
    canonicalText "https://sms.example/webhooks/twilio" [("MessageSid", "X"), ("__proto__", "x")] =
      "https://sms.example/webhooks/twilioMessageSidX__proto__x" ∧
    twilioReport (formEndpoints [("MessageSid", "X"), ("__proto__", "x")])
        ⟨some ByteArray.empty, some "7GLAVoGh1TzP1tppWVptNOx8LDg="⟩ =
      .error (.forbidden "Invalid Twilio signature") ∧
    ¬Covers (formEndpoints [("MessageSid", "X"), ("__proto__", "x")]) "token"
      "https://sms.example/webhooks/twilio" [("MessageSid", "X"), ("__proto__", "x")] := by
  refine ⟨by decide, by decide +kernel, by rfl, fun h => ?_⟩
  have hsigned := h.signed [("MessageSid", "X"), ("__proto__", "x")] (List.Perm.refl _)
  revert hsigned
  decide +kernel

end Samples

end SmsNotification.FormSignatures
