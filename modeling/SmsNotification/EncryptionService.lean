import SmsNotification.UnicodeText

namespace SmsNotification.EncryptionService

open SmsNotification.UnicodeText

def keyLengthBytes : Nat := 32

def ivLengthBytes : Nat := 12

def authTagLengthBytes : Nat := 16

/-- AES-256-GCM and base64 on bytes. Encryption yields a tag and a ciphertext; decryption
has no result where the tag is not authentic. -/
structure Primitives where
  cipher : List UInt8 → List UInt8 → List UInt8 → List UInt8 × List UInt8
  decipher : List UInt8 → List UInt8 → List UInt8 → List UInt8 → Option (List UInt8)
  toBase64 : List UInt8 → List UInt16
  ofBase64 : List UInt16 → List UInt8

/-- What the service relies on: decryption inverts encryption and has no result for what
encryption does not yield, and the decoding of base64 inverts its encoding. -/
structure Primitives.Sound (primitives : Primitives) : Prop where
  length_authTag : ∀ {key iv : List UInt8} (plaintext : List UInt8),
    key.length = keyLengthBytes → iv.length = ivLengthBytes →
      (primitives.cipher key iv plaintext).1.length = authTagLengthBytes
  decipher_cipher : ∀ {key iv : List UInt8} (plaintext : List UInt8),
    key.length = keyLengthBytes → iv.length = ivLengthBytes →
      primitives.decipher key iv (primitives.cipher key iv plaintext).1
        (primitives.cipher key iv plaintext).2 = some plaintext
  decipher_other : ∀ {key iv authTag ciphertext : List UInt8}, key.length = keyLengthBytes →
    iv.length = ivLengthBytes →
      (∀ plaintext, primitives.cipher key iv plaintext ≠ (authTag, ciphertext)) →
        primitives.decipher key iv authTag ciphertext = none
  ofBase64_toBase64 : ∀ bytes, primitives.ofBase64 (primitives.toBase64 bytes) = bytes

/-- The service, whose key has the length that `onModuleInit` asserts. -/
structure Service where
  key : List UInt8
  length_key : key.length = keyLengthBytes

def onModuleInit (key : List UInt8) : Except String Service :=
  if h : key.length = keyLengthBytes then .ok ⟨key, h⟩
  else
    .error ("ENCRYPTION_KEY must decode to " ++ toString keyLengthBytes ++ " bytes, received " ++
      toString key.length)

inductive DecryptError where
  | malformed (message : String)
  | unauthentic
  deriving DecidableEq, Repr

section Service

variable (primitives : Primitives) (service : Service)

/-- `encrypt` with the initialization vector that it has drawn. -/
def encrypt (iv : List UInt8) (plaintext : List UInt16) : List UInt16 :=
  let (authTag, ciphertext) := primitives.cipher service.key iv (toUtf8 plaintext)
  primitives.toBase64 (iv ++ authTag ++ ciphertext)

def ivOf (payload : List UInt8) : List UInt8 :=
  payload.take ivLengthBytes

def authTagOf (payload : List UInt8) : List UInt8 :=
  (payload.drop ivLengthBytes).take authTagLengthBytes

def ciphertextOf (payload : List UInt8) : List UInt8 :=
  payload.drop (ivLengthBytes + authTagLengthBytes)

def decrypt (token : List UInt16) : Except DecryptError (List UInt16) :=
  let payload := primitives.ofBase64 token
  if payload.length < ivLengthBytes + authTagLengthBytes then
    .error (.malformed "Encrypted token is malformed")
  else
    match primitives.decipher service.key (ivOf payload) (authTagOf payload)
      (ciphertextOf payload) with
    | none => .error .unauthentic
    | some plaintext => .ok (ofUtf8 plaintext)

end Service

/-- The messages that the request body and the configured length limit admit. -/
def isAdmitted (maxMessageLength : Nat) (message : List UInt16) : Bool :=
  !message.isEmpty && message.length ≤ maxMessageLength

/-- A token whose parts encryption under the key of the service yields. -/
def Produced (primitives : Primitives) (service : Service) (token : List UInt16) : Prop :=
  ∃ plaintext, primitives.cipher service.key (ivOf (primitives.ofBase64 token)) plaintext =
    (authTagOf (primitives.ofBase64 token), ciphertextOf (primitives.ofBase64 token))

/-- Decryption restores the message and rejects what is too short or not produced. -/
structure Reverses (primitives : Primitives) (service : Service) (iv : List UInt8)
    (message : List UInt16) : Prop where
  restored : decrypt primitives service (encrypt primitives service iv message) = .ok message
  rejected : ∀ token, ((primitives.ofBase64 token).length < ivLengthBytes + authTagLengthBytes ∨
      ¬Produced primitives service token) →
    ∃ e, decrypt primitives service token = .error e

section Tokens

variable {primitives : Primitives} {service : Service} {iv : List UInt8}

theorem parts_of_payload {authTag : List UInt8} (hiv : iv.length = ivLengthBytes)
    (htag : authTag.length = authTagLengthBytes) (ciphertext : List UInt8) :
    ivOf (iv ++ authTag ++ ciphertext) = iv ∧
      authTagOf (iv ++ authTag ++ ciphertext) = authTag ∧
      ciphertextOf (iv ++ authTag ++ ciphertext) = ciphertext := by
  have hlength : (iv ++ authTag).length = ivLengthBytes + authTagLengthBytes := by
    rw [List.length_append, hiv, htag]
  refine ⟨?_, ?_, ?_⟩
  · rw [ivOf, List.append_assoc, List.take_left' hiv]
  · rw [authTagOf, List.append_assoc, List.drop_left' hiv, List.take_left' htag]
  · rw [ciphertextOf, List.drop_left' hlength]

/-- A token gives the characters of its message back. -/
theorem decrypt_encrypt (hsound : primitives.Sound) (hiv : iv.length = ivLengthBytes)
    (message : List UInt16) :
    decrypt primitives service (encrypt primitives service iv message) =
      .ok (encode (decode message)) := by
  have htag := hsound.length_authTag (toUtf8 message) service.length_key hiv
  obtain ⟨hivOf, htagOf, hciphertextOf⟩ := parts_of_payload hiv htag
    (primitives.cipher service.key iv (toUtf8 message)).2
  have hlength : ¬(iv ++ (primitives.cipher service.key iv (toUtf8 message)).1 ++
      (primitives.cipher service.key iv (toUtf8 message)).2).length <
        ivLengthBytes + authTagLengthBytes := by
    rw [List.length_append, List.length_append, hiv, htag]
    omega
  simp only [decrypt, encrypt, hsound.ofBase64_toBase64, if_neg hlength, hivOf, htagOf,
    hciphertextOf, hsound.decipher_cipher (toUtf8 message) service.length_key hiv]
  rw [ofUtf8_toUtf8]

theorem rejected_of_short {token : List UInt16}
    (h : (primitives.ofBase64 token).length < ivLengthBytes + authTagLengthBytes) :
    decrypt primitives service token = .error (.malformed "Encrypted token is malformed") := by
  simp only [decrypt, if_pos h]

theorem rejected_of_not_produced (hsound : primitives.Sound) {token : List UInt16}
    (h : ¬Produced primitives service token) :
    ∃ e, decrypt primitives service token = .error e := by
  by_cases hshort : (primitives.ofBase64 token).length < ivLengthBytes + authTagLengthBytes
  · exact ⟨_, rejected_of_short hshort⟩
  · have hiv : (ivOf (primitives.ofBase64 token)).length = ivLengthBytes := by
      rw [ivOf, List.length_take]
      omega
    have hnone := hsound.decipher_other service.length_key hiv fun plaintext heq =>
      h ⟨plaintext, heq⟩
    exact ⟨.unauthentic, by simp only [decrypt, if_neg hshort, hnone]⟩

end Tokens

/-- Decryption reverses the encryption of a message, and rejects every other token, just
if no surrogate of the message stands alone. -/
theorem reverses_iff {primitives : Primitives} (hsound : primitives.Sound) (service : Service)
    {iv : List UInt8} (hiv : iv.length = ivLengthBytes) (message : List UInt16) :
    Reverses primitives service iv message ↔ isWellFormed message := by
  constructor
  · intro h
    have hrestored := h.restored
    rw [decrypt_encrypt hsound hiv] at hrestored
    exact encode_decode_iff.mp (Except.ok.inj hrestored)
  · intro h
    refine ⟨?_, fun token htoken => ?_⟩
    · rw [decrypt_encrypt hsound hiv, encode_decode_of_isWellFormed h]
    · rcases htoken with hshort | hother
      · exact ⟨_, rejected_of_short hshort⟩
      · exact rejected_of_not_produced hsound hother

section Samples

def sampleService : Service where
  key := (List.range 32).map fun i => UInt8.ofNat (7 * i + 3)
  length_key := by decide

def sampleIv : List UInt8 :=
  [1, 2, 3, 4, 5, 6, 7, 8, 9, 10, 11, 12]

/-- The tags and ciphertexts of AES-256-GCM for two plaintexts, under the sample key and
vector: those of `Hi` and of the replacement character. -/
def sampleCiphers : List (List UInt8 × List UInt8 × List UInt8) :=
  [([72, 105],
      [212, 203, 145, 51, 168, 91, 211, 183, 218, 247, 13, 75, 255, 137, 25, 68], [24, 75]),
    ([239, 191, 189],
      [230, 124, 73, 191, 165, 178, 68, 112, 38, 172, 4, 87, 88, 43, 27, 229], [191, 157, 199])]

def sampleCipher (key iv plaintext : List UInt8) : List UInt8 × List UInt8 :=
  if key = sampleService.key ∧ iv = sampleIv then
    (sampleCiphers.lookup plaintext).getD (List.replicate authTagLengthBytes 0, plaintext)
  else (List.replicate authTagLengthBytes 0, plaintext)

/-- The base64 texts of the two sample payloads. -/
def sampleTexts : List (List UInt8 × List UInt16) :=
  [(sampleIv ++ (sampleCipher sampleService.key sampleIv [72, 105]).1 ++
      (sampleCipher sampleService.key sampleIv [72, 105]).2,
      encode "AQIDBAUGBwgJCgsM1MuRM6hb07fa9w1L/4kZRBhL".toList),
    (sampleIv ++ (sampleCipher sampleService.key sampleIv [239, 191, 189]).1 ++
      (sampleCipher sampleService.key sampleIv [239, 191, 189]).2,
      encode "AQIDBAUGBwgJCgsM5nxJv6WyRHAmrARXWCsb5b+dxw==".toList)]

/-- Primitives that are the real ones on the samples. -/
def samplePrimitives : Primitives where
  cipher := sampleCipher
  decipher := fun key iv authTag ciphertext =>
    (ciphertext :: sampleCiphers.map Prod.fst).find? fun plaintext =>
      sampleCipher key iv plaintext = (authTag, ciphertext)
  toBase64 := fun bytes =>
    (sampleTexts.lookup bytes).getD (bytes.map fun b => UInt16.ofNat (0x100 + b.toNat))
  ofBase64 := fun text =>
    ((sampleTexts.find? fun entry => entry.2 = text).map Prod.fst).getD
      (text.map fun u => UInt8.ofNat u.toNat)

theorem sampleCipher_cases (key iv plaintext : List UInt8) :
    (∃ entry ∈ sampleCiphers, entry.1 = plaintext ∧ sampleCipher key iv plaintext = entry.2) ∨
      sampleCipher key iv plaintext = (List.replicate authTagLengthBytes 0, plaintext) := by
  rw [sampleCipher]
  split_ifs with hkey
  · cases hlookup : sampleCiphers.lookup plaintext with
    | none => exact Or.inr rfl
    | some parts =>
        refine Or.inl ⟨(plaintext, parts), ?_, rfl, rfl⟩
        obtain ⟨l₁, l₂, heq, _⟩ := List.lookup_eq_some_iff.mp hlookup
        rw [heq]
        exact List.mem_append_right _ List.mem_cons_self
  · exact Or.inr rfl

theorem sampleCiphers_ne {entry : List UInt8 × List UInt8 × List UInt8}
    (h : entry ∈ sampleCiphers) (plaintext : List UInt8) :
    entry.2 ≠ (List.replicate authTagLengthBytes 0, plaintext) := by
  have htags : ∀ entry ∈ sampleCiphers, entry.2.1 ≠ List.replicate authTagLengthBytes 0 := by
    decide
  exact fun heq => htags entry h (congrArg Prod.fst heq)

theorem sampleCipher_injective {key iv p q : List UInt8}
    (h : sampleCipher key iv p = sampleCipher key iv q) : p = q := by
  have hcolumns : ∀ entry ∈ sampleCiphers, ∀ entry' ∈ sampleCiphers,
      entry.2 = entry'.2 → entry.1 = entry'.1 := by
    decide
  rcases sampleCipher_cases key iv p with ⟨entry, hentry, rfl, hp⟩ | hp <;>
    rcases sampleCipher_cases key iv q with ⟨entry', hentry', rfl, hq⟩ | hq <;>
    rw [hp, hq] at h
  · exact hcolumns entry hentry entry' hentry' h
  · exact absurd h (sampleCiphers_ne hentry q)
  · exact absurd h.symm (sampleCiphers_ne hentry' p)
  · exact congrArg Prod.snd h

theorem sampleDecipher_cipher (key iv plaintext : List UInt8) :
    samplePrimitives.decipher key iv (sampleCipher key iv plaintext).1
      (sampleCipher key iv plaintext).2 = some plaintext := by
  have hmem : plaintext ∈ (sampleCipher key iv plaintext).2 :: sampleCiphers.map Prod.fst := by
    rcases sampleCipher_cases key iv plaintext with ⟨entry, hentry, rfl, _⟩ | h
    · exact List.mem_cons_of_mem _ (List.mem_map_of_mem hentry)
    · rw [h]
      exact List.mem_cons_self
  cases hfind : samplePrimitives.decipher key iv (sampleCipher key iv plaintext).1
    (sampleCipher key iv plaintext).2 with
  | none => exact absurd (List.find?_eq_none.mp hfind plaintext hmem) (by simp)
  | some found =>
      have hfound : sampleCipher key iv found = sampleCipher key iv plaintext := by
        simpa using List.find?_some hfind
      rw [sampleCipher_injective hfound]

theorem sampleOfBase64_toBase64 (bytes : List UInt8) :
    samplePrimitives.ofBase64 (samplePrimitives.toBase64 bytes) = bytes := by
  have htexts : ∀ entry ∈ sampleTexts,
      ((sampleTexts.find? fun entry' => entry'.2 = entry.2).map Prod.fst) = some entry.1 := by
    decide
  have hletters : ∀ entry ∈ sampleTexts, entry.2.head?.all fun u => u.toNat < 0x100 := by decide
  have hnonempty : ∀ entry ∈ sampleTexts, entry.2 ≠ [] := by decide
  simp only [samplePrimitives]
  cases hlookup : sampleTexts.lookup bytes with
  | some text =>
      obtain ⟨l₁, l₂, heq, _⟩ := List.lookup_eq_some_iff.mp hlookup
      have hmem : (bytes, text) ∈ sampleTexts := by
        rw [heq]
        exact List.mem_append_right _ List.mem_cons_self
      rw [Option.getD_some, htexts _ hmem, Option.getD_some]
  | none =>
      have hnone : (sampleTexts.find? fun entry =>
          entry.2 = bytes.map fun b => UInt16.ofNat (0x100 + b.toNat)) = none := by
        refine List.find?_eq_none.mpr fun entry hentry hother => ?_
        rw [decide_eq_true_eq] at hother
        cases bytes with
        | nil => exact hnonempty entry hentry hother
        | cons b bytes =>
            have hletter := hletters entry hentry
            rw [hother] at hletter
            have hb : (UInt16.ofNat (0x100 + b.toNat)).toNat < 0x100 := of_decide_eq_true hletter
            have hlt := b.toNat_lt
            rw [UInt16.toNat_ofNat'] at hb
            omega
      have hbytes : (fun u : UInt16 => UInt8.ofNat u.toNat) ∘
          (fun b : UInt8 => UInt16.ofNat (0x100 + b.toNat)) = id := by
        funext b
        have hlt := b.toNat_lt
        refine UInt8.toNat_inj.mp ?_
        simp only [Function.comp, id, UInt8.toNat_ofNat', UInt16.toNat_ofNat']
        omega
      rw [Option.getD_none, hnone, Option.map_none, Option.getD_none, List.map_map, hbytes,
        List.map_id]

theorem sound_samplePrimitives : samplePrimitives.Sound where
  length_authTag := fun {key iv} plaintext _ _ => by
    have hlengths : ∀ entry ∈ sampleCiphers, entry.2.1.length = authTagLengthBytes := by decide
    rcases sampleCipher_cases key iv plaintext with ⟨entry, hentry, _, h⟩ | h
    · exact (congrArg (fun parts => parts.1.length) h).trans (hlengths entry hentry)
    · exact congrArg (fun parts => parts.1.length) h
  decipher_cipher := fun plaintext _ _ => sampleDecipher_cipher _ _ plaintext
  decipher_other := fun _ _ h =>
    List.find?_eq_none.mpr fun plaintext _ heq => h plaintext (of_decide_eq_true heq)
  ofBase64_toBase64 := sampleOfBase64_toBase64

/-- The message `Hi` is restored. -/
theorem reverses_hi : Reverses samplePrimitives sampleService sampleIv [72, 105] :=
  (reverses_iff sound_samplePrimitives sampleService rfl [72, 105]).mpr (by decide)

/-- A message of one lone surrogate is admitted, and comes back as the replacement
character. -/
theorem loneSurrogate_replaced :
    isAdmitted 160 [0xd83d] ∧
    decrypt samplePrimitives sampleService
      (encrypt samplePrimitives sampleService sampleIv [0xd83d]) = .ok [0xfffd] ∧
    ¬Reverses samplePrimitives sampleService sampleIv [0xd83d] := by
  have hreplaced : decrypt samplePrimitives sampleService
      (encrypt samplePrimitives sampleService sampleIv [0xd83d]) = .ok [0xfffd] := by
    decide +kernel
  refine ⟨rfl, hreplaced, fun h => ?_⟩
  have hrestored := hreplaced.symm.trans h.restored
  cases hrestored

end Samples

end SmsNotification.EncryptionService
