import SmsNotification.EncryptionService
import SmsNotification.JavaScriptText

namespace SmsNotification.EnvironmentValidation

open SmsNotification.EncryptionService (Primitives keyLengthBytes)
open SmsNotification.JavaScriptText (trim)
open SmsNotification.UnicodeText (encode)

/-- The value of a setting. -/
inductive Setting where
  | text (value : String)
  | number (value : ℚ)
  deriving DecidableEq

abbrev Environment := String → Option Setting

/-- Whether a value counts as true. -/
def truthy : Option Setting → Bool
  | some (.text value) => value ≠ ""
  | some (.number value) => value ≠ 0
  | none => false

def supportedProviders : List String :=
  ["twilio", "bird"]

/-- `split(',')`. -/
def split (value : String) : List String :=
  (value.toList.splitOn ',').map String.ofList

/-- `split(',')` and `trim` of each entry. -/
def splitTrimmed (value : String) : List String :=
  (split value).map fun entry => String.ofList (trim entry.toList)

/-- `join(',')`. -/
def join (entries : List String) : String :=
  String.ofList ([','].intercalate (entries.map String.toList))

/-- The check of `SMS_PROVIDER_PRIORITY`: no result is `any.invalid`. -/
def checkProviders (value : String) : Option String :=
  let providers := splitTrimmed value
  if providers.isEmpty || providers.any (fun provider => !supportedProviders.contains provider) ||
      providers.dedup.length ≠ providers.length then
    none
  else some (join providers)

/-- The check of `ENCRYPTION_KEY`. -/
def checkEncryptionKey (primitives : Primitives) (value : String) : Option String :=
  if (primitives.ofBase64 (encode value.toList)).length = keyLengthBytes then some value else none

/-- The type of a setting with its rules. -/
inductive Rule where
  | string
  | valid (values : List String)
  | uri (schemes : List String)
  | min (length : Nat)
  | base64
  | port
  | positiveInteger
  deriving DecidableEq

def Rule.isText : Rule → Bool
  | port => false
  | positiveInteger => false
  | _ => true

/-- What the library documents of a value that has passed a rule: a text is never empty, a
port is a number up to 65535, and `integer().positive()` leaves positive integers. -/
def Rule.admits : Rule → Setting → Bool
  | port, .number value => value.den = 1 && 0 ≤ value.num && value.num ≤ 65535
  | port, .text _ => false
  | positiveInteger, .number value => value.den = 1 && 0 < value.num
  | positiveInteger, .text _ => false
  | _, .text value => value ≠ ""
  | _, .number _ => false

structure Key where
  name : String
  rule : Rule
  custom : Option (Primitives → String → Option String)
  required : Bool
  default : Option Setting

/-- A setting that has to be there. -/
def requiredKey (name : String) (rule : Rule) : Key :=
  ⟨name, rule, none, true, none⟩

/-- A setting that may be left out. -/
def optionalKey (name : String) (rule : Rule) (default : Option Setting) : Key :=
  ⟨name, rule, none, false, default⟩

def priorityKey : Key :=
  { requiredKey "SMS_PROVIDER_PRIORITY" .string with custom := some fun _ => checkProviders }

def encryptionKey : Key :=
  { requiredKey "ENCRYPTION_KEY" .base64 with custom := some checkEncryptionKey }

/-- The keys of `configurationSchema`. -/
def keys : List Key :=
  [optionalKey "NODE_ENV" (.valid ["development", "test", "production"])
      (some (.text "development")),
    optionalKey "PORT" .port (some (.number 3000)),
    requiredKey "SERVICE_URL" (.uri ["http", "https"]),
    requiredKey "PRIVATE_NETWORK_CIDRS" (.min 1),
    requiredKey "DATABASE_URL" (.uri ["postgres", "postgresql"]),
    requiredKey "REDIS_URL" (.uri ["redis", "rediss"]),
    priorityKey,
    optionalKey "TWILIO_ACCOUNT_SID" (.min 1) none,
    optionalKey "TWILIO_AUTH_TOKEN" (.min 1) none,
    optionalKey "TWILIO_FROM_NUMBER" (.min 1) none,
    optionalKey "TWILIO_API_BASE_URL" (.uri ["http", "https"])
      (some (.text "https://api.twilio.com")),
    optionalKey "BIRD_API_KEY" (.min 1) none,
    optionalKey "BIRD_WORKSPACE_ID" (.min 1) none,
    optionalKey "BIRD_CHANNEL_ID" (.min 1) none,
    optionalKey "BIRD_WEBHOOK_SIGNING_KEY" (.min 1) none,
    optionalKey "BIRD_API_BASE_URL" (.uri ["http", "https"]) (some (.text "https://api.bird.com")),
    optionalKey "MAX_MESSAGE_LENGTH" .positiveInteger (some (.number 160)),
    optionalKey "IDEMPOTENCY_TTL_HOURS" .positiveInteger (some (.number 24)),
    optionalKey "PROVIDER_MAX_RETRY_ROUNDS" .positiveInteger (some (.number 3)),
    optionalKey "SMS_PROVIDER_TPS" .positiveInteger (some (.number 10)),
    optionalKey "SMS_PROVIDER_TPS_TWILIO" .positiveInteger none,
    optionalKey "SMS_PROVIDER_TPS_BIRD" .positiveInteger none,
    optionalKey "PROCESSING_RECOVERY_INTERVAL_MS" .positiveInteger (some (.number 60000)),
    optionalKey "PROCESSING_STALE_AFTER_MS" .positiveInteger (some (.number 300000)),
    optionalKey "PROCESSING_RECOVERY_BATCH_SIZE" .positiveInteger (some (.number 100)),
    optionalKey "AMBIGUOUS_OUTCOME_EXPIRY_MS" .positiveInteger (some (.number 900000)),
    encryptionKey]

/-- The library of the schema: what it makes of a value under a rule, and its messages. -/
structure Joi where
  check : String → Rule → Setting → Except String Setting
  required : String → String
  invalid : String → String
  describe : List String → String

/-- What the library documents of its rules: what they let through, and that a text which
passes a rule of texts is left as it is. -/
structure Joi.Documented (joi : Joi) : Prop where
  admits : ∀ {name rule value value'}, joi.check name rule value = .ok value' → rule.admits value'
  keeps : ∀ {name rule text value'}, rule.isText → joi.check name rule (.text text) = .ok value' →
    value' = .text text

section Validation

variable (joi : Joi) (primitives : Primitives)

/-- The value of one setting, or the message of its error. -/
def validateKey (key : Key) : Option Setting → Except String (Option Setting)
  | none => if key.required then .error (joi.required key.name) else .ok key.default
  | some value =>
      match joi.check key.name key.rule value with
      | .error message => .error message
      | .ok (.number number) => .ok (some (.number number))
      | .ok (.text text) =>
          match key.custom with
          | none => .ok (some (.text text))
          | some custom =>
              match custom primitives text with
              | none => .error (joi.invalid key.name)
              | some text => .ok (some (.text text))

def errorOf : Except String (Option Setting) → Option String
  | .error message => some message
  | .ok _ => none

/-- With `abortEarly` off, the errors of all settings. -/
def errors (config : Environment) : List String :=
  keys.filterMap fun key => errorOf (validateKey joi primitives key (config key.name))

/-- The settings with their values converted and their defaults; others stay. -/
def converted (config : Environment) : Environment := fun name =>
  match keys.find? fun key => key.name = name with
  | some key => (validateKey joi primitives key (config key.name)).toOption.join
  | none => config name

def requiredCredentials : String → List String
  | "twilio" => ["TWILIO_ACCOUNT_SID", "TWILIO_AUTH_TOKEN", "TWILIO_FROM_NUMBER"]
  | "bird" => ["BIRD_API_KEY", "BIRD_WORKSPACE_ID", "BIRD_CHANNEL_ID", "BIRD_WEBHOOK_SIGNING_KEY"]
  | _ => []

/-- The providers of `SMS_PROVIDER_PRIORITY`. -/
def listed (env : Environment) : List String :=
  match env "SMS_PROVIDER_PRIORITY" with
  | some (.text value) => split value
  | _ => []

/-- The first credential that is missing, with the provider that needs it. -/
def missingCredential (env : Environment) : Option (String × String) :=
  (listed env).findSome? fun provider =>
    ((requiredCredentials provider).find? fun credential => !truthy (env credential)).map
      fun credential => (credential, provider)

/-- An error of a setting ends the validation before the credentials are looked at. -/
def validateEnvironment (config : Environment) : Except String Environment :=
  match errors joi primitives config with
  | [] =>
      match missingCredential (converted joi primitives config) with
      | some (credential, provider) =>
          .error ("Environment validation failed: " ++ credential ++ " is required when " ++
            provider ++ " is configured")
      | none => .ok (converted joi primitives config)
  | messages => .error ("Environment validation failed: " ++ joi.describe messages)

end Validation

theorem checkProviders_eq_some {value result : String} (h : checkProviders value = some result) :
    ∃ providers, providers ≠ [] ∧ providers.Nodup ∧ providers ⊆ supportedProviders ∧
      result = join providers := by
  unfold checkProviders at h
  simp only [Bool.or_eq_true, decide_eq_true_eq] at h
  split at h
  · cases h
  · rename_i hvalid
    simp only [not_or, Bool.not_eq_true, ne_eq, Decidable.not_not] at hvalid
    obtain ⟨⟨hne, hsupported⟩, hlength⟩ := hvalid
    refine ⟨splitTrimmed value, by simpa using hne, ?_, ?_, by simpa using h.symm⟩
    · rw [← (List.dedup_sublist (splitTrimmed value)).eq_of_length hlength]
      exact List.nodup_dedup _
    · intro provider hprovider
      simpa using List.any_eq_false.mp hsupported provider hprovider

theorem comma_notMem {provider : String} (h : provider ∈ supportedProviders) :
    ',' ∉ provider.toList := by
  have hall : supportedProviders.all fun provider => !provider.toList.contains ',' := by decide
  simpa using List.all_eq_true.mp hall provider h

theorem trim_supported {provider : String} (h : provider ∈ supportedProviders) :
    trim provider.toList = provider.toList := by
  simp only [supportedProviders, List.mem_cons, List.not_mem_nil, or_false] at h
  obtain rfl | rfl := h <;> decide

section Providers

variable {providers : List String}

theorem split_join (hne : providers ≠ []) (h : providers ⊆ supportedProviders) :
    split (join providers) = providers := by
  have hcomma : ∀ text ∈ providers.map String.toList, ',' ∉ text := by
    intro text htext
    obtain ⟨provider, hprovider, rfl⟩ := List.mem_map.mp htext
    exact comma_notMem (h hprovider)
  rw [split, join, String.toList_ofList, List.splitOn_intercalate ',' hcomma (by simpa using hne)]
  simp [Function.comp_def]

theorem splitTrimmed_join (hne : providers ≠ []) (h : providers ⊆ supportedProviders) :
    splitTrimmed (join providers) = providers := by
  rw [splitTrimmed, split_join hne h]
  refine (List.map_congr_left fun provider hprovider => ?_).trans (List.map_id providers)
  rw [trim_supported (h hprovider)]
  simp

theorem join_ne_empty (hne : providers ≠ []) (h : providers ⊆ supportedProviders) :
    join providers ≠ "" := by
  intro hempty
  have hpieces : ∀ text ∈ providers.map String.toList, text ≠ [] := by
    intro text htext
    obtain ⟨provider, hprovider, rfl⟩ := List.mem_map.mp htext
    have := h hprovider
    simp only [supportedProviders, List.mem_cons, List.not_mem_nil, or_false] at this
    obtain rfl | rfl := this <;> decide
  have htext : [','].intercalate (providers.map String.toList) = [] := by
    simpa [join] using congrArg String.toList hempty
  exact hne (List.map_eq_nil_iff.mp (JavaScriptText.intercalate_eq_nil hpieces htext))

end Providers

theorem Rule.exists_text {rule : Rule} (hrule : rule.isText) {value : Setting}
    (h : rule.admits value) : ∃ text, text ≠ "" ∧ value = .text text := by
  cases value with
  | number number => cases rule <;> simp_all [Rule.admits, Rule.isText]
  | text text => exact ⟨text, by cases rule <;> simp_all [Rule.admits, Rule.isText], rfl⟩

theorem Rule.exists_count {value : Setting} (h : Rule.positiveInteger.admits value) :
    ∃ n : Nat, 0 < n ∧ value = .number n := by
  cases value with
  | text text => cases h
  | number number =>
      simp only [Rule.admits, Bool.and_eq_true, decide_eq_true_eq] at h
      refine ⟨number.num.toNat, by omega, congrArg Setting.number ?_⟩
      rw [← Int.cast_natCast, Int.toNat_of_nonneg h.2.le]
      exact (Rat.den_eq_one_iff number).mp h.1 |>.symm

theorem nodup_names : (keys.map Key.name).Nodup := by
  decide

theorem find?_name {key : Key} (h : key ∈ keys) :
    keys.find? (fun other => other.name = key.name) = some key := by
  have hsome : (keys.find? fun other => other.name = key.name).isSome :=
    List.find?_isSome.mpr ⟨key, h, by simp⟩
  obtain ⟨found, hfound⟩ := Option.isSome_iff_exists.mp hsome
  have hname : found.name = key.name := by simpa using List.find?_some hfound
  rw [hfound, List.inj_on_of_nodup_map nodup_names (List.mem_of_find?_eq_some hfound) h hname]

theorem admits_default {key : Key} (h : key ∈ keys) {value : Setting}
    (hdefault : key.default = some value) : key.rule.admits value := by
  have hall : keys.all fun key => key.default.all key.rule.admits := by decide +kernel
  simpa [hdefault] using List.all_eq_true.mp hall key h

theorem custom_cases {key : Key} (h : key ∈ keys)
    {custom : Primitives → String → Option String} (hcustom : key.custom = some custom) :
    (key.rule = .string ∧ custom = fun _ => checkProviders) ∨
      (key.rule = .base64 ∧ custom = checkEncryptionKey) := by
  have hall : ∀ key ∈ keys, ∀ custom, key.custom = some custom →
      (key.rule = .string ∧ custom = fun _ => checkProviders) ∨
        (key.rule = .base64 ∧ custom = checkEncryptionKey) := by
    simp [keys, priorityKey, encryptionKey, requiredKey, optionalKey, eq_comm]
  exact hall key h custom hcustom

theorem admits_custom {key : Key} (h : key ∈ keys) {primitives : Primitives}
    {custom : Primitives → String → Option String} (hcustom : key.custom = some custom)
    {text text' : String} (hrule : key.rule.admits (.text text))
    (hresult : custom primitives text = some text') : key.rule.admits (.text text') := by
  obtain ⟨hstring, rfl⟩ | ⟨hbase64, rfl⟩ := custom_cases h hcustom
  · obtain ⟨providers, hne, -, hsupported, rfl⟩ := checkProviders_eq_some hresult
    simpa [hstring, Rule.admits] using join_ne_empty hne hsupported
  · unfold checkEncryptionKey at hresult
    split at hresult
    · exact Option.some.inj hresult ▸ hrule
    · cases hresult

section Validated

variable {joi : Joi} {primitives : Primitives} {config env : Environment}

theorem validateKey_some {key : Key} {raw : Setting} {value : Option Setting}
    (h : validateKey joi primitives key (some raw) = .ok value) :
    ∃ checked, joi.check key.name key.rule raw = .ok checked ∧
      (value = some checked ∧ (∀ text, checked = .text text → key.custom = none) ∨
        ∃ custom text text', key.custom = some custom ∧ checked = .text text ∧
          custom primitives text = some text' ∧ value = some (.text text')) := by
  simp only [validateKey] at h
  cases hcheck : joi.check key.name key.rule raw with
  | error message => simp [hcheck] at h
  | ok checked =>
      refine ⟨checked, rfl, ?_⟩
      cases checked with
      | number number => exact Or.inl (by simpa [hcheck] using h.symm)
      | text text =>
          cases hcustom : key.custom with
          | none => exact Or.inl (by simpa [hcheck, hcustom] using h.symm)
          | some custom =>
              cases hresult : custom primitives text with
              | none => simp [hcheck, hcustom, hresult] at h
              | some text' =>
                  refine Or.inr ⟨custom, text, text', rfl, rfl, hresult, ?_⟩
                  simpa [hcheck, hcustom, hresult] using h.symm

theorem admits_of_validateKey (hjoi : joi.Documented) {key : Key} (hkey : key ∈ keys)
    {raw : Option Setting} {value : Setting}
    (h : validateKey joi primitives key raw = .ok (some value)) : key.rule.admits value := by
  cases raw with
  | none =>
      cases hrequired : key.required with
      | true => simp [validateKey, hrequired] at h
      | false => exact admits_default hkey (by simpa [validateKey, hrequired] using h)
  | some raw =>
      obtain ⟨checked, hcheck, ⟨hvalue, -⟩ |
        ⟨custom, text, text', hcustom, rfl, hresult, hvalue⟩⟩ := validateKey_some h
      · exact Option.some.inj hvalue ▸ hjoi.admits hcheck
      · exact Option.some.inj hvalue ▸ admits_custom hkey hcustom (hjoi.admits hcheck) hresult

theorem env_of_validated (h : validateEnvironment joi primitives config = .ok env) :
    errors joi primitives config = [] ∧ missingCredential env = none ∧
      env = converted joi primitives config := by
  unfold validateEnvironment at h
  cases herrors : errors joi primitives config with
  | cons message messages => simp [herrors] at h
  | nil =>
      cases hmissing : missingCredential (converted joi primitives config) with
      | some missing => simp [herrors, hmissing] at h
      | none =>
          simp only [herrors, hmissing, Except.ok.injEq] at h
          exact ⟨rfl, h ▸ hmissing, h.symm⟩

theorem validated_key (h : validateEnvironment joi primitives config = .ok env) {key : Key}
    (hkey : key ∈ keys) :
    validateKey joi primitives key (config key.name) = .ok (env key.name) := by
  obtain ⟨herrors, -, rfl⟩ := env_of_validated h
  have hvalid := List.filterMap_eq_nil_iff.mp herrors key hkey
  cases hvalue : validateKey joi primitives key (config key.name) with
  | error message => simp [hvalue, errorOf] at hvalid
  | ok value => simp [converted, find?_name hkey, hvalue, Except.toOption]

theorem admits_of_validated (hjoi : joi.Documented)
    (h : validateEnvironment joi primitives config = .ok env) {key : Key} (hkey : key ∈ keys)
    {value : Setting} (hvalue : env key.name = some value) : key.rule.admits value :=
  admits_of_validateKey hjoi hkey (hvalue ▸ validated_key h hkey)

theorem isSome_of_validated (h : validateEnvironment joi primitives config = .ok env) {key : Key}
    (hkey : key ∈ keys) (hpresent : key.required ∨ key.default.isSome) :
    (env key.name).isSome := by
  have hvalue := validated_key h hkey
  cases hraw : config key.name with
  | none =>
      cases hrequired : key.required with
      | true => simp [validateKey, hraw, hrequired] at hvalue
      | false =>
          have hdefault : key.default = env key.name := by
            simpa [validateKey, hraw, hrequired] using hvalue
          simpa [hdefault, hrequired] using hpresent
  | some raw =>
      rw [hraw] at hvalue
      obtain ⟨checked, -, ⟨h, -⟩ | ⟨custom, text, text', -, -, -, h⟩⟩ := validateKey_some hvalue
      · simp [h]
      · simp [h]

theorem exists_setting (h : validateEnvironment joi primitives config = .ok env) (name : String)
    (hname : keys.any fun key => key.name = name && (key.required || key.default.isSome)) :
    ∃ value, env name = some value := by
  obtain ⟨key, hkey, hall⟩ := List.any_eq_true.mp hname
  simp only [Bool.and_eq_true, decide_eq_true_eq, Bool.or_eq_true] at hall
  obtain ⟨rfl, hpresent⟩ := hall
  exact Option.isSome_iff_exists.mp (isSome_of_validated h hkey hpresent)

theorem exists_text (hjoi : joi.Documented)
    (h : validateEnvironment joi primitives config = .ok env) (name : String)
    (hname : keys.any fun key =>
      key.name = name && key.rule.isText && (key.required || key.default.isSome)) :
    ∃ text, text ≠ "" ∧ env name = some (.text text) := by
  obtain ⟨key, hkey, hall⟩ := List.any_eq_true.mp hname
  simp only [Bool.and_eq_true, decide_eq_true_eq, Bool.or_eq_true] at hall
  obtain ⟨⟨rfl, hrule⟩, hpresent⟩ := hall
  obtain ⟨value, hvalue⟩ := Option.isSome_iff_exists.mp (isSome_of_validated h hkey hpresent)
  obtain ⟨text, hne, rfl⟩ := Rule.exists_text hrule (admits_of_validated hjoi h hkey hvalue)
  exact ⟨text, hne, hvalue⟩

theorem kept_of_validated (hjoi : joi.Documented)
    (h : validateEnvironment joi primitives config = .ok env) {name text : String}
    (hname : keys.any fun key => key.name = name && key.rule.isText && key.custom.isNone)
    (hconfig : config name = some (.text text)) : env name = some (.text text) := by
  obtain ⟨key, hkey, hall⟩ := List.any_eq_true.mp hname
  simp only [Bool.and_eq_true, decide_eq_true_eq, Option.isNone_iff_eq_none] at hall
  obtain ⟨⟨rfl, hrule⟩, hnone⟩ := hall
  have hvalue := validated_key h hkey
  rw [hconfig] at hvalue
  obtain ⟨checked, hcheck, ⟨henv, -⟩ | ⟨custom, -, -, hsome, -⟩⟩ := validateKey_some hvalue
  · rw [henv, hjoi.keeps hrule hcheck]
  · cases hnone.symm.trans hsome

theorem count_of_some (hjoi : joi.Documented)
    (h : validateEnvironment joi primitives config = .ok env) {name : String}
    (hname : keys.any fun key => key.name = name && key.rule = .positiveInteger) {value : Setting}
    (hvalue : env name = some value) : ∃ n : Nat, 0 < n ∧ value = .number n := by
  obtain ⟨key, hkey, hall⟩ := List.any_eq_true.mp hname
  simp only [Bool.and_eq_true, decide_eq_true_eq] at hall
  obtain ⟨rfl, hrule⟩ := hall
  exact Rule.exists_count (hrule ▸ admits_of_validated hjoi h hkey hvalue)

theorem exists_count (hjoi : joi.Documented)
    (h : validateEnvironment joi primitives config = .ok env) (name : String)
    (hname : keys.any fun key =>
      key.name = name && key.rule = .positiveInteger && key.default.isSome) :
    ∃ n : Nat, 0 < n ∧ env name = some (.number n) := by
  obtain ⟨key, hkey, hall⟩ := List.any_eq_true.mp hname
  simp only [Bool.and_eq_true, decide_eq_true_eq] at hall
  obtain ⟨⟨rfl, hrule⟩, hdefault⟩ := hall
  obtain ⟨value, hvalue⟩ :=
    Option.isSome_iff_exists.mp (isSome_of_validated h hkey (Or.inr hdefault))
  obtain ⟨n, hn, rfl⟩ := Rule.exists_count (hrule ▸ admits_of_validated hjoi h hkey hvalue)
  exact ⟨n, hn, hvalue⟩

theorem exists_checked (hjoi : joi.Documented)
    (h : validateEnvironment joi primitives config = .ok env) (key : Key) (hkey : key ∈ keys)
    (hrequired : key.required) (htext : key.rule.isText)
    {custom : Primitives → String → Option String} (hcustom : key.custom = some custom) :
    ∃ text text', custom primitives text = some text' ∧ env key.name = some (.text text') := by
  have hvalue := validated_key h hkey
  cases hraw : config key.name with
  | none => simp [validateKey, hraw, hrequired] at hvalue
  | some raw =>
      rw [hraw] at hvalue
      obtain ⟨checked, hcheck, ⟨-, hnone⟩ | ⟨custom', text, text', hsome, -, hresult, henv⟩⟩ :=
        validateKey_some hvalue
      · obtain ⟨text, -, rfl⟩ := Rule.exists_text htext (hjoi.admits hcheck)
        cases hcustom.symm.trans (hnone text rfl)
      · obtain rfl : custom = custom' := Option.some.inj (hcustom.symm.trans hsome)
        exact ⟨text, text', hresult, henv⟩

theorem exists_providers (hjoi : joi.Documented)
    (h : validateEnvironment joi primitives config = .ok env) :
    ∃ providers, providers ≠ [] ∧ providers.Nodup ∧ providers ⊆ supportedProviders ∧
      env "SMS_PROVIDER_PRIORITY" = some (.text (join providers)) := by
  obtain ⟨text, text', hresult, henv⟩ :=
    exists_checked hjoi h priorityKey (by simp [keys]) rfl rfl rfl
  obtain ⟨providers, hne, hnodup, hsupported, rfl⟩ := checkProviders_eq_some hresult
  exact ⟨providers, hne, hnodup, hsupported, henv⟩

theorem exists_encryptionKey (hjoi : joi.Documented)
    (h : validateEnvironment joi primitives config = .ok env) :
    ∃ text, env "ENCRYPTION_KEY" = some (.text text) ∧
      (primitives.ofBase64 (encode text.toList)).length = keyLengthBytes := by
  obtain ⟨text, text', hresult, henv⟩ :=
    exists_checked hjoi h encryptionKey (by simp [keys]) rfl rfl rfl
  refine ⟨text', henv, ?_⟩
  unfold checkEncryptionKey at hresult
  split at hresult
  · rename_i hlength
    rwa [← Option.some.inj hresult]
  · cases hresult

theorem listed_of_priority {providers : List String} (hne : providers ≠ [])
    (hsupported : providers ⊆ supportedProviders)
    (h : env "SMS_PROVIDER_PRIORITY" = some (.text (join providers))) :
    listed env = providers := by
  rw [listed, h]
  exact split_join hne hsupported

theorem isText_of_requiredCredentials {provider credential : String}
    (h : credential ∈ requiredCredentials provider) :
    keys.any fun key => key.name = credential && key.rule.isText := by
  unfold requiredCredentials at h
  split at h
  · simp only [List.mem_cons, List.not_mem_nil, or_false] at h
    rcases h with rfl | rfl | rfl <;> decide
  · simp only [List.mem_cons, List.not_mem_nil, or_false] at h
    rcases h with rfl | rfl | rfl | rfl <;> decide
  · cases h

theorem exists_credential (hjoi : joi.Documented)
    (h : validateEnvironment joi primitives config = .ok env) {provider : String}
    (hprovider : provider ∈ listed env) (credential : String)
    (hcredential : credential ∈ requiredCredentials provider) :
    ∃ text, text ≠ "" ∧ env credential = some (.text text) := by
  obtain ⟨-, hmissing, -⟩ := env_of_validated h
  have hnone := Option.map_eq_none_iff.mp
    (List.findSome?_eq_none_iff.mp hmissing provider hprovider)
  have htruthy : truthy (env credential) := by
    simpa using List.find?_eq_none.mp hnone credential hcredential
  obtain ⟨key, hkey, hall⟩ := List.any_eq_true.mp (isText_of_requiredCredentials hcredential)
  simp only [Bool.and_eq_true, decide_eq_true_eq] at hall
  obtain ⟨rfl, hrule⟩ := hall
  cases hvalue : env key.name with
  | none => simp [hvalue, truthy] at htruthy
  | some value =>
      obtain ⟨text, hne, rfl⟩ := Rule.exists_text hrule (admits_of_validated hjoi h hkey hvalue)
      exact ⟨text, hne, rfl⟩

end Validated

end SmsNotification.EnvironmentValidation
