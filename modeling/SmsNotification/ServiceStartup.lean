import Mathlib.Logic.Function.Basic
import SmsNotification.AllowListGrammar
import SmsNotification.EnvironmentValidation
import SmsNotification.ProviderIsolation
import SmsNotification.ProviderRateLimiter
import SmsNotification.SmsService
import SmsNotification.Webhooks

namespace SmsNotification.ServiceStartup

open SmsNotification.AllowListGrammar (exists_forall₂_iff mapM_eq_ok_iff)
open SmsNotification.EncryptionService (Primitives)
open SmsNotification.EnvironmentValidation
open SmsNotification.JavaScriptText (number?)
open SmsNotification.PrivateNetworkGuard (Guard Thrown)
open SmsNotification.QueueConstants (readPositiveInt)
open SmsNotification.SmsService (SmsConfig decryptColumn)
open SmsNotification.UnicodeText (encode)
open SmsNotification.Webhooks (WebhookConfig configured)

/-- What ends the start. -/
inductive StartError where
  | missing (name : String)
  | notText (name : String)
  | error (message : String)
  | thrown (thrown : Thrown)

/-- The code that is not the service's own: what the constructor of the Twilio client throws
at an account and its token and pino at a level, and the functions of the endpoints and of
the encryption. -/
structure Libraries where
  primitives : Primitives
  metadataColumn : JsonValues.Value → Schema.Json
  endpoints : WebhookConfig
  twilioThrows : String → String → Option String
  pinoThrows : String → Option String

/-- `process.env` as the program starts, and the texts of its `.env` file. -/
structure Process where
  env : String → Option String
  file : String → Option String

/-- What `ConfigModule` has validated: the process goes before the file. -/
def Process.config (process : Process) : Environment := fun name =>
  ((process.env name).or (process.file name)).map .text

section Reading

variable (env : Environment)

def getOrThrow (name : String) : Except StartError Setting :=
  match env name with
  | some value => .ok value
  | none => .error (.missing name)

/-- `getOrThrow` of a setting that is then used as a text. -/
def getText (name : String) : Except StartError String :=
  match getOrThrow env name with
  | .ok (.text value) => .ok value
  | .ok (.number _) => .error (.notText name)
  | .error error => .error error

/-- `get` of a setting that is then used as a text, where it is there. -/
def textOf (name : String) : Option String :=
  match env name with
  | some (.text value) => some value
  | _ => none

/-- The number of a setting; none where it is not finite. -/
def numberOf (name : String) : Option ℚ :=
  match env name with
  | some (.number value) => some value
  | some (.text value) => number? value.toList
  | none => none

def integerOf (name : String) : Option Int :=
  JavaScriptText.bigInt? (numberOf env name)

/-- A setting that the validation has made a positive integer. -/
def countOf (name : String) : Option Nat :=
  (integerOf env name).map Int.toNat

def defaultProviderTimeoutMs : ℚ :=
  10000

def resolveProviderTimeoutMs : ℚ :=
  match numberOf env "PROVIDER_TIMEOUT_MS" with
  | some parsed => if 0 < parsed then parsed else defaultProviderTimeoutMs
  | none => defaultProviderTimeoutMs

/-- A text of `process.env`, where `ConfigModule` has put what it has validated and what was
not there. -/
def Process.assigned (process : Process) (name : String) : Option String :=
  (process.env name).or (textOf env name)

end Reading

/-- `replace(/\/+$/, '')`. -/
def withoutSlashes (url : String) : String :=
  String.ofList (url.toList.reverse.dropWhile (· = '/')).reverse

inductive SmsProvider where
  | twilio (accountSid authToken fromNumber : String) (timeoutMs : ℚ) (baseUrl : Option String)
  | bird (apiKey workspaceId channelId : String) (timeoutMs : ℚ) (baseUrl : String)

def SmsProvider.providerName : SmsProvider → String
  | .twilio .. => "twilio"
  | .bird .. => "bird"

/-- The settings that a provider has been given as its credentials. -/
def SmsProvider.credentials : SmsProvider → List (String × String)
  | .twilio accountSid authToken fromNumber _ _ =>
      [("TWILIO_ACCOUNT_SID", accountSid), ("TWILIO_AUTH_TOKEN", authToken),
        ("TWILIO_FROM_NUMBER", fromNumber)]
  | .bird apiKey workspaceId channelId _ _ =>
      [("BIRD_API_KEY", apiKey), ("BIRD_WORKSPACE_ID", workspaceId),
        ("BIRD_CHANNEL_ID", channelId)]

section Start

variable (libraries : Libraries) (process : Process) (env : Environment)

/-- The level of `pinoHttpOptions`, which are loaded before `ConfigModule`. -/
def logLevel : String :=
  (process.env "LOG_LEVEL").getD "info"

def createLogger : Except StartError String :=
  match libraries.pinoThrows (logLevel process) with
  | some message => .error (.error message)
  | none => .ok (logLevel process)

def PrismaService.create : Except StartError String :=
  let connectionString := (process.assigned env "DATABASE_URL").getD ""
  if connectionString = "" then .error (.error "DATABASE_URL is required to initialize Prisma")
  else .ok connectionString

def TwilioProvider.create : Except StartError SmsProvider := do
  let accountSid ← getText env "TWILIO_ACCOUNT_SID"
  let authToken ← getText env "TWILIO_AUTH_TOKEN"
  let fromNumber ← getText env "TWILIO_FROM_NUMBER"
  match libraries.twilioThrows accountSid authToken with
  | some message => .error (.error message)
  | none =>
      let baseUrl := (textOf env "TWILIO_API_BASE_URL").filter (· ≠ "")
      .ok (.twilio accountSid authToken fromNumber (resolveProviderTimeoutMs env)
        (baseUrl.map withoutSlashes))

def BirdProvider.create : Except StartError SmsProvider := do
  let apiKey ← getText env "BIRD_API_KEY"
  let workspaceId ← getText env "BIRD_WORKSPACE_ID"
  let channelId ← getText env "BIRD_CHANNEL_ID"
  let baseUrl := (textOf env "BIRD_API_BASE_URL").getD "https://api.bird.com"
  .ok (.bird apiKey workspaceId channelId (resolveProviderTimeoutMs env) (withoutSlashes baseUrl))

def builders : String → Option (Except StartError SmsProvider)
  | "twilio" => some (TwilioProvider.create libraries env)
  | "bird" => some (BirdProvider.create env)
  | _ => none

def buildConfiguredProviders : Except StartError (List SmsProvider) := do
  let raw ← getText env "SMS_PROVIDER_PRIORITY"
  ((splitTrimmed raw).filterMap (builders libraries env)).mapM id

structure ProviderFactory where
  registry : String → Option SmsProvider
  priority : List String

/-- `registry.set`. -/
def register (registry : String → Option SmsProvider) (provider : SmsProvider) :
    String → Option SmsProvider :=
  Function.update registry provider.providerName (some provider)

def ProviderFactory.create (providers : List SmsProvider) : Except StartError ProviderFactory := do
  let raw ← getText env "SMS_PROVIDER_PRIORITY"
  .ok
    { registry := providers.foldl register fun _ => none
      priority := (splitTrimmed raw).filter (· ≠ "") }

def ProviderFactory.getProvider (factory : ProviderFactory) (name : String) : Option SmsProvider :=
  factory.registry name

def ProviderFactory.getOrderedProviders (factory : ProviderFactory) : List SmsProvider :=
  factory.priority.filterMap factory.getProvider

/-- The parts of a service that has started, with the settings that they have read. -/
structure Application where
  logLevel : String
  databaseUrl : String
  factory : ProviderFactory
  guard : Guard
  sms : SmsConfig
  limiter : ProviderRateLimiter.Config
  endpoints : WebhookConfig
  service : Service.Config
  recoveryIntervalMs : Nat
  cleanupIntervalMs : Nat
  redisUrl : String
  port : Setting

def createGuard : Except StartError Guard := do
  let raw ← getText env "PRIVATE_NETWORK_CIDRS"
  (Guard.create raw).mapError .thrown

def createEncryption : Except StartError EncryptionService.Service := do
  let encodedKey ← getText env "ENCRYPTION_KEY"
  (EncryptionService.onModuleInit
    (libraries.primitives.ofBase64 (encode encodedKey.toList))).mapError .error

def createLimiter : ProviderRateLimiter.Config where
  specificLimit name := countOf env ("SMS_PROVIDER_TPS_" ++ name)
  limit := countOf env "SMS_PROVIDER_TPS"

def createSms (encryption : EncryptionService.Service) : SmsConfig where
  maxMessageLength := countOf env "MAX_MESSAGE_LENGTH"
  idempotencyTtlHours := countOf env "IDEMPOTENCY_TTL_HOURS"
  primitives := libraries.primitives
  encryption := encryption
  metadataColumn := libraries.metadataColumn

def createService (encryption : EncryptionService.Service) (factory : ProviderFactory) :
    Service.Config where
  processor := .read (integerOf env "PROVIDER_MAX_RETRY_ROUNDS")
    (integerOf env "AMBIGUOUS_OUTCOME_EXPIRY_MS")
    (factory.getOrderedProviders.map SmsProvider.providerName)
    (decryptColumn libraries.primitives encryption)
  maintenance := .read (integerOf env "RETENTION_CLEANUP_BATCH_SIZE")
    (integerOf env "PROCESSING_STALE_AFTER_MS") (integerOf env "PROCESSING_RECOVERY_BATCH_SIZE")

/-- The parts with what they read from the environment without a failure. -/
def assemble (logLevel databaseUrl : String) (factory : ProviderFactory) (guard : Guard)
    (encryption : EncryptionService.Service) (serviceUrl redisUrl : String) (port : Setting) :
    Application where
  logLevel := logLevel
  databaseUrl := databaseUrl
  factory := factory
  guard := guard
  sms := createSms libraries env encryption
  limiter := createLimiter env
  endpoints := { libraries.endpoints with
    authToken := textOf env "TWILIO_AUTH_TOKEN"
    signingKey := textOf env "BIRD_WEBHOOK_SIGNING_KEY"
    serviceUrl := serviceUrl }
  service := createService libraries env encryption factory
  recoveryIntervalMs := readPositiveInt (integerOf env "PROCESSING_RECOVERY_INTERVAL_MS") 60000
  cleanupIntervalMs := readPositiveInt (integerOf env "RETENTION_CLEANUP_INTERVAL_MS") 3600000
  redisUrl := redisUrl
  port := port

/-- The constructors, `onModuleInit` and `bootstrap`, over the environment of `ConfigService`. -/
def start : Except StartError Application := do
  let logLevel ← createLogger libraries process
  let databaseUrl ← PrismaService.create process env
  let providers ← buildConfiguredProviders libraries env
  let factory ← ProviderFactory.create env providers
  let guard ← createGuard env
  let encryption ← createEncryption libraries env
  let serviceUrl ← getText env "SERVICE_URL"
  let redisUrl ← getText env "REDIS_URL"
  let port ← getOrThrow env "PORT"
  .ok (assemble libraries env logLevel databaseUrl factory guard encryption serviceUrl redisUrl
    port)

end Start

section Values

variable {env : Environment} {name : String}

theorem getText_of_text {value : String} (h : env name = some (.text value)) :
    getText env name = .ok value := by
  simp [getText, getOrThrow, h]

theorem textOf_of_text {value : String} (h : env name = some (.text value)) :
    textOf env name = some value := by
  simp [textOf, h]

theorem integerOf_of_number {n : Nat} (h : env name = some (.number n)) :
    integerOf env name = some (n : Int) := by
  rw [integerOf, numberOf, h]
  exact JavaScriptText.bigInt?_natCast n

theorem countOf_of_number {n : Nat} (h : env name = some (.number n)) :
    countOf env name = some n := by
  rw [countOf, integerOf_of_number h, Option.map_some, Int.toNat_natCast]

theorem readPositiveInt_count {n : Nat} (hn : 0 < n) (h : env name = some (.number n))
    (fallback : Nat) :
    env name = some (.number (readPositiveInt (integerOf env name) fallback)) := by
  have hpos : 0 < (n : Int) := by exact_mod_cast hn
  rw [integerOf_of_number h, readPositiveInt, if_pos hpos, Int.toNat_natCast, h]

end Values

section Registry

variable {providers : List SmsProvider} {provider : SmsProvider}

theorem foldl_register_of_notMem {registry : String → Option SmsProvider} {name : String}
    (h : name ∉ providers.map SmsProvider.providerName) :
    providers.foldl register registry name = registry name := by
  induction providers generalizing registry with
  | nil => rfl
  | cons other providers ih =>
      rw [List.map_cons, List.mem_cons, not_or] at h
      rw [List.foldl_cons, ih h.2, register, Function.update_of_ne h.1]

theorem foldl_register_of_mem {registry : String → Option SmsProvider}
    (hnodup : (providers.map SmsProvider.providerName).Nodup) (h : provider ∈ providers) :
    providers.foldl register registry provider.providerName = some provider := by
  induction providers generalizing registry with
  | nil => cases h
  | cons other providers ih =>
      rw [List.map_cons, List.nodup_cons] at hnodup
      obtain rfl | h := List.mem_cons.mp h
      · rw [List.foldl_cons, foldl_register_of_notMem hnodup.1, register, Function.update_self]
      · rw [List.foldl_cons, ih hnodup.2 h]

theorem filterMap_register (hnodup : (providers.map SmsProvider.providerName).Nodup) :
    (providers.map SmsProvider.providerName).filterMap
      (providers.foldl register fun _ => none) = providers := by
  rw [List.filterMap_map]
  refine (List.filterMap_congr fun provider hprovider => ?_).trans List.filterMap_some
  exact foldl_register_of_mem hnodup hprovider

end Registry

theorem mapM_filterMap_eq_ok_iff {ε α β : Type} {f : α → Option (Except ε β)} {xs : List α}
    {ys : List β} (hsome : ∀ x ∈ xs, (f x).isSome) :
    (xs.filterMap f).mapM id = .ok ys ↔ List.Forall₂ (fun x y => f x = some (.ok y)) xs ys := by
  rw [mapM_eq_ok_iff]
  induction xs generalizing ys with
  | nil => simp
  | cons x xs ih =>
      obtain ⟨build, hbuild⟩ := Option.isSome_iff_exists.mp (hsome x List.mem_cons_self)
      have hrest : ∀ ys, List.Forall₂ (fun build y => id build = .ok y) (xs.filterMap f) ys ↔
          List.Forall₂ (fun x y => f x = some (.ok y)) xs ys :=
        fun ys => ih fun y hy => hsome y (List.mem_cons_of_mem _ hy)
      rw [List.filterMap_cons_some hbuild, List.forall₂_cons_left_iff, List.forall₂_cons_left_iff]
      simp_rw [hrest]
      simp [hbuild]

/-- The Twilio client takes the account and the token of the environment. -/
def TakenByTwilio (libraries : Libraries) (env : Environment) : Prop :=
  ∀ accountSid authToken, textOf env "TWILIO_ACCOUNT_SID" = some accountSid →
    textOf env "TWILIO_AUTH_TOKEN" = some authToken →
    libraries.twilioThrows accountSid authToken = none

/-- What the validation leaves open: that pino takes its level, that the list of private
networks can be read, and that the Twilio client takes its credentials. -/
structure Startable (libraries : Libraries) (process : Process) (env : Environment) : Prop where
  logger : libraries.pinoThrows (logLevel process) = none
  networks : ∀ raw, textOf env "PRIVATE_NETWORK_CIDRS" = some raw →
    ∃ guard, Guard.create raw = .ok guard
  twilio : "twilio" ∈ listed env → TakenByTwilio libraries env

/-- A provider has been built from the credentials of its own, and none of them is empty. -/
def Credentialed (env : Environment) (provider : SmsProvider) : Prop :=
  ∀ credential ∈ provider.credentials,
    credential.2 ≠ "" ∧ env credential.1 = some (.text credential.2)

section Started

variable {joi : Joi} {libraries : Libraries} {process : Process} {config env : Environment}

theorem exists_logger_iff : (∃ level, createLogger libraries process = .ok level) ↔
    libraries.pinoThrows (logLevel process) = none := by
  cases hthrows : libraries.pinoThrows (logLevel process) <;> simp [createLogger, hthrows]

theorem prisma_create (hjoi : joi.Documented)
    (h : validateEnvironment joi libraries.primitives process.config = .ok env) :
    ∃ url, PrismaService.create process env = .ok url ∧ url ≠ "" ∧
      env "DATABASE_URL" = some (.text url) := by
  obtain ⟨url, hurl, henv⟩ := exists_text hjoi h "DATABASE_URL" (by decide)
  have hassigned : process.assigned env "DATABASE_URL" = some url := by
    cases hprocess : process.env "DATABASE_URL" with
    | none => simp [Process.assigned, hprocess, textOf_of_text henv]
    | some value =>
        have hconfig : process.config "DATABASE_URL" = some (.text value) := by
          simp [Process.config, hprocess]
        have hkept := kept_of_validated hjoi h (by decide) hconfig
        obtain rfl : value = url := by simpa [henv, eq_comm] using hkept
        simp [Process.assigned, hprocess]
  exact ⟨url, by simp [PrismaService.create, hassigned, hurl], hurl, henv⟩

theorem twilio_create (hjoi : joi.Documented)
    (h : validateEnvironment joi libraries.primitives config = .ok env)
    (hlisted : "twilio" ∈ listed env) :
    ((∃ provider, TwilioProvider.create libraries env = .ok provider) ↔
      TakenByTwilio libraries env) ∧
    ∀ provider, TwilioProvider.create libraries env = .ok provider →
      provider.providerName = "twilio" ∧ Credentialed env provider := by
  obtain ⟨accountSid, hsid, hsidEq⟩ :=
    exists_credential hjoi h hlisted "TWILIO_ACCOUNT_SID" (by decide)
  obtain ⟨authToken, htoken, htokenEq⟩ :=
    exists_credential hjoi h hlisted "TWILIO_AUTH_TOKEN" (by decide)
  obtain ⟨fromNumber, hnumber, hnumberEq⟩ :=
    exists_credential hjoi h hlisted "TWILIO_FROM_NUMBER" (by decide)
  have htaken :
      TakenByTwilio libraries env ↔ libraries.twilioThrows accountSid authToken = none := by
    simp [TakenByTwilio, textOf_of_text hsidEq, textOf_of_text htokenEq]
  rw [htaken]
  simp only [TwilioProvider.create, getText_of_text hsidEq, getText_of_text htokenEq,
    getText_of_text hnumberEq, bind, Except.bind]
  cases libraries.twilioThrows accountSid authToken with
  | some message => simp
  | none =>
      refine ⟨by simp, fun provider hprovider => ?_⟩
      obtain rfl := Except.ok.inj hprovider
      exact ⟨rfl, by simp [Credentialed, SmsProvider.credentials, *]⟩

theorem bird_create (hjoi : joi.Documented)
    (h : validateEnvironment joi libraries.primitives config = .ok env)
    (hlisted : "bird" ∈ listed env) :
    ∃ provider, BirdProvider.create env = .ok provider ∧ provider.providerName = "bird" ∧
      Credentialed env provider := by
  obtain ⟨apiKey, hkey, hkeyEq⟩ :=
    exists_credential hjoi h hlisted "BIRD_API_KEY" (by decide)
  obtain ⟨workspaceId, hworkspace, hworkspaceEq⟩ :=
    exists_credential hjoi h hlisted "BIRD_WORKSPACE_ID" (by decide)
  obtain ⟨channelId, hchannel, hchannelEq⟩ :=
    exists_credential hjoi h hlisted "BIRD_CHANNEL_ID" (by decide)
  simp only [BirdProvider.create, getText_of_text hkeyEq, getText_of_text hworkspaceEq,
    getText_of_text hchannelEq, bind, Except.bind]
  refine ⟨_, rfl, rfl, ?_⟩
  simp [Credentialed, SmsProvider.credentials, *]

theorem exists_builder (hjoi : joi.Documented)
    (h : validateEnvironment joi libraries.primitives config = .ok env) {name : String}
    (hlisted : name ∈ listed env) : ∃ build, builders libraries env name = some build ∧
      ((∃ provider, build = .ok provider) ↔ (name = "twilio" → TakenByTwilio libraries env)) ∧
      ∀ provider, build = .ok provider →
        provider.providerName = name ∧ Credentialed env provider := by
  obtain ⟨providers, hne, -, hsupported, hpriority⟩ := exists_providers hjoi h
  have hname := hsupported (listed_of_priority hne hsupported hpriority ▸ hlisted)
  simp only [supportedProviders, List.mem_cons, List.not_mem_nil, or_false] at hname
  obtain rfl | rfl := hname
  · obtain ⟨htaken, hcredentialed⟩ := twilio_create hjoi h hlisted
    exact ⟨_, rfl, by simpa using htaken, hcredentialed⟩
  · obtain ⟨provider, hcreate, hname, hcredentialed⟩ := bird_create hjoi h hlisted
    refine ⟨_, rfl, by simp [hcreate], fun other hother => ?_⟩
    obtain rfl := Except.ok.inj (hcreate.symm.trans hother)
    exact ⟨hname, hcredentialed⟩

theorem buildConfiguredProviders_iff (hjoi : joi.Documented)
    (h : validateEnvironment joi libraries.primitives config = .ok env) {built : List SmsProvider} :
    buildConfiguredProviders libraries env = .ok built ↔
      List.Forall₂ (fun name provider => builders libraries env name = some (.ok provider))
        (listed env) built := by
  obtain ⟨providers, hne, -, hsupported, hpriority⟩ := exists_providers hjoi h
  have hlisted := listed_of_priority hne hsupported hpriority
  rw [← mapM_filterMap_eq_ok_iff]
  · simp [buildConfiguredProviders, getText_of_text hpriority, bind, Except.bind,
      splitTrimmed_join hne hsupported, hlisted]
  · intro name hname
    obtain ⟨build, hbuild, -⟩ := exists_builder hjoi h hname
    simp [hbuild]

theorem exists_built_iff (hjoi : joi.Documented)
    (h : validateEnvironment joi libraries.primitives config = .ok env) :
    (∃ built, buildConfiguredProviders libraries env = .ok built) ↔
      ("twilio" ∈ listed env → TakenByTwilio libraries env) := by
  simp only [buildConfiguredProviders_iff hjoi h, exists_forall₂_iff]
  constructor
  · intro hall hlisted
    obtain ⟨provider, hprovider⟩ := hall "twilio" hlisted
    obtain ⟨build, hbuild, htaken, -⟩ := exists_builder hjoi h hlisted
    exact htaken.mp ⟨provider, Option.some.inj (hbuild.symm.trans hprovider)⟩ rfl
  · intro htaken name hname
    obtain ⟨build, hbuild, hiff, -⟩ := exists_builder hjoi h hname
    obtain ⟨provider, rfl⟩ := hiff.mpr fun heq => htaken (heq ▸ hname)
    exact ⟨provider, hbuild⟩

theorem built_names (hjoi : joi.Documented)
    (h : validateEnvironment joi libraries.primitives config = .ok env) {built : List SmsProvider}
    (hbuilt : buildConfiguredProviders libraries env = .ok built) :
    built.map SmsProvider.providerName = listed env ∧
      ∀ provider ∈ built, Credentialed env provider := by
  have hpairs : List.Forall₂ (fun (provider : SmsProvider) name =>
      Credentialed env provider ∧ provider.providerName = name) built (listed env) := by
    have hall := (buildConfiguredProviders_iff hjoi h).mp hbuilt
    have hmem := (List.forall₂_and_left _ _).mpr ⟨fun _ hname => hname, hall⟩
    refine List.Forall₂.flip (hmem.imp fun name provider hpair => ?_)
    obtain ⟨build, hbuild, -, hprovider⟩ := exists_builder hjoi h hpair.1
    exact (hprovider provider (Option.some.inj (hbuild.symm.trans hpair.2))).symm
  obtain ⟨hcredentialed, hnames⟩ := (List.forall₂_and_left _ _).mp hpairs
  refine ⟨?_, hcredentialed⟩
  rw [← List.forall₂_eq_eq_eq, List.forall₂_map_left_iff]
  exact hnames

/-- A started service keeps to its environment: the workers dispatch to the listed
providers, each with its credentials and its endpoint, and every number is the one of the
environment, with no fallback in its place. -/
structure Configured (env : Environment) (app : Application) : Prop where
  databaseUrl_ne_empty : app.databaseUrl ≠ ""
  databaseUrl : env "DATABASE_URL" = some (.text app.databaseUrl)
  listed_ne_nil : listed env ≠ []
  nodup_listed : (listed env).Nodup
  listed_supported : listed env ⊆ supportedProviders
  ordered : app.factory.getOrderedProviders.map SmsProvider.providerName = listed env
  dispatched : app.service.processor.orderedProviders = listed env
  credentialed : ∀ provider ∈ app.factory.getOrderedProviders, Credentialed env provider
  twilioEndpoint : "twilio" ∈ listed env → (configured app.endpoints.authToken).isSome
  birdEndpoint : "bird" ∈ listed env → (configured app.endpoints.signingKey).isSome
  limited : ∀ name ∈ listed env, 0 < app.limiter.limitFor name
  maxMessageLength : ∃ n : Nat, 0 < n ∧ app.sms.maxMessageLength = some n ∧
    env "MAX_MESSAGE_LENGTH" = some (.number n)
  idempotencyTtlHours : ∃ n : Nat, 0 < n ∧ app.sms.idempotencyTtlHours = some n ∧
    env "IDEMPOTENCY_TTL_HOURS" = some (.number n)
  maxRetryRounds :
    env "PROVIDER_MAX_RETRY_ROUNDS" = some (.number app.service.processor.maxRetryRounds)
  ambiguousOutcomeExpiryMs : env "AMBIGUOUS_OUTCOME_EXPIRY_MS" =
    some (.number app.service.processor.ambiguousOutcomeExpiryMs)
  staleAfterMs :
    env "PROCESSING_STALE_AFTER_MS" = some (.number app.service.maintenance.staleAfterMs)
  recoveryBatchSize : env "PROCESSING_RECOVERY_BATCH_SIZE" =
    some (.number app.service.maintenance.recoveryBatchSize)
  recoveryIntervalMs :
    env "PROCESSING_RECOVERY_INTERVAL_MS" = some (.number app.recoveryIntervalMs)

theorem getOrderedProviders_create (hjoi : joi.Documented)
    (h : validateEnvironment joi libraries.primitives config = .ok env) {built : List SmsProvider}
    (hbuilt : buildConfiguredProviders libraries env = .ok built) :
    ∃ factory, ProviderFactory.create env built = .ok factory ∧
      factory.getOrderedProviders = built := by
  obtain ⟨providers, hne, hnodup, hsupported, hpriority⟩ := exists_providers hjoi h
  have hnames := (built_names hjoi h hbuilt).1
  rw [listed_of_priority hne hsupported hpriority] at hnames
  have hnonempty : providers.filter (· ≠ "") = providers := by
    refine List.filter_eq_self.mpr fun provider hprovider => ?_
    have hall : supportedProviders.all (· ≠ "") := by decide
    exact List.all_eq_true.mp hall provider (hsupported hprovider)
  refine ⟨⟨built.foldl register fun _ => none, providers⟩, ?_, ?_⟩
  · simp only [ProviderFactory.create, getText_of_text hpriority, bind, Except.bind,
      splitTrimmed_join hne hsupported, hnonempty]
  · subst hnames
    exact filterMap_register hnodup

theorem createEncryption_ok (hjoi : joi.Documented)
    (h : validateEnvironment joi libraries.primitives config = .ok env) :
    ∃ encryption, createEncryption libraries env = .ok encryption := by
  obtain ⟨text, henv, hlength⟩ := exists_encryptionKey hjoi h
  refine ⟨⟨libraries.primitives.ofBase64 (encode text.toList), hlength⟩, ?_⟩
  simp [createEncryption, getText_of_text henv, bind, Except.bind, EncryptionService.onModuleInit,
    hlength, Except.mapError]

theorem limitFor_pos (hjoi : joi.Documented)
    (h : validateEnvironment joi libraries.primitives config = .ok env) {name : String}
    (hname : name ∈ listed env) : 0 < (createLimiter env).limitFor name := by
  obtain ⟨providers, hne, -, hsupported, hpriority⟩ := exists_providers hjoi h
  have hsupport := hsupported (listed_of_priority hne hsupported hpriority ▸ hname)
  have hkey : keys.any fun key =>
      key.name = "SMS_PROVIDER_TPS_" ++ name.toUpper && key.rule = .positiveInteger := by
    have hall : supportedProviders.all fun name => keys.any fun key =>
        key.name = "SMS_PROVIDER_TPS_" ++ name.toUpper && key.rule = .positiveInteger := by
      decide +kernel
    exact List.all_eq_true.mp hall name hsupport
  obtain ⟨limit, hlimit, hlimitEq⟩ := exists_count hjoi h "SMS_PROVIDER_TPS" (by decide)
  simp only [ProviderRateLimiter.Config.limitFor, createLimiter, countOf_of_number hlimitEq]
  cases hvalue : env ("SMS_PROVIDER_TPS_" ++ name.toUpper) with
  | none =>
      have hcount : countOf env ("SMS_PROVIDER_TPS_" ++ name.toUpper) = none := by
        simp [countOf, integerOf, numberOf, hvalue, JavaScriptText.bigInt?]
      simpa [hcount] using hlimit
  | some value =>
      obtain ⟨n, hn, rfl⟩ := count_of_some hjoi h hkey hvalue
      simpa [countOf_of_number hvalue] using hn

theorem configured_isSome {value : String} (hne : value ≠ "") {name : String}
    (h : env name = some (.text value)) : (configured (textOf env name)).isSome := by
  simp [configured, textOf_of_text h, hne]

theorem exists_guard_iff (hjoi : joi.Documented)
    (h : validateEnvironment joi libraries.primitives config = .ok env) :
    (∃ guard, createGuard env = .ok guard) ↔
      ∀ raw, textOf env "PRIVATE_NETWORK_CIDRS" = some raw →
        ∃ guard, Guard.create raw = .ok guard := by
  obtain ⟨raw, -, henv⟩ := exists_text hjoi h "PRIVATE_NETWORK_CIDRS" (by decide)
  simp only [createGuard, getText_of_text henv, textOf_of_text henv, bind, Except.bind,
    Option.some.injEq, forall_eq']
  cases Guard.create raw <;> simp [Except.mapError]

theorem configured_assemble (hjoi : joi.Documented)
    (h : validateEnvironment joi libraries.primitives config = .ok env) {databaseUrl : String}
    (hurl : databaseUrl ≠ "") (hurlEq : env "DATABASE_URL" = some (.text databaseUrl))
    {built : List SmsProvider} (hbuilt : buildConfiguredProviders libraries env = .ok built)
    {factory : ProviderFactory} (hordered : factory.getOrderedProviders = built)
    (logLevel : String) (guard : Guard) (encryption : EncryptionService.Service)
    (serviceUrl redisUrl : String) (port : Setting) :
    Configured env (assemble libraries env logLevel databaseUrl factory guard encryption serviceUrl
      redisUrl port) := by
  obtain ⟨providers, hne, hnodup, hsupported, hpriority⟩ := exists_providers hjoi h
  have hlisted := listed_of_priority hne hsupported hpriority
  obtain ⟨hnames, hcredentialed⟩ := built_names hjoi h hbuilt
  obtain ⟨rounds, hrounds, hroundsEq⟩ := exists_count hjoi h "PROVIDER_MAX_RETRY_ROUNDS" (by decide)
  obtain ⟨expiry, hexpiry, hexpiryEq⟩ :=
    exists_count hjoi h "AMBIGUOUS_OUTCOME_EXPIRY_MS" (by decide)
  obtain ⟨stale, hstale, hstaleEq⟩ := exists_count hjoi h "PROCESSING_STALE_AFTER_MS" (by decide)
  obtain ⟨batch, hbatch, hbatchEq⟩ :=
    exists_count hjoi h "PROCESSING_RECOVERY_BATCH_SIZE" (by decide)
  obtain ⟨interval, hinterval, hintervalEq⟩ :=
    exists_count hjoi h "PROCESSING_RECOVERY_INTERVAL_MS" (by decide)
  obtain ⟨length, hlength, hlengthEq⟩ := exists_count hjoi h "MAX_MESSAGE_LENGTH" (by decide)
  obtain ⟨ttl, httl, httlEq⟩ := exists_count hjoi h "IDEMPOTENCY_TTL_HOURS" (by decide)
  refine
    { databaseUrl_ne_empty := hurl
      databaseUrl := hurlEq
      listed_ne_nil := hlisted ▸ hne
      nodup_listed := hlisted ▸ hnodup
      listed_supported := hlisted ▸ hsupported
      ordered := hordered ▸ hnames
      dispatched := (congrArg (List.map SmsProvider.providerName) hordered).trans hnames
      credentialed := hordered ▸ hcredentialed
      twilioEndpoint := fun hmem => ?_
      birdEndpoint := fun hmem => ?_
      limited := fun name hname => limitFor_pos hjoi h hname
      maxMessageLength := ⟨length, hlength, countOf_of_number hlengthEq, hlengthEq⟩
      idempotencyTtlHours := ⟨ttl, httl, countOf_of_number httlEq, httlEq⟩
      maxRetryRounds := readPositiveInt_count hrounds hroundsEq 3
      ambiguousOutcomeExpiryMs := readPositiveInt_count hexpiry hexpiryEq 900000
      staleAfterMs := readPositiveInt_count hstale hstaleEq 300000
      recoveryBatchSize := readPositiveInt_count hbatch hbatchEq 100
      recoveryIntervalMs := readPositiveInt_count hinterval hintervalEq 60000 }
  · obtain ⟨value, hvalue, henv⟩ := exists_credential hjoi h hmem "TWILIO_AUTH_TOKEN" (by decide)
    exact configured_isSome hvalue henv
  · obtain ⟨value, hvalue, henv⟩ :=
      exists_credential hjoi h hmem "BIRD_WEBHOOK_SIGNING_KEY" (by decide)
    exact configured_isSome hvalue henv

/-- An environment that has passed its validation starts the service exactly where pino takes
its level, the list of private networks can be read and the Twilio client takes its
credentials, and the service then keeps to it. -/
theorem validated_environment_starts (hjoi : joi.Documented)
    (h : validateEnvironment joi libraries.primitives process.config = .ok env) :
    ((∃ app, start libraries process env = .ok app) ↔ Startable libraries process env) ∧
      ∀ app, start libraries process env = .ok app → Configured env app := by
  obtain ⟨databaseUrl, hprisma, hurl, hurlEq⟩ := prisma_create hjoi h
  obtain ⟨encryption, hencryption⟩ := createEncryption_ok hjoi h
  obtain ⟨serviceUrl, -, hserviceUrl⟩ := exists_text hjoi h "SERVICE_URL" (by decide)
  obtain ⟨redisUrl, -, hredisUrl⟩ := exists_text hjoi h "REDIS_URL" (by decide)
  obtain ⟨port, hport⟩ := exists_setting h "PORT" (by decide)
  have hstartable : Startable libraries process env ↔
      (∃ level, createLogger libraries process = .ok level) ∧
        (∃ guard, createGuard env = .ok guard) ∧
        ∃ built, buildConfiguredProviders libraries env = .ok built := by
    rw [exists_logger_iff, exists_guard_iff hjoi h, exists_built_iff hjoi h]
    exact ⟨fun hs => ⟨hs.logger, hs.networks, hs.twilio⟩, fun hs => ⟨hs.1, hs.2.1, hs.2.2⟩⟩
  rw [hstartable]
  cases hlogger : createLogger libraries process with
  | error error => simp [start, hlogger, bind, Except.bind]
  | ok level =>
      cases hbuilt : buildConfiguredProviders libraries env with
      | error error => simp [start, hlogger, hprisma, hbuilt, bind, Except.bind]
      | ok built =>
          obtain ⟨factory, hfactory, hordered⟩ := getOrderedProviders_create hjoi h hbuilt
          cases hguard : createGuard env with
          | error error =>
              simp [start, hlogger, hprisma, hbuilt, hfactory, hguard, bind, Except.bind]
          | ok guard =>
              have hstart : start libraries process env =
                  .ok (assemble libraries env level databaseUrl factory guard encryption serviceUrl
                    redisUrl port) := by
                simp [start, hlogger, hprisma, hbuilt, hfactory, hguard, hencryption,
                  getText_of_text hserviceUrl, getText_of_text hredisUrl, getOrThrow, hport, bind,
                  Except.bind]
              refine ⟨by simp [hstart], fun app happ => ?_⟩
              rw [← Except.ok.inj (hstart.symm.trans happ)]
              exact configured_assemble hjoi h hurl hurlEq hbuilt hordered level guard encryption
                serviceUrl redisUrl port

end Started

section Samples

def sampleJoi : Joi where
  check name rule value :=
    if rule.admits value then .ok value else .error (name ++ " is invalid")
  required name := name ++ " is required"
  invalid name := name ++ " contains an invalid value"
  describe messages := messages.headD ""

/-- The base64 text of 32 zero bytes. -/
def sampleKey : String :=
  "AAAAAAAAAAAAAAAAAAAAAAAAAAAAAAAAAAAAAAAAAAA="

def sampleSettings : List (String × String) :=
  [("SERVICE_URL", "http://localhost:3000"), ("PRIVATE_NETWORK_CIDRS", "127.0.0.1/32,::1/128"),
    ("DATABASE_URL", "postgresql://localhost:5432/sms"), ("REDIS_URL", "redis://localhost:6379"),
    ("SMS_PROVIDER_PRIORITY", "bird, twilio"), ("TWILIO_ACCOUNT_SID", "AC1"),
    ("TWILIO_AUTH_TOKEN", "auth-token"), ("TWILIO_FROM_NUMBER", "+14155552671"),
    ("BIRD_API_KEY", "bird-api-key"), ("BIRD_WORKSPACE_ID", "bird-workspace"),
    ("BIRD_CHANNEL_ID", "bird-channel"), ("BIRD_WEBHOOK_SIGNING_KEY", "bird-webhook-key"),
    ("ENCRYPTION_KEY", sampleKey)]

/-- The settings in the file, the database and the level in the process. -/
def sampleProcess (level : String) : Process where
  env name := [("LOG_LEVEL", level), ("DATABASE_URL", "postgresql://database:5432/sms")].lookup name
  file name := sampleSettings.lookup name

def sampleLibraries : Libraries where
  primitives := { EncryptionService.samplePrimitives with
    ofBase64 := fun text =>
      if text = encode sampleKey.toList then List.replicate 32 0
      else EncryptionService.samplePrimitives.ofBase64 text }
  metadataColumn := fun _ => .null
  endpoints := ProviderIsolation.sampleEndpoints
  twilioThrows accountSid _ :=
    if accountSid.startsWith "AC" then none else some "accountSid must start with AC"
  pinoThrows level :=
    if ["fatal", "error", "warn", "info", "debug", "trace", "silent"].contains level then none
    else some ("default level:" ++ level ++ " must be included in custom levels")

def sampleValidated (level : String) : Environment :=
  converted sampleJoi sampleLibraries.primitives (sampleProcess level).config

theorem sampleJoi_check {name : String} {rule : Rule} {value value' : Setting}
    (h : sampleJoi.check name rule value = .ok value') : rule.admits value ∧ value' = value := by
  simp only [sampleJoi] at h
  split at h
  · rename_i hadmits
    exact ⟨hadmits, (Except.ok.inj h).symm⟩
  · cases h

theorem documented_sampleJoi : sampleJoi.Documented where
  admits h := by
    obtain ⟨hadmits, rfl⟩ := sampleJoi_check h
    exact hadmits
  keeps _ h := (sampleJoi_check h).2

theorem validate_sample {level : String} (hlevel : level = "debug" ∨ level = "verbose") :
    validateEnvironment sampleJoi sampleLibraries.primitives (sampleProcess level).config =
      .ok (sampleValidated level) := by
  have herrors :
      errors sampleJoi sampleLibraries.primitives (sampleProcess level).config = [] := by
    obtain rfl | rfl := hlevel <;> decide +kernel
  have hmissing : missingCredential (converted sampleJoi sampleLibraries.primitives
      (sampleProcess level).config) = none := by
    obtain rfl | rfl := hlevel <;> decide +kernel
  simp [validateEnvironment, herrors, hmissing, sampleValidated]

theorem startable_sample :
    Startable sampleLibraries (sampleProcess "debug") (sampleValidated "debug") where
  logger := by decide +kernel
  networks raw hraw := by
    have hnetworks : textOf (sampleValidated "debug") "PRIVATE_NETWORK_CIDRS" =
        some "127.0.0.1/32,::1/128" := by
      decide +kernel
    have hguard : (Guard.create "127.0.0.1/32,::1/128").toOption.isSome := by
      decide +kernel
    rw [hnetworks] at hraw
    obtain rfl := Option.some.inj hraw
    cases hcreate : Guard.create "127.0.0.1/32,::1/128" with
    | error thrown => simp [hcreate, Except.toOption] at hguard
    | ok guard => exact ⟨guard, rfl⟩
  twilio _ accountSid authToken hsid _ := by
    have haccount : textOf (sampleValidated "debug") "TWILIO_ACCOUNT_SID" = some "AC1" := by
      decide +kernel
    rw [haccount] at hsid
    obtain rfl := Option.some.inj hsid
    exact if_pos (by decide +kernel)

/-- The database of the process goes before the one of the file, and a level that pino does
not know ends the start. -/
theorem validated_environment_starts_sample :
    (∃ app, start sampleLibraries (sampleProcess "debug") (sampleValidated "debug") = .ok app ∧
      Configured (sampleValidated "debug") app ∧
      app.databaseUrl = "postgresql://database:5432/sms" ∧
      app.service.processor.orderedProviders = ["bird", "twilio"]) ∧
    ¬ ∃ app, start sampleLibraries (sampleProcess "verbose") (sampleValidated "verbose") =
      .ok app := by
  obtain ⟨hstarts, hconfigured⟩ :=
    validated_environment_starts documented_sampleJoi (validate_sample (Or.inl rfl))
  obtain ⟨hverbose, -⟩ :=
    validated_environment_starts documented_sampleJoi (validate_sample (Or.inr rfl))
  obtain ⟨app, happ⟩ := hstarts.mpr startable_sample
  have hlisted : listed (sampleValidated "debug") = ["bird", "twilio"] := by
    decide +kernel
  have hdatabase : sampleValidated "debug" "DATABASE_URL" =
      some (.text "postgresql://database:5432/sms") := by
    decide +kernel
  have happUrl := (hconfigured app happ).databaseUrl
  rw [hdatabase] at happUrl
  refine ⟨⟨app, happ, hconfigured app happ, by simpa [eq_comm] using happUrl,
    (hconfigured app happ).dispatched.trans hlisted⟩, fun hstart => ?_⟩
  have hknown : (sampleLibraries.pinoThrows (logLevel (sampleProcess "verbose"))).isSome := by
    decide +kernel
  simp [(hverbose.mp hstart).logger] at hknown

end Samples

end SmsNotification.ServiceStartup
