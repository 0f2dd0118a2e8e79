import IcpHandler.Service.DestinationUrl
import IcpHandler.Service.FrontDoors

/-
  How a handler starts: it reads its configuration from the
  environment, refuses one that is not fit for production, and
  builds its doors from what it finds around it.

  Main declarations:
    * `HandlerConfig`, `HandlerConfig.load`
    * `productionIssues`, `validateRuntime`
    * `Surroundings`, `buildAppState`
    * `start`
-/

------------------------------------------------------------
-- The Environment
------------------------------------------------------------

namespace IcpHandler

namespace Service

open Model

/- `std::env::var`, for the variables that are texts. -/
abbrev Environment := String → Option String

/- `env_default` -/
def envDefault
    (env : Environment)
    (key default : String) : String :=
  (env key).getD default

/- `env_bool` -/
def envBool
    (env : Environment)
    (key : String)
    (default : Bool) : Bool :=
  match env key with
  | some value =>
      ["1", "true", "yes", "on"].any fun word =>
        Text.eqIgnoreAsciiCase value word
  | none => default

/- Digits from the left, up to a bound. -/
def scanDigits
    (bound : Nat) : List Char → Nat → Except String Nat
  | [], value => .ok value
  | c :: rest, value =>
      if c.isDigit then
        let next := value * 10 + (c.toNat - 48)
        if next < bound then scanDigits bound rest next
        else
          .error "number too large to fit in target type"
      else .error "invalid digit found in string"

/- `str::parse`, of unsigned numbers below a bound. -/
def parseUnsigned
    (bound : Nat)
    (text : String) : Except String Nat :=
  match text.toList with
  | [] => .error "cannot parse integer from empty string"
  | ['+'] => .error "invalid digit found in string"
  | '+' :: digits => scanDigits bound digits 0
  | digits => scanDigits bound digits 0

/- A number of a variable, or a default in its place. -/
def envNumber
    (env : Environment)
    (bound : Nat)
    (key text : String)
    (default : Nat) : Nat :=
  (parseUnsigned bound (envDefault env key text)).toOption.getD
    default

/- `parse_dunning_schedule` -/
def parseDunningSchedule (text : String) : List UInt32 :=
  let hours :=
    (Text.splitOn ',' text).map Text.trim
      |>.filter (fun part => !part.isEmpty)
      |>.filterMap fun part =>
        (parseUnsigned (2 ^ 32) part).toOption
  (hours.filter fun n => 1 ≤ n && n ≤ 8760).map UInt32.ofNat

/- `split_csv` -/
def splitCsv (text : String) : List String :=
  ((Text.splitOn ',' text).map Text.trim).filter fun part =>
    !part.isEmpty

end Service

end IcpHandler

------------------------------------------------------------
-- Configuration
------------------------------------------------------------

namespace IcpHandler

namespace Service

open Model

/-
  `Config`, by what a handler is built from: beside what its
  service goes by, where it listens, what it asks of requests,
  its keys, its stores and its limits.
-/
structure HandlerConfig extends Config where
  host : String
  port : Nat
  grpcHost : String
  grpcPort : Nat
  requireIcpVersion : Bool
  requireRequestId : Bool
  requireIdempotencyKey : Bool
  signingKeyPem : Option String
  signingKid : String
  allowInsecureUrls : Bool
  corsAllowOrigins : List String
  apiKeysJson : Option String
  apiKeysFile : Option String
  enableDemoKeys : Bool
  commerceEnabled : Bool
  commerceDbPath : String
  stateDbPath : String
  redisUrl : Option String
  rateLimitPerMinute : UInt32
  preAuthRateLimitPerMinute : UInt32
  trustProxyHeaders : Bool

/- A port of the environment. -/
def envPort
    (env : Environment)
    (key default : String) : Except String Nat :=
  (parseUnsigned (2 ^ 16) (envDefault env key default)).mapError
    fun e => "invalid " ++ key ++ ": " ++ e

namespace HandlerConfig

/- `Config::load` -/
def load (env : Environment) : Except String HandlerConfig := do
  let host := envDefault env "HOST" "0.0.0.0"
  let port ← envPort env "PORT" "8082"
  let grpcHost := envDefault env "GRPC_HOST" host
  let grpcPort ← envPort env "GRPC_PORT" "50052"
  pure
    { host := host
      port := port
      grpcHost := grpcHost
      grpcPort := grpcPort
      icpVersion := envDefault env "ICP_VERSION" "2026-04-21"
      requireIcpVersion := envBool env "ICP_REQUIRE_VERSION" true
      requireMandate := envBool env "ICP_REQUIRE_MANDATE" true
      requireRequestId :=
        envBool env "ICP_REQUIRE_REQUEST_ID" false
      requireIdempotencyKey :=
        envBool env "ICP_REQUIRE_IDEMPOTENCY_KEY" false
      verifyMandateSignatures :=
        envBool env "ICP_VERIFY_MANDATE_SIGNATURES" true
      publicBaseUrl :=
        envDefault env "ICP_PUBLIC_BASE_URL"
          "http://127.0.0.1:8082"
      signingKeyPem := env "ICP_SIGNING_KEY_PEM"
      signingKid :=
        envDefault env "ICP_SIGNING_KID" "icp-receipt-2026-04"
      allowInsecureUrls :=
        envBool env "ICP_ALLOW_INSECURE_URLS" true
      corsAllowOrigins :=
        splitCsv (envDefault env "ICP_CORS_ALLOW_ORIGINS" "*")
      apiKeysJson := env "ICP_API_KEYS_JSON"
      apiKeysFile := env "ICP_API_KEYS_FILE"
      enableDemoKeys := envBool env "ICP_ENABLE_DEMO_KEYS" false
      commerceEnabled := envBool env "COMMERCE_ENABLED" true
      commerceDbPath :=
        envDefault env "COMMERCE_DB_PATH" "./commerce.db"
      stateDbPath :=
        envDefault env "ICP_STATE_DB_PATH" "./icp-state.db"
      redisUrl := env "REDIS_URL"
      webhookUrl := env "ICP_WEBHOOK_URL"
      webhookSecret := env "ICP_WEBHOOK_SECRET"
      idempotencyLeaseSecs :=
        envNumber env (2 ^ 64) "ICP_IDEMPOTENCY_LEASE_SECONDS"
          "60" 60
      rateLimitPerMinute :=
        .ofNat (envNumber env (2 ^ 32)
          "ICP_RATE_LIMIT_PER_MINUTE" "300" 300)
      preAuthRateLimitPerMinute :=
        .ofNat (envNumber env (2 ^ 32)
          "ICP_PRE_AUTH_RATE_LIMIT_PER_MINUTE" "120" 120)
      trustProxyHeaders :=
        envBool env "ICP_TRUST_PROXY_HEADERS" false
      subscriptionDunningScheduleHours :=
        parseDunningSchedule
          (envDefault env
            "ICP_SUBSCRIPTION_DUNNING_SCHEDULE_HOURS" "1,6,24")
      deploymentEnv :=
        envDefault env "ICP_DEPLOYMENT_ENV" "development"
      paymentExecutionMode :=
        envDefault env "ICP_PAYMENT_EXECUTION_MODE"
          "simulated" }

end HandlerConfig

end Service

end IcpHandler

------------------------------------------------------------
-- Validation
------------------------------------------------------------

namespace IcpHandler

namespace Service

open Model

/- The files of the machine. -/
structure FileSystem where
  isDir : String → Bool
  pathExists : String → Bool
  read : String → Except String Bytes

/-
  `Path::parent`, without the separators and the dots that it
  may repeat. The root has none, nor has the empty path.
-/
def pathParent (path : String) : Option String :=
  let rooted := Text.startsWith "/" path
  let named (part : String × Nat) : Bool :=
    !part.1.isEmpty && (part.1 != "." || part.2 == 0)
  let parts :=
    ((Text.splitOn '/' path).zipIdx.filter named).map Prod.fst
  if parts.isEmpty then none
  else
    some ((if rooted then "/" else "") ++
      "/".intercalate parts.dropLast)

/- `validate_sqlite_file_path` -/
def validateSqliteFilePath
    (files : FileSystem)
    (name path : String) : Option String :=
  if path == ":memory:" || Text.startsWith "postgres://" path ||
      Text.startsWith "postgresql://" path then none
  else if files.isDir path then
    some (name ++
      " must be a database file path, not a directory")
  else
    match pathParent path with
    | none => none
    | some parent =>
        if !parent.isEmpty && !files.pathExists parent then
          some (name ++ " parent directory must exist")
        else none

/- `validate_payment_mode` -/
def validatePaymentMode (mode : String) : Except String Unit :=
  if mode == "simulated" || mode == "external_required" then
    .ok ()
  else
    .error ("invalid ICP_PAYMENT_EXECUTION_MODE `" ++ mode ++
      "`; expected simulated|external_required")

/- `require_https` -/
def requireHttps (name url : String) : Except String Unit :=
  if Text.startsWith "https://" url then .ok ()
  else
    .error (name ++
      " must use https:// when insecure URLs are disabled")

/- A text that is missing, or blank. -/
def isBlank (text : Option String) : Bool :=
  text.all fun value => (Text.trim value).isEmpty

def issueIf (bad : Bool) (issue : String) : List String :=
  if bad then [issue] else []

/- What keeps a configuration out of production. -/
def productionIssues
    (files : FileSystem)
    (config : HandlerConfig) : List String :=
  List.flatten
    [ issueIf config.enableDemoKeys
        "ICP_ENABLE_DEMO_KEYS must be false",
      issueIf
        (config.apiKeysJson.isNone && config.apiKeysFile.isNone)
        "ICP_API_KEYS_JSON or ICP_API_KEYS_FILE is required",
      issueIf config.signingKeyPem.isNone
        "ICP_SIGNING_KEY_PEM is required",
      issueIf config.allowInsecureUrls
        "ICP_ALLOW_INSECURE_URLS must be false",
      issueIf
        (!Text.startsWith "https://" config.publicBaseUrl)
        "ICP_PUBLIC_BASE_URL must be https://",
      issueIf (config.corsAllowOrigins.any fun o => o == "*")
        "ICP_CORS_ALLOW_ORIGINS must not contain *",
      issueIf (!config.requireMandate)
        "ICP_REQUIRE_MANDATE must be true",
      issueIf (!config.verifyMandateSignatures)
        "ICP_VERIFY_MANDATE_SIGNATURES must be true",
      issueIf (!config.requireIcpVersion)
        "ICP_REQUIRE_VERSION must be true",
      issueIf (!config.requireRequestId)
        "ICP_REQUIRE_REQUEST_ID must be true",
      issueIf (!config.requireIdempotencyKey)
        "ICP_REQUIRE_IDEMPOTENCY_KEY must be true",
      issueIf (config.stateDbPath == ":memory:")
        "ICP_STATE_DB_PATH must be durable",
      (validateSqliteFilePath files "ICP_STATE_DB_PATH"
        config.stateDbPath).toList,
      issueIf (!config.commerceEnabled)
        "COMMERCE_ENABLED must be true",
      issueIf (config.commerceDbPath == ":memory:")
        "COMMERCE_DB_PATH must be durable",
      (validateSqliteFilePath files "COMMERCE_DB_PATH"
        config.commerceDbPath).toList,
      issueIf
        (config.paymentExecutionMode != "external_required")
        ("ICP_PAYMENT_EXECUTION_MODE must be " ++
          "external_required"),
      issueIf
        ((0 < config.rateLimitPerMinute ||
            0 < config.preAuthRateLimitPerMinute) &&
          isBlank config.redisUrl)
        ("REDIS_URL is required when production rate limits " ++
          "are enabled"),
      issueIf
        (config.webhookUrl.isSome &&
          isBlank config.webhookSecret)
        ("ICP_WEBHOOK_SECRET is required when " ++
          "ICP_WEBHOOK_URL is set"),
      issueIf (24 * 3600 ≤ config.idempotencyLeaseSecs)
        ("ICP_IDEMPOTENCY_LEASE_SECONDS must be well below " ++
          "the 24h cache TTL") ]

/- Where URLs have to be secure, those that are configured. -/
def requireSecureUrls
    (config : HandlerConfig) : Except String Unit :=
  if config.allowInsecureUrls then pure ()
  else do
    requireHttps "ICP_PUBLIC_BASE_URL" config.publicBaseUrl
    match config.webhookUrl with
    | some url => requireHttps "ICP_WEBHOOK_URL" url
    | none => pure ()

/- What is asked of a handler in production. -/
def requireProduction
    (files : FileSystem)
    (config : HandlerConfig) : Except String Unit :=
  let issues := productionIssues files config
  if issues.isEmpty then pure ()
  else
    throw ("invalid production configuration: " ++
      "; ".intercalate issues)

/- `validate_runtime` -/
def validateRuntime
    (files : FileSystem)
    (config : HandlerConfig) : Except String Unit := do
  validatePaymentMode config.paymentExecutionMode
  requireSecureUrls config
  if config.isProduction then requireProduction files config
  else pure ()

end Service

end IcpHandler

------------------------------------------------------------
-- The Handler
------------------------------------------------------------

namespace IcpHandler

namespace Service

open Model

/-
  What a handler finds when it starts: the machine, the other
  packages, its databases, and the server that the limiters of
  all handlers share.
-/
structure Surroundings (S : Type) where
  files : FileSystem
  urls : UrlPackage
  deps : Deps
  -- `SocketAddr`, from a host and a port
  parseAddress : String → Except String Unit
  -- `CommerceEngine::open`
  openEngine : String → Except String Unit
  -- `ReceiptSigner::from_pkcs8_pem`
  loadSigner : String → String → Except String Unit
  -- `state_db::open`, with the stores over it
  openStores : String → Except String DedupWorld
  -- a connection for the limiter of a prefix
  connects : String → String → Except String Unit
  -- `serde_json::from_slice`, of the keys
  keysOfJson : Bytes → Except String (List ApiKey)
  keyOrder : IterationOrder ApiKey
  redis : Redis S
  redisState : S
  sha256 : Bytes → Bytes
  validHeader : String → Bool
  envelopeOfJson : Bytes → Except String IntentEnvelope

variable {S : Type}

/- The key of `ApiKeyStore::demo` -/
def demoKey : ApiKey :=
  { key := "icp_demo_key_123"
    tenantId := "merchant_demo"
    name := "Bundled demo key"
    rateLimitPerMinute := some 300 }

/- `load_api_keys` -/
def loadApiKeys
    (outside : Surroundings S)
    (config : HandlerConfig) : Except String ApiKeyStore :=
  match config.apiKeysJson with
  | some raw => do
      let keys ← outside.keysOfJson (utf8Bytes raw)
      ApiKeyStore.tryNew outside.keyOrder keys
  | none =>
      match config.apiKeysFile with
      | some path => do
          let bytes ← outside.files.read path
          let keys ← outside.keysOfJson bytes
          ApiKeyStore.tryNew outside.keyOrder keys
      | none =>
          if config.enableDemoKeys then
            pure (.new outside.keyOrder [demoKey])
          else pure (.new outside.keyOrder [])

/- The commerce engine, if there is to be one. -/
def openCommerce
    (outside : Surroundings S)
    (config : HandlerConfig) : Except String Bool :=
  if config.commerceEnabled then
    match outside.openEngine config.commerceDbPath with
    | .ok () => pure true
    | .error e =>
        if config.isProduction then
          throw ("failed to open iCommerce engine at `" ++
            config.commerceDbPath ++ "`: " ++ e)
        else pure false
  else pure false

/- The signer, from a given key or from one of its own. -/
def loadSigner
    (outside : Surroundings S)
    (config : HandlerConfig) : Except String Unit :=
  match config.signingKeyPem with
  | some pem =>
      (outside.loadSigner config.signingKid pem).mapError
        fun e => "load ICP receipt signing key: " ++ e
  | none => pure ()

/- Where events go that nobody has subscribed to. -/
def validateWebhookUrl
    (outside : Surroundings S)
    (config : HandlerConfig) : Except String Unit :=
  match config.webhookUrl with
  | some url =>
      (validateDestinationUrl outside.urls url
        config.allowInsecureUrls).mapError
          fun e => "ICP_WEBHOOK_URL: " ++ e
  | none => pure ()

/- `build_app_state` -/
def buildAppState
    (outside : Surroundings S)
    (config : HandlerConfig) :
    Except String (FrontDoors S × FrontWorld S) := do
  validateRuntime outside.files config
  validateWebhookUrl outside config
  let hasEngine ← openCommerce outside config
  loadSigner outside config
  let stores ←
    (outside.openStores config.stateDbPath).mapError fun e =>
      "open ICP state DB at `" ++ config.stateDbPath ++
        "`: " ++ e
  let distributed ←
    startLimiter (outside.connects "icp:rate_limit:tenant")
      config.isProduction config.redisUrl "tenant"
      "icp:rate_limit:tenant" config.rateLimitPerMinute
  let distributedPreAuth ←
    startLimiter (outside.connects "icp:rate_limit:pre_auth")
      config.isProduction config.redisUrl "pre-auth"
      "icp:rate_limit:pre_auth" config.preAuthRateLimitPerMinute
  let keys ← loadApiKeys outside config
  pure
    ({ svc :=
        { config := config.toConfig
          deps := outside.deps
          hasEngine := hasEngine
          signerKid := config.signingKid }
       keys := keys
       trustProxyHeaders := config.trustProxyHeaders
       requireIcpVersion := config.requireIcpVersion
       requireRequestId := config.requireRequestId
       requireIdempotencyKey := config.requireIdempotencyKey
       distributed := distributed
       distributedPreAuth := distributedPreAuth
       redis := outside.redis
       sha256 := outside.sha256
       validHeader := outside.validHeader
       envelopeOfJson := outside.envelopeOfJson },
     { service := stores
       limiter :=
        .new config.rateLimitPerMinute (60 * nanosPerSec)
       preAuthLimiter :=
        .new config.preAuthRateLimitPerMinute
          (60 * nanosPerSec)
       redis := outside.redisState })

/- `main`, as far as to the handler that is served. -/
def start
    (env : Environment)
    (outside : Surroundings S) :
    Except String (FrontDoors S × FrontWorld S) := do
  let config ← HandlerConfig.load env
  outside.parseAddress
    (config.host ++ ":" ++ toString config.port)
  outside.parseAddress
    (config.grpcHost ++ ":" ++ toString config.grpcPort)
  buildAppState outside config

end Service

end IcpHandler
