import Turnstile.Cache
import Turnstile.Gate
import Turnstile.RefreshTokens
import Turnstile.Text.Blank

/-!
# Configuration

The settings of the shop's shared-state layer.  Operators give them as environment variables; a
number that is missing or cannot be read is the default (`Config.ofEnvironment`), so loading never
fails.  `Config.validate` finds settings that load but make no sense.
-/

namespace Turnstile

open Turnstile.Json Turnstile.Text Turnstile.Time

/-- The connection to the shared store. -/
structure RedisConfig where
  url : String
  connectTimeoutMillis : UInt64
  commandTimeoutMillis : UInt64
  deriving DecidableEq, Repr

/-- The idempotency gate. -/
structure IdempotencyConfig where
  lockSeconds : UInt64
  maxBodyBytes : UInt64
  deriving DecidableEq, Repr

/-- The lifetimes of cached values. -/
structure CacheConfig where
  productSeconds : UInt64
  curationSeconds : UInt64
  refreshTokenSeconds : UInt64
  deriving DecidableEq, Repr

/-- The sizes of pages. -/
structure PagingConfig where
  defaultSize : UInt64
  maxSize : UInt64
  deriving DecidableEq, Repr

/-- All settings. -/
structure Config where
  redis : RedisConfig
  idempotency : IdempotencyConfig
  cache : CacheConfig
  paging : PagingConfig
  deriving DecidableEq, Repr

/-- How long connecting may take. -/
def RedisConfig.connectTimeout (c : RedisConfig) : Span := .ofMillis c.connectTimeoutMillis.toNat

/-- How long a command may take. -/
def RedisConfig.commandTimeout (c : RedisConfig) : Span := .ofMillis c.commandTimeoutMillis.toNat

/-- The lifetime of locks. -/
def IdempotencyConfig.lockLifetime (c : IdempotencyConfig) : Span := .ofSeconds c.lockSeconds.toNat

/-- The lifetime of products. -/
def CacheConfig.productLifetime (c : CacheConfig) : Span := .ofSeconds c.productSeconds.toNat

/-- The lifetime of curation pages. -/
def CacheConfig.curationLifetime (c : CacheConfig) : Span := .ofSeconds c.curationSeconds.toNat

/-- The lifetime of refresh tokens. -/
def CacheConfig.refreshTokenLifetime (c : CacheConfig) : Span :=
  .ofSeconds c.refreshTokenSeconds.toNat

namespace Config

/-- The settings of an operator who sets nothing. -/
def default : Config where
  redis := ⟨"redis://127.0.0.1:6379", 2000, 500⟩
  idempotency := ⟨.ofNat Gate.defaultLifetime.seconds, 1024 * 1024⟩
  cache := ⟨.ofNat Cache.defaultProductLifetime.seconds, .ofNat Cache.defaultCurationLifetime.seconds,
    .ofNat RefreshTokens.defaultLifetime.seconds⟩
  paging := ⟨10, 100⟩

instance : Inhabited Config := ⟨default⟩

/-! ## Environment -/

/-- What each variable is set to. -/
abbrev Environment := String → Option String

/-- The number that a variable is set to, or the default. -/
def number (env : Environment) (variableName : String) (otherwise : UInt64) : UInt64 :=
  match env variableName with
  | none => otherwise
  | some setting => (Decimal.readUInt64 (Blank.trim setting.toList)).toOption.getD otherwise

/-- The settings in an environment. -/
def ofEnvironment (env : Environment) : Config where
  redis :=
    { url := (env "REDIS_URL").getD default.redis.url
      connectTimeoutMillis :=
        number env "REDIS_CONNECT_TIMEOUT_MS" default.redis.connectTimeoutMillis
      commandTimeoutMillis :=
        number env "REDIS_COMMAND_TIMEOUT_MS" default.redis.commandTimeoutMillis }
  idempotency :=
    { lockSeconds := number env "IDEMPOTENCY_LOCK_TTL_SECS" default.idempotency.lockSeconds
      maxBodyBytes := number env "IDEMPOTENCY_MAX_BODY_BYTES" default.idempotency.maxBodyBytes }
  cache :=
    { productSeconds := number env "CACHE_PRODUCT_TTL_SECS" default.cache.productSeconds
      curationSeconds := number env "CACHE_CURATION_TTL_SECS" default.cache.curationSeconds
      refreshTokenSeconds :=
        number env "REFRESH_TOKEN_TTL_SECS" default.cache.refreshTokenSeconds }
  paging :=
    { defaultSize := number env "PAGINATION_DEFAULT_SIZE" default.paging.defaultSize
      maxSize := number env "PAGINATION_MAX_SIZE" default.paging.maxSize }

/-! ## Validation -/

/-- Settings that make no sense. -/
inductive Defect where
  /-- A time that must not be zero is; the variable that sets it. -/
  | zeroDuration (variableName : String)
  /-- The default page size is zero or above the limit. -/
  | pageSize (defaultSize maxSize : UInt64)
  deriving DecidableEq, Repr

/-- The wording of a defect. -/
def Defect.message : Defect → String
  | .zeroDuration variableName => s!"{variableName} must be greater than zero"
  | .pageSize defaultSize maxSize =>
    s!"Default page size {defaultSize.toNat} must be between 1 and max page size {maxSize.toNat}"

/-- The times that must not be zero, with the variables that set them, in the order in which they
are looked at. -/
def checkedTimes (c : Config) : List (String × UInt64) :=
  [("REDIS_COMMAND_TIMEOUT_MS", c.redis.commandTimeoutMillis),
    ("IDEMPOTENCY_LOCK_TTL_SECS", c.idempotency.lockSeconds),
    ("CACHE_PRODUCT_TTL_SECS", c.cache.productSeconds),
    ("CACHE_CURATION_TTL_SECS", c.cache.curationSeconds),
    ("REFRESH_TOKEN_TTL_SECS", c.cache.refreshTokenSeconds)]

/-- Finds the first defect: times before page sizes. -/
def validate (c : Config) : Except Defect Unit :=
  match c.checkedTimes.find? (·.2 = 0) with
  | some time => .error (.zeroDuration time.1)
  | none =>
    if c.paging.defaultSize = 0 ∨ c.paging.maxSize < c.paging.defaultSize then
      .error (.pageSize c.paging.defaultSize c.paging.maxSize)
    else .ok ()

end Config

/-! ## JSON -/

instance : ToJson RedisConfig where
  toJson? c := record? [("url", toJson? c.url),
    ("connect_timeout_ms", toJson? c.connectTimeoutMillis),
    ("command_timeout_ms", toJson? c.commandTimeoutMillis)]

instance : OfJson RedisConfig where
  ofJson? := Fields.ofTree?
    (.required "url" (.required "connect_timeout_ms" (.required "command_timeout_ms" .done)))
    fun ((url, connect, command, ()) : String × UInt64 × UInt64 × Unit) => ⟨url, connect, command⟩

instance : ToJson IdempotencyConfig where
  toJson? c := record? [("lock_ttl_secs", toJson? c.lockSeconds),
    ("max_body_bytes", toJson? c.maxBodyBytes)]

instance : OfJson IdempotencyConfig where
  ofJson? := Fields.ofTree? (.required "lock_ttl_secs" (.required "max_body_bytes" .done))
    fun ((lock, body, ()) : UInt64 × UInt64 × Unit) => ⟨lock, body⟩

instance : ToJson CacheConfig where
  toJson? c := record? [("product_ttl_secs", toJson? c.productSeconds),
    ("curation_ttl_secs", toJson? c.curationSeconds),
    ("refresh_token_ttl_secs", toJson? c.refreshTokenSeconds)]

instance : OfJson CacheConfig where
  ofJson? := Fields.ofTree? (.required "product_ttl_secs" (.required "curation_ttl_secs"
    (.required "refresh_token_ttl_secs" .done)))
    fun ((product, curation, token, ()) : UInt64 × UInt64 × UInt64 × Unit) =>
      ⟨product, curation, token⟩

instance : ToJson PagingConfig where
  toJson? c := record? [("default_size", toJson? c.defaultSize), ("max_size", toJson? c.maxSize)]

instance : OfJson PagingConfig where
  ofJson? := Fields.ofTree? (.required "default_size" (.required "max_size" .done))
    fun ((size, max, ()) : UInt64 × UInt64 × Unit) => ⟨size, max⟩

instance : ToJson Config where
  toJson? c := record? [("redis", toJson? c.redis), ("idempotency", toJson? c.idempotency),
    ("cache", toJson? c.cache), ("pagination", toJson? c.paging)]

instance : OfJson Config where
  ofJson? := Fields.ofTree?
    (.required "redis" (.required "idempotency" (.required "cache" (.required "pagination" .done))))
    fun ((redis, idempotency, cache, paging, ()) :
        RedisConfig × IdempotencyConfig × CacheConfig × PagingConfig × Unit) =>
      ⟨redis, idempotency, cache, paging⟩

end Turnstile
