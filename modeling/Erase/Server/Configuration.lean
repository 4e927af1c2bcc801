import Erase.Library.PathTemplate
import Erase.Server.Calls
import Erase.Server.Traffic

/-!
The settings of a process, as it takes them from its environment.
-/

namespace Server

-- An address as the `url` crate parses it. The default port of a scheme is left out.
structure Url where
  scheme : String
  origin : String
  username : String
  password : Option String
  host : Option String
  port : Option Nat
  deriving DecidableEq, Repr

-- Times are in milliseconds.
structure Configuration extends Config where
  bind : String
  origins : List String
  hosts : List String
  cacheUrl : String
  keyPrefix : String
  staticDir : String
  maxInFlight : Nat
  requestRate : Nat
  challengeRate : Nat
  createRate : Nat
  cacheTimeout : Nat
  requestTimeout : Nat
  connectionLifetime : Nat
  requireSafeCache : Bool
  deriving DecidableEq, Repr

namespace Url

def authority (url : Url) : Except String String :=
  match url.host, url.port with
  | none, _ => .error "Origin lacks a host."
  | some host, some port => .ok (host ++ ":" ++ toString port)
  | some host, none => .ok host

-- The origin of an HTTP(S) address is its scheme, its host and a port that is not the default one.
def Lawful (parse : String → Option Url) : Prop :=
  ∀ text url host, parse text = some url → url.scheme ∈ ["http", "https"] → url.authority = .ok host
    → url.origin = url.scheme ++ "://" ++ host

end Url

namespace Configuration

def isWhitespace (c : Char) : Bool :=
  (9 ≤ c.toNat && c.toNat ≤ 13) || c.toNat = 0x20 || c.toNat = 0x85 || c.toNat = 0xA0
    || c.toNat = 0x1680 || (0x2000 ≤ c.toNat && c.toNat ≤ 0x200A) || c.toNat = 0x2028
    || c.toNat = 0x2029 || c.toNat = 0x202F || c.toNat = 0x205F || c.toNat = 0x3000

-- `str::trim`.
def trim (text : List Char) : List Char :=
  ((text.dropWhile isWhitespace).reverse.dropWhile isWhitespace).reverse

def isKeyPrefix (keyPrefix : String) : Bool :=
  keyPrefix ≠ "" && (asBytes keyPrefix).length ≤ 64
    && keyPrefix.toList.all fun c => c.isAlphanum || "_:-\x7b\x7d".toList.contains c

section

variable (parse : String → Option Url)

def normalize (origin : String) : Except String (String × String) := do
  match parse origin with
  | none => .error "Invalid PUBLIC_ORIGINS."
  | some url =>
    if !(["http", "https"].contains url.scheme) || url.origin ≠ origin || url.username ≠ ""
        || url.password.isSome then
      .error "PUBLIC_ORIGINS must contain plain HTTP(S) origins without trailing slashes."
    return (origin, ← url.authority)

def new (origins cacheUrl : String) : Except String Configuration := do
  let normalized ← ((origins.toList.splitOn ',').map fun origin => String.ofList (trim origin)).mapM
    (normalize parse)
  if normalized = [] then .error "At least one origin is required."
  return {
    Config.new with
    bind := "127.0.0.1:3001"
    origins := normalized.map Prod.fst
    hosts := normalized.map Prod.snd
    cacheUrl
    keyPrefix := "erase:\x7bnotes\x7d:"
    staticDir := "../web/dist"
    maxInFlight := 2
    requestRate := 100
    challengeRate := 10
    createRate := 8
    cacheTimeout := 5000
    requestTimeout := 300000
    connectionLifetime := 360000
    requireSafeCache := true }

def safeCache : Option String → Except String Bool
  | some "false" => .ok false
  | some "true" | none => .ok true
  | _ => .error "Invalid REQUIRE_SAFE_CACHE."

-- A variable that is not set, or not Unicode, has no value. `isSocketAddr` is what `BIND` parses as.
def fromEnv (isSocketAddr : String → Bool) (env : String → Option String)
    : Except String Configuration := do
  let number := Config.number fun name => (env name).map asBytes
  let config ← new parse ((env "PUBLIC_ORIGINS").getD "http://localhost:3001")
    ((env "CACHE_URL").getD "redis://127.0.0.1:6379/")
  let bind := (env "BIND").getD "127.0.0.1:3001"
  if !isSocketAddr bind then .error "Invalid BIND."
  let staticDir := (env "STATIC_DIR").getD "../web/dist"
  let keyPrefix := (env "CACHE_PREFIX").getD "erase:\x7bnotes\x7d:"
  if !isKeyPrefix keyPrefix then .error "Invalid CACHE_PREFIX."
  let powBits ← number "POW_BITS" 18 1 24
  let maxChallenges ← number "MAX_CHALLENGES" 4096 1 100000
  let maxNotes ← number "MAX_NOTES" 2048 1 100000
  let maxStorageBytes ← number "MAX_STORAGE_BYTES" (256 * 1024 * 1024) 1024 (2 * 1024 * 1024 * 1024)
  let maxInFlight ← number "MAX_IN_FLIGHT" 2 2 256
  let requestRate ← number "REQUESTS_PER_SECOND" 100 1 100000
  let challengeRate ← number "CHALLENGES_PER_SECOND" 10 1 100000
  let createRate ← number "CREATES_PER_SECOND" 8 1 100000
  let cacheTimeout ← number "CACHE_TIMEOUT_MS" 5000 50 10000
  let requestTimeout ← number "REQUEST_TIMEOUT_MS" 300000 1000 300000
  let connectionLifetime ← number "CONNECTION_LIFETIME_SECONDS" 360 5 360
  let requireSafeCache ← safeCache (env "REQUIRE_SAFE_CACHE")
  return {
    config with
    bind, staticDir, keyPrefix, powBits, maxChallenges, maxNotes, maxStorageBytes, maxInFlight
    requestRate, challengeRate, createRate, cacheTimeout, requestTimeout
    connectionLifetime := connectionLifetime * 1000
    requireSafeCache }

end

def limits (config : Configuration) : Limits where
  config := config.toConfig
  maxInFlight := config.maxInFlight
  requestRate := config.requestRate
  challengeRate := config.challengeRate
  createRate := config.createRate

-- An origin that requests may come from, and the host that they are sent to.
structure IsOrigin (parse : String → Option Url) (origin host : String) : Prop where
  parses : ∃ url, parse origin = some url ∧ url.scheme ∈ ["http", "https"] ∧ url.origin = origin
    ∧ url.username = "" ∧ url.password = none ∧ url.authority = .ok host

structure Valid (parse : String → Option Url) (config : Configuration) : Prop where
  inRange : config.toConfig.InRange
  nonempty : config.origins ≠ []
  origins : List.Forall₂ (IsOrigin parse) config.origins config.hosts
  keyPrefix : isKeyPrefix config.keyPrefix = true
  maxInFlight : 2 ≤ config.maxInFlight ∧ config.maxInFlight ≤ 256
  requestRate : 1 ≤ config.requestRate ∧ config.requestRate ≤ 100000
  challengeRate : 1 ≤ config.challengeRate ∧ config.challengeRate ≤ 100000
  createRate : 1 ≤ config.createRate ∧ config.createRate ≤ 100000
  cacheTimeout : 50 ≤ config.cacheTimeout ∧ config.cacheTimeout ≤ 10000
  requestTimeout : 1000 ≤ config.requestTimeout ∧ config.requestTimeout ≤ 300000
  connectionLifetime : 5000 ≤ config.connectionLifetime ∧ config.connectionLifetime ≤ 360000

section

variable {parse : String → Option Url}

theorem normalize_eq_ok {origin : String} {result : String × String}
    (h : normalize parse origin = .ok result) : result.1 = origin ∧ IsOrigin parse origin result.2 := by
  unfold normalize at h
  cases hparse : parse origin with
  | none => simp [hparse] at h
  | some url =>
    simp only [hparse, Except.guard_eq_ok, Except.bind_eq_ok] at h
    rcases h with ⟨hplain, host, hhost, hresult⟩
    cases hresult
    simp only [Bool.or_eq_true, Bool.not_eq_true', decide_eq_true_eq, not_or, Bool.not_eq_false,
      List.contains_iff_mem, ne_eq, not_not, Option.isSome_iff_ne_none] at hplain
    rcases hplain with ⟨⟨⟨hscheme, horigin⟩, husername⟩, hpassword⟩
    exact ⟨rfl, ⟨url, hparse, hscheme, horigin, husername, hpassword, hhost⟩⟩

theorem new_eq_ok {origins cacheUrl : String} {config : Configuration}
    (h : new parse origins cacheUrl = .ok config)
    : config.origins ≠ [] ∧ List.Forall₂ (IsOrigin parse) config.origins config.hosts
        ∧ config.challengeSeconds = 420 := by
  simp only [new, Except.bind_eq_ok, Except.guard_eq_ok, Except.mapM_eq_ok] at h
  rcases h with ⟨normalized, hnormalized, hne, h⟩
  cases h
  refine ⟨by simpa using hne, ?_, rfl⟩
  have hpairs : ∀ pair ∈ normalized, IsOrigin parse pair.1 pair.2 := by
    intro pair hpair
    rcases List.forall₂_iff_get.mp hnormalized with ⟨hlength, hget⟩
    rcases List.get_of_mem hpair with ⟨i, hi⟩
    have hnormalize := normalize_eq_ok (hget i (by omega) i.2)
    rw [hi] at hnormalize
    rw [hnormalize.1]
    exact hnormalize.2
  dsimp only
  clear hnormalized hne
  induction normalized with
  | nil => exact .nil
  | cons pair rest ih =>
    refine .cons (hpairs pair List.mem_cons_self) (ih ?_)
    intro other hother
    exact hpairs other (List.mem_cons_of_mem _ hother)

theorem fromEnv_valid {isSocketAddr : String → Bool} {env : String → Option String}
    {config : Configuration} (h : fromEnv parse isSocketAddr env = .ok config) : config.Valid parse := by
  simp only [fromEnv, Except.bind_eq_ok, Except.guard_eq_ok] at h
  rcases h with ⟨initial, hnew, -, hkeyPrefix, powBits, hpow, maxChallenges, hchallenges, maxNotes, hnotes,
    maxStorageBytes, hstorage, maxInFlight, hflight, requestRate, hrequest, challengeRate, hchallenge,
    createRate, hcreate, cacheTimeout, hcache, requestTimeout, htimeout, connectionLifetime, hlifetime,
    requireSafeCache, -, h⟩
  cases h
  rcases new_eq_ok hnew with ⟨hne, horigins, hseconds⟩
  have hlife := Config.number_eq_ok hlifetime
  exact {
    inRange := {
      powBits := Config.number_eq_ok hpow
      challengeSeconds := hseconds
      maxChallenges := Config.number_eq_ok hchallenges
      maxNotes := Config.number_eq_ok hnotes
      maxStorageBytes := Config.number_eq_ok hstorage }
    nonempty := hne
    origins := horigins
    keyPrefix := by simpa using hkeyPrefix
    maxInFlight := Config.number_eq_ok hflight
    requestRate := Config.number_eq_ok hrequest
    challengeRate := Config.number_eq_ok hchallenge
    createRate := Config.number_eq_ok hcreate
    cacheTimeout := Config.number_eq_ok hcache
    requestTimeout := Config.number_eq_ok htimeout
    connectionLifetime := by
      dsimp only
      omega }

theorem IsOrigin.eq {origin host : String} (hparse : Url.Lawful parse) (h : IsOrigin parse origin host)
    : origin = "http" ++ "://" ++ host ∨ origin = "https" ++ "://" ++ host := by
  rcases h.parses with ⟨url, hurl, hscheme, rfl, -, -, hhost⟩
  have horigin := hparse _ url host hurl hscheme hhost
  simp only [List.mem_cons, List.not_mem_nil, or_false] at hscheme
  rcases hscheme with hscheme | hscheme
  . left
    rw [horigin, hscheme]
  . right
    rw [horigin, hscheme]

end

-- What a process takes from an empty environment.
def default : Configuration :=
  { Config.new with
    bind := "127.0.0.1:3001"
    origins := ["http://localhost:3001"]
    hosts := ["localhost:3001"]
    cacheUrl := "redis://127.0.0.1:6379/"
    keyPrefix := "erase:\x7bnotes\x7d:"
    staticDir := "../web/dist"
    maxInFlight := 2
    requestRate := 100
    challengeRate := 10
    createRate := 8
    cacheTimeout := 5000
    requestTimeout := 300000
    connectionLifetime := 360000
    requireSafeCache := true }

def parseDefault (text : String) : Option Url :=
  if text = "http://localhost:3001" then
    some {
      scheme := "http"
      origin := "http://localhost:3001"
      username := ""
      password := none
      host := some "localhost"
      port := some 3001 }
  else none

theorem fromEnv_default
    : fromEnv parseDefault (fun _ => true) (fun _ => none) = .ok default := by
  decide +kernel

theorem lawful_parseDefault : Url.Lawful parseDefault := by
  intro text url host hparse _ hhost
  unfold parseDefault at hparse
  split at hparse
  . cases hparse
    cases hhost
    decide
  . cases hparse

end Configuration

end Server
