import Erase.Server.Replies

/-!
The methods of the store that answer with something to tell, and the settings that they are given.
-/

namespace Server

namespace Config

def invalid (name : String) : Except String α := .error ("Invalid " ++ name ++ ".")

def value (name : String) (default : Nat) : Option Bytes → Except String Nat
  | none => .ok default
  | some v =>
    match parseUnsigned? 64 v with
    | none => invalid name
    | some value => .ok value

-- The setting `name` of the environment.
def number (env : String → Option Bytes) (name : String) (default min max : Nat) : Except String Nat := do
  let value ← value name default (env name)
  if value < min ∨ value > max then invalid name
  return value

-- The part of `from_env` that the store reads.
def fromEnv (env : String → Option Bytes) : Except String Config := do
  let powBits ← number env "POW_BITS" 18 1 24
  let maxChallenges ← number env "MAX_CHALLENGES" 4096 1 100000
  let maxNotes ← number env "MAX_NOTES" 2048 1 100000
  let maxStorageBytes ← number env "MAX_STORAGE_BYTES" (256 * 1024 * 1024) 1024 (2 * 1024 * 1024 * 1024)
  return { Config.new with powBits, maxChallenges, maxNotes, maxStorageBytes }

structure InRange (config : Config) : Prop where
  powBits : 1 ≤ config.powBits ∧ config.powBits ≤ 24
  challengeSeconds : config.challengeSeconds = 420
  maxChallenges : 1 ≤ config.maxChallenges ∧ config.maxChallenges ≤ 100000
  maxNotes : 1 ≤ config.maxNotes ∧ config.maxNotes ≤ 100000
  maxStorageBytes : 1024 ≤ config.maxStorageBytes ∧ config.maxStorageBytes ≤ 2 * 1024 * 1024 * 1024

theorem number_eq_ok {env : String → Option Bytes} {name : String} {default min max n : Nat}
    (h : number env name default min max = .ok n) : min ≤ n ∧ n ≤ max := by
  simp only [number, invalid, Except.bind_eq_ok, Except.guard_eq_ok] at h
  rcases h with ⟨value, -, hrange, h⟩
  cases h
  omega

theorem inRange_of_fromEnv {env : String → Option Bytes} {config : Config}
    (h : fromEnv env = .ok config)
    : config.InRange := by
  simp only [fromEnv, Except.bind_eq_ok] at h
  rcases h with ⟨powBits, hpow, maxChallenges, hchallenges, maxNotes, hnotes, maxStorageBytes, hstorage, h⟩
  cases h
  exact {
    powBits := number_eq_ok hpow
    challengeSeconds := rfl
    maxChallenges := number_eq_ok hchallenges
    maxNotes := number_eq_ok hnotes
    maxStorageBytes := number_eq_ok hstorage }

end Config

namespace Cache

variable (cache : Cache) (denied : Site → Bool)

def call (request : Request) : Except ApiError (List Bytes) :=
  respond (request.script.run { now := cache.now, denied } cache.keys).1

-- `issue`, behind its rate limit.
def issue (config : Config) (challenge : String) : Except ApiError Challenge := do
  let reply ← cache.call denied (.issue config (asBytes challenge))
  Challenge.ofParts config challenge reply

def create (config : Config) (packet : Packet) (challenge : String) : Except ApiError Created := do
  let reply ← cache.call denied (.create config packet (asBytes challenge))
  Created.ofParts packet reply

def metadata (id hash : String) : Except ApiError Metadata := do
  let reply ← cache.call denied (.access (asBytes id) (asBytes hash) .metadata)
  Metadata.ofParts reply

end Cache

end Server
