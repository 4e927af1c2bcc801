import Erase.Server.Handlers

namespace Server

def maxTextBytes : Nat := 8 * 1024 * 1024

structure PublicConfig where
  protocol : Nat
  maxContentBytes : Nat
  maxTextBytes : Nat
  maxFiles : Nat
  maxViews : Nat
  maxTtl : Nat
  powBits : Nat
  deriving DecidableEq, Repr

def publicConfig (config : Config) : PublicConfig where
  protocol := 1
  maxContentBytes := maxContentBytes
  maxTextBytes := maxTextBytes
  maxFiles := 8
  maxViews := 100
  maxTtl := 604800
  powBits := config.powBits

structure Challenge where
  challenge : String
  bits : Nat
  expiresAt : Nat
  deriving DecidableEq, Repr

def Challenge.ofParts (config : Config) (challenge : String) (parts : List Bytes)
    : Except ApiError Challenge := do
  return { challenge, bits := config.powBits, expiresAt := ← number 64 parts 0 }

structure Created where
  id : String
  expiresAt : Nat
  deriving DecidableEq, Repr

def Created.ofParts (packet : Packet) (parts : List Bytes) : Except ApiError Created := do
  return { id := packet.header.id, expiresAt := ← number 64 parts 0 }

-- What a request is answered with when it succeeds.
inductive Payload where
  | publicConfig (config : PublicConfig)
  | challenge (challenge : Challenge)
  | created (created : Created)
  | access (response : Response)
  | page
  deriving DecidableEq

end Server
