import Erase.Library.Valkey
import Erase.Server.Protocol

namespace Server

inductive Key where
  | note (id : Bytes)
  | notes
  | charges
  | bytes
  | challenge (token : Bytes)
  | spent (token : Bytes)
  | challenges
  deriving DecidableEq, Repr

namespace Key

def suffix : Key → Bytes
  | note id => asBytes "note:" ++ id
  | notes => asBytes "notes"
  | charges => asBytes "charges"
  | bytes => asBytes "bytes"
  | challenge token => asBytes "challenge:" ++ token
  | spent token => asBytes "spent:" ++ token
  | challenges => asBytes "challenges"

def render (keyPrefix : Bytes) (key : Key) : Bytes := keyPrefix ++ key.suffix

theorem suffix_injective : Function.Injective suffix := by
  have hnote : asBytes "note:" = [110, 111, 116, 101, 58] := by decide
  have hnotes : asBytes "notes" = [110, 111, 116, 101, 115] := by decide
  have hcharges : asBytes "charges" = [99, 104, 97, 114, 103, 101, 115] := by decide
  have hbytes : asBytes "bytes" = [98, 121, 116, 101, 115] := by decide
  have hchallenge : asBytes "challenge:" = [99, 104, 97, 108, 108, 101, 110, 103, 101, 58] := by
    decide
  have hspent : asBytes "spent:" = [115, 112, 101, 110, 116, 58] := by decide
  have hchallenges : asBytes "challenges" = [99, 104, 97, 108, 108, 101, 110, 103, 101, 115] := by
    decide
  intro left right h
  cases left <;> cases right <;>
    simp [suffix, hnote, hnotes, hcharges, hbytes, hchallenge, hspent, hchallenges] at h ⊢ <;>
    exact h

theorem render_injective (keyPrefix : Bytes) : Function.Injective (render keyPrefix) := by
  intro left right h
  exact suffix_injective (List.append_cancel_left h)

end Key

/-- The writes of the scripts that a cache may refuse. -/
inductive Site where
  | releaseNote (id : Bytes)
  | releaseIndex (id : Bytes)
  | releaseCharge (id : Bytes)
  | releaseTotal (id : Bytes)
  | record
  | expiry
  | charge
  | index
  | total
  | spent
  | lease
  | challengeIndex
  | decrement
  | sweep
  | issueLease
  | issueIndex
  deriving DecidableEq, Repr

inductive Reply where
  | ok (parts : List Bytes)
  | unavailable
  | capacity
  | proofInvalid
  | proofReused
  | idConflict
  deriving DecidableEq, Repr

inductive Operation where
  | metadata
  | checkOpen
  | openNote
  | deleteNote
  | other
  deriving DecidableEq, Repr

namespace Field

def packet : Bytes := asBytes "packet"
def header : Bytes := asBytes "header"
def peek : Bytes := asBytes "peek"
def read : Bytes := asBytes "read"
def revoke : Bytes := asBytes "revoke"
def expires : Bytes := asBytes "expires"
def remaining : Bytes := asBytes "remaining"

end Field

abbrev Lua (α : Type) := Script Site (Keyspace Key) α

namespace Lua

open Script Valkey

set_option linter.constructorNameAsVariable false

-- The numbers of the scripts stay far below 10 ^ 14, where `tostring` prints every digit.
def tonumber (bytes : Bytes) : Option Nat := Decimal.parse? bytes
def tostring (n : Nat) : Bytes := Decimal.print n
def zero : Bytes := asBytes "0"

def nowSeconds : Lua Nat := do
  return (← now) / 1000

def isType (key : Key) (expected : Kind) : Lua Bool := do
  let kind ← call (type key)
  return kind = none || kind = some expected

def constantEqual (a : Option Bytes) (b : Bytes) : Bool :=
  match a with
  | none => false
  | some a =>
    if a.length ≠ 64 ∨ b.length ≠ 64 then
      false
    else
      (a.zip b).foldl (fun difference (x, y) => difference ||| (x ^^^ y)) (0 : UInt8) = 0

def releaseNote (note : Key) (id : Bytes) (index charges total : Key) : Lua Unit := do
  let charge := tonumber ((← call (hget charges id)).getD zero)
  let previous := tonumber ((← call (Valkey.get total)).getD zero)
  let _ ← call ((del note).guarded (.releaseNote id))
  let _ ← call ((zrem index id).guarded (.releaseIndex id))
  let _ ← call ((hdel charges id).guarded (.releaseCharge id))
  let charge ← nonNil charge
  if charge > 0 then
    let previous ← nonNil previous
    let left := (max 0 ((previous : Int) - (charge : Int))).toNat
    call ((Valkey.set total (tostring left)).guarded (.releaseTotal id))

def reapNotes (index charges total : Key) (time limit : Nat) : Lua Unit := do
  let expired ← call (zrangebyscore index time limit)
  expired.forM fun id => releaseNote (.note id) id index charges total

def ledgerTypes (index charges total : Key) : Lua Bool := do
  return (← isType index .zset) && (← isType charges .hash) && (← isType total .string)

def Operation.capability : Operation → Option Bytes
  | .metadata => some Field.peek
  | .checkOpen => some Field.read
  | .openNote => some Field.read
  | .deleteNote => some Field.revoke
  | .other => none

def access (id hash : Bytes) (operation : Operation) : Lua Reply := do
  let note := Key.note id
  let release := releaseNote note id .notes .charges .bytes
  if ¬(← ledgerTypes .notes .charges .bytes) then return .capacity
  if ¬(← call (isPresent note)) then return .unavailable
  let expires ← nonNil (tonumber ((← call (hget note Field.expires)).getD zero))
  if expires ≤ (← nowSeconds) then
    release
    return .unavailable
  let some capability := Operation.capability operation | return .capacity
  if ¬constantEqual (← call (hget note capability)) hash then return .unavailable
  let remaining ← nonNil (tonumber ((← call (hget note Field.remaining)).getD zero))
  if remaining < 1 then
    release
    return .unavailable
  if operation = .checkOpen then return .ok []
  if operation = .metadata then
    let some header ← call (hget note Field.header) | return .unavailable
    return .ok [header, tostring expires, tostring remaining]
  if operation = .deleteNote then
    release
    return .ok []
  let some packet ← call (hget note Field.packet) | return .unavailable
  if remaining = 1 then
    release
  else
    let _ ← call ((hincrby note Field.remaining (-1)).guarded .decrement)
  return .ok [packet]

-- `string.match` with the pattern of two digit sequences around one colon.
def matchLease (lease : Bytes) : Option (Bytes × Bytes) :=
  let isDigit := fun byte : UInt8 => Decimal.isDigit byte.toNat
  let expires := lease.takeWhile isDigit
  match lease.dropWhile isDigit with
  | 58 :: bits =>
    if expires ≠ [] ∧ bits ≠ [] ∧ bits.all isDigit then some (expires, bits) else none
  | _ => none

structure CreateArgs where
  id : Bytes
  packet : Bytes
  header : Bytes
  peek : Bytes
  read : Bytes
  revoke : Bytes
  ttl : Nat
  views : Nat
  maxNotes : Nat
  maxBytes : Nat
  challenge : Bytes

def CreateArgs.pairs (args : CreateArgs) (expires : Nat) : List (Bytes × Bytes) :=
  [(Field.packet, args.packet), (Field.header, args.header), (Field.peek, args.peek),
    (Field.read, args.read), (Field.revoke, args.revoke), (Field.expires, tostring expires),
    (Field.remaining, tostring args.views)]

def rollback (args : CreateArgs) (previous : Nat) : Lua Reply := do
  let _ ← pcall (del (.note args.id))
  let _ ← pcall (zrem .notes args.id)
  let _ ← pcall (hdel .charges args.id)
  let _ ← pcall (Valkey.set .bytes (tostring previous))
  let _ ← pcall (del (.spent args.challenge))
  return .capacity

-- The part of `create` behind its checks.
def record (args : CreateArgs) (previous charge expires proofExpires : Nat) : Lua Reply := do
  let recorded ← pcall ((hset (.note args.id) (args.pairs expires)).guarded .record)
  if recorded = none then return ← rollback args previous
  let ttl ← pcall ((expireat (.note args.id) expires).guarded .expiry)
  if ttl ≠ some 1 then return ← rollback args previous
  let charged ← pcall ((hset .charges [(args.id, tostring charge)]).guarded .charge)
  if charged = none then return ← rollback args previous
  let indexed ← pcall ((zadd .notes expires args.id).guarded .index)
  if indexed = none then return ← rollback args previous
  let counted ← pcall ((Valkey.set .bytes (tostring (previous + charge))).guarded .total)
  if counted = none then return ← rollback args previous
  let spent ← pcall ((setNewExat (.spent args.challenge) (asBytes "1") proofExpires).guarded .spent)
  if spent ≠ some true then return ← rollback args previous
  let consumed ← pcall ((del (.challenge args.challenge)).guarded .lease)
  if consumed ≠ some 1 then return ← rollback args previous
  let _ ← pcall ((zrem .challenges args.challenge).guarded .challengeIndex)
  return .ok [tostring expires]

def create (args : CreateArgs) : Lua Reply := do
  if ¬(← ledgerTypes .notes .charges .bytes) ∨ ¬(← isType .challenges .zset) then return .capacity
  if ← call (isPresent (.spent args.challenge)) then return .proofReused
  let some lease ← call (Valkey.get (.challenge args.challenge)) | return .proofInvalid
  let time ← nowSeconds
  let some proofExpires := (matchLease lease).bind fun (expires, _) => tonumber expires
    | return .proofInvalid
  if proofExpires ≤ time then return .proofInvalid
  reapNotes .notes .charges .bytes time 128
  if ← call (isPresent (.note args.id)) then return .idConflict
  if ← call (hexists .charges args.id) then return .idConflict
  let previous := tonumber ((← call (Valkey.get .bytes)).getD zero)
  let charge := args.packet.length + args.header.length + 1024
  if (← call (hlen .charges)) ≥ args.maxNotes then return .capacity
  let previous ← nonNil previous
  if previous + charge > args.maxBytes then return .capacity
  record args previous charge (time + args.ttl) proofExpires

def inspectProof (challenge : Bytes) : Lua Reply := do
  if ← call (isPresent (.spent challenge)) then return .proofReused
  let some lease ← call (Valkey.get (.challenge challenge)) | return .proofInvalid
  let some (expires, bits) := matchLease lease | return .proofInvalid
  if (← nonNil (tonumber expires)) ≤ (← nowSeconds) then return .proofInvalid
  return .ok [bits]

def issue (challenge : Bytes) (bits lifetime cap : Nat) : Lua Reply := do
  if ¬(← isType .challenges .zset) then return .capacity
  let time ← nowSeconds
  call ((zremrangebyscore .challenges time).guarded .sweep)
  if (← call (zcard .challenges)) ≥ cap then return .capacity
  let expires := time + lifetime
  let value := tostring expires ++ asBytes ":" ++ tostring bits
  let lease ← pcall ((setNewEx (.challenge challenge) value lifetime).guarded .issueLease)
  if lease ≠ some true then return .capacity
  let indexed ← pcall ((zadd .challenges expires challenge).guarded .issueIndex)
  if indexed = none then
    let _ ← call (del (.challenge challenge))
    return .capacity
  return .ok [tostring expires]

def reap : Lua Reply := do
  if ¬(← ledgerTypes .notes .charges .bytes) ∨ ¬(← isType .challenges .zset) then return .capacity
  let time ← nowSeconds
  reapNotes .notes .charges .bytes time 128
  call ((zremrangebyscore .challenges time).guarded .sweep)
  return .ok []

end Lua

end Server
