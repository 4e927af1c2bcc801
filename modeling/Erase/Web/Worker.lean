import Erase.Library.Runs
import Erase.Web.Api

namespace Web

inductive Outcome (ρ : Type) where
  | resolved (result : ρ)
  | rejected (error : Failure)
  deriving DecidableEq

-- The object that runs requests on one worker at a time. Workers are named in the order of their
-- construction, and each pending identifier belongs to a promise.
structure CryptoWorker (π : Type) where
  worker : Option Nat
  created : Nat
  sequence : Nat
  pending : List (Nat × π)
  deriving DecidableEq

namespace CryptoWorker

inductive Effect (π ρ : Type) where
  | post (worker id : Nat) (promise : π)
  | settle (id : Nat) (promise : π) (outcome : Outcome ρ)
  | terminate (worker : Nat)
  deriving DecidableEq

def new {π : Type} : CryptoWorker π where
  worker := none
  created := 0
  sequence := 0
  pending := []

section

variable {π ρ : Type}

-- `posts` is whether `postMessage` accepts the message.
def run (promise : π) (posts : Bool) (crypto : CryptoWorker π) : CryptoWorker π × List (Effect π ρ) :=
  let worker := crypto.worker.getD crypto.created
  let created := if crypto.worker.isSome then crypto.created else crypto.created + 1
  let id := crypto.sequence + 1
  let pending := crypto.pending ++ [(id, promise)]
  if posts then
    ({ worker := some worker, created, sequence := id, pending }, [.post worker id promise])
  else
    ({ worker := some worker, created, sequence := id, pending := pending.filter fun entry => entry.1 ≠ id },
      [.post worker id promise, .settle id promise (.rejected (.workerFailure "worker_failed"))])

def fail (error : Failure) (crypto : CryptoWorker π) : CryptoWorker π × List (Effect π ρ) :=
  ({ crypto with worker := none, pending := [] },
    crypto.worker.toList.map .terminate
      ++ crypto.pending.map fun entry => .settle entry.1 entry.2 (.rejected error))

def dispose (crypto : CryptoWorker π) : CryptoWorker π × List (Effect π ρ) := crypto.fail .abortError

def reply (result : Except String ρ) : Outcome ρ :=
  match result with
  | .error code => .rejected (.workerFailure code)
  | .ok result => .resolved result

def onmessage (id : Nat) (result : Except String ρ) (crypto : CryptoWorker π)
    : CryptoWorker π × List (Effect π ρ) :=
  match crypto.pending.lookup id with
  | none => (crypto, [])
  | some promise =>
    ({ crypto with pending := crypto.pending.filter fun entry => entry.1 ≠ id },
      [.settle id promise (reply result)])

def onerror (crypto : CryptoWorker π) : CryptoWorker π × List (Effect π ρ) :=
  crypto.fail (.workerFailure "worker_failed")

def onmessageerror (crypto : CryptoWorker π) : CryptoWorker π × List (Effect π ρ) :=
  crypto.fail (.workerFailure "worker_failed")

inductive Event (π ρ : Type) where
  | run (promise : π) (posts : Bool)
  | dispose
  | message (worker id : Nat) (result : Except String ρ)
  | error (worker : Nat)
  | messageerror (worker : Nat)

-- The handlers of every worker are the same.
def handle : Event π ρ → CryptoWorker π → CryptoWorker π × List (Effect π ρ)
  | .run promise posts => run promise posts
  | .dispose => dispose
  | .message _ id result => onmessage id result
  | .error _ => onerror
  | .messageerror _ => onmessageerror

end

end CryptoWorker

end Web
