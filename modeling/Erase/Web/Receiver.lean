import Erase.Web.Backend
import Erase.Web.Thread

namespace Web

def Request.isCrypto : Request → Bool
  | load _ => true
  | inspect _ => true
  | prepare _ => true
  | decrypt _ => true
  | _ => false

def Continuation.isCrypto : Continuation → Bool
  | loadLink _ => true
  | loadHeader _ _ => true
  | openAccess _ => true
  | openContent _ => true
  | _ => false

instance : Threads Thread Request Result Entry where
  new := .new
  accept message thread := { thread with inbox := thread.inbox ++ [message] }
  outbox thread := thread.outbox
  retain outbox thread := { thread with outbox }
  rejected := .rejected
  order
    | .dispose => some .dispose
    | .call number request => if request.isCrypto then some (.call number request) else none
    | _ => none

theorem order_call {number : Nat} {request : Request} (h : request.isCrypto = true)
    : Threads.order Thread (Entry.call number request) = some (.call number request) :=
  if_pos h

theorem order_foreign {number : Nat} {request : Request} (h : request.isCrypto = false)
    : Threads.order Thread (Entry.call number request) = none :=
  if_neg (by simp [h])

abbrev Reader.Backend := Web.Backend Thread Request Result

-- A reader with its workers.
structure Receiver where
  page : ReaderPage
  backend : Reader.Backend

namespace Receiver

inductive Event where
  | reader (event : Web.Event)
  | resume
  | receive (worker : Nat) (isSupported : Bool)
  | finish (worker : Nat)
  | deliver (worker : Nat)
  | error (worker : Nat)
  | messageerror (worker : Nat)
  deriving DecidableEq

def mount (now : Nat) : Receiver where
  page := Reader.mount now
  backend := .start

section

variable (crypto : Crypto) (unicode : Shared.Unicode) (parseUrl : JsString → Option Shared.Url)
  (posts : Nat → Bool)

def react (event : Web.Event) (receiver : Receiver) : Receiver :=
  let page := Reader.step receiver.page event
  { page, backend := (page.trace.drop receiver.page.trace.length).foldl (Backend.replay posts) receiver.backend }

-- The workers settle the promises of the cryptographic calls.
def isForeign (receiver : Receiver) : Web.Event → Bool
  | .settle number _ => (receiver.page.host.promises.waiting number).any Continuation.isCrypto
  | _ => false

-- Tasks wait until every settled promise has had its reaction, and what cannot happen yet changes
-- nothing.
def step (receiver : Receiver) : Event → Receiver
  | .reader event =>
    if receiver.backend.settled ≠ [] || receiver.isForeign event then receiver
    else receiver.react posts event
  | .resume =>
    match receiver.backend.settled with
    | [] => receiver
    | (number, result) :: settled =>
      { receiver with backend := { receiver.backend with settled } }.react posts (.settle number result)
  | .receive worker isSupported =>
    { receiver with backend := receiver.backend.update worker (Thread.receive parseUrl isSupported) }
  | .finish worker =>
    { receiver with backend := receiver.backend.update worker (Thread.finish crypto unicode) }
  | .deliver worker =>
    if receiver.backend.settled ≠ [] then receiver
    else { receiver with backend := receiver.backend.deliver posts worker }
  | .error worker =>
    if receiver.backend.settled ≠ [] || receiver.backend.crypto.created ≤ worker then receiver
    else { receiver with backend := receiver.backend.apply posts receiver.backend.crypto.onerror }
  | .messageerror worker =>
    if receiver.backend.settled ≠ [] || receiver.backend.crypto.created ≤ worker then receiver
    else { receiver with backend := receiver.backend.apply posts receiver.backend.crypto.onmessageerror }

def run (receiver : Receiver) (events : List Event) : Receiver :=
  events.foldl (step crypto unicode parseUrl posts) receiver

end

end Receiver

end Web
