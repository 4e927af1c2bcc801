import Erase.Shared.Index
import Erase.Shared.ShareLink
import Erase.Web.Reader

namespace Web

-- A worker thread with the messages it has not handled yet and the answers it has posted. `running`
-- is the message whose handler is suspended.
structure Thread where
  link : Option Shared.ShareLink
  headerBase64 : JsString
  prepared : Option Shared.PreparedOpen
  running : Option (Nat × Request)
  inbox : List (Nat × Request)
  outbox : List (Nat × Except String Result)

namespace Thread

def new : Thread where
  link := none
  headerBase64 := []
  prepared := none
  running := none
  inbox := []
  outbox := []

def post (id : Nat) (result : Except String Result) (thread : Thread) : Thread :=
  { thread with outbox := thread.outbox ++ [(id, result)] }

-- Only an error with a code of its own keeps it.
def errorCode : Shared.JsError → String
  | .protocolError code _ => code
  | .rangeError => "invalid_package"

def answer {α : Type} (result : α → Result) : Except Shared.JsError α → Except String Result
  | .ok value => .ok (result value)
  | .error error => .error (errorCode error)

section

variable (crypto : Crypto) (unicode : Shared.Unicode) (parseUrl : JsString → Option Shared.Url)

-- The handler up to its first suspension, for the methods that a reader calls. `isSupported` is whether
-- `workerHkdf` finds what it needs.
def onmessage (isSupported : Bool) (id : Nat) (request : Request) (thread : Thread) : Thread :=
  if thread.running.isSome then thread.post id (.error "worker_busy")
  else if !isSupported then thread.post id (.error "crypto_unavailable")
  else
    match request with
    | .load url =>
      match Shared.parseShareLink parseUrl url with
      | .error error => thread.post id (.error (errorCode error))
      | .ok link => { thread with link := some link, running := some (id, request) }
    | .inspect header =>
      let thread := { thread with headerBase64 := header }
      match Shared.decodeHeader header with
      | .error error => thread.post id (.error (errorCode error))
      | .ok decoded =>
        if thread.link.any fun link => decoded.id = link.id then
          thread.post id (.ok (.header decoded))
        else
          thread.post id (.error "invalid_package")
    | .prepare _ =>
      if thread.link.isNone || thread.headerBase64 = [] then
        thread.post id (.error "invalid_package")
      else
        { thread with prepared := none, running := some (id, request) }
    | .decrypt _ =>
      if thread.prepared.isNone then thread.post id (.error "invalid_package")
      else { thread with running := some (id, request) }
    | _ => thread.post id (.error "invalid_package")

def finishLoad (id : Nat) (thread : Thread) : Thread :=
  match thread.link with
  | none => thread
  | some link => thread.post id
      (answer (fun token => .link link.id token) (Shared.derivePeek crypto link.secret link.id))

def finishPrepare (id : Nat) (passphrase : JsString) (thread : Thread) : Thread :=
  match thread.link with
  | none => thread
  | some link =>
    match Shared.prepareOpen crypto thread.headerBase64 link.secret link.id passphrase with
    | .error error => thread.post id (.error (errorCode error))
    | .ok prepared =>
      { thread with prepared := some prepared }.post id (.ok (.access prepared.readToken))

def finishDecrypt (id : Nat) (packet : Bytes) (thread : Thread) : Thread :=
  match thread.prepared with
  | none => thread
  | some prepared =>
    { thread with prepared := none, link := none, headerBase64 := [] }.post id
      (answer .content (Shared.decrypt crypto unicode packet prepared))

-- The handler from its suspension on.
def finish (thread : Thread) : Thread :=
  match thread.running with
  | none => thread
  | some (id, request) =>
    let thread := { thread with running := none }
    match request with
    | .load _ => finishLoad crypto id thread
    | .prepare passphrase => finishPrepare crypto id passphrase thread
    | .decrypt packet => finishDecrypt crypto unicode id packet thread
    | _ => thread

def receive (isSupported : Bool) (thread : Thread) : Thread :=
  match thread.inbox with
  | [] => thread
  | (id, request) :: inbox => { thread with inbox }.onmessage parseUrl isSupported id request

end

end Thread

end Web
