import Erase.Library.Promises
import Erase.Shared.Types
import Erase.Web.Api
import Erase.Web.Session

namespace Web

inductive Phase where
  | loading
  | ready
  | opened
  | cleared
  | error
  deriving DecidableEq, Repr

structure ReaderState where
  sessionSeconds : Nat
  phase : Phase
  passphrase : JsString
  required : Bool
  busy : Bool
  status : String
  error : String
  warning : Nat
  expiresAt : Nat
  remaining : Int
  content : Option Shared.ContentInput
  copied : String
  deriving DecidableEq

def readerState : ReaderState where
  sessionSeconds := 0
  phase := .loading
  passphrase := []
  required := false
  busy := false
  status := "Checking package metadata…"
  error := ""
  warning := 0
  expiresAt := 0
  remaining := 0
  content := none
  copied := ""

structure ObjectUrls where
  next : Nat
  urls : List Nat
  timers : List (Nat × Nat)
  deriving DecidableEq

inductive Request where
  | load (url : JsString)
  | metadata (id token : JsString)
  | inspect (header : JsString)
  | prepare (passphrase : JsString)
  | openNote (id token : JsString)
  | decrypt (packet : Bytes)
  | copy (text : JsString)
  deriving DecidableEq

inductive Result where
  | link (id peekToken : JsString)
  | metadata (metadata : Metadata)
  | header (header : Shared.Header)
  | access (readToken : JsString)
  | packet (packet : Bytes)
  | content (content : Shared.ContentInput)
  | copied
  | rejected (error : Failure)
  deriving DecidableEq

-- Where a suspended method of the reader goes on.
inductive Continuation where
  | loadLink (ticket : Ticket)
  | loadMetadata (ticket : Ticket)
  | loadHeader (ticket : Ticket) (metadata : Metadata)
  | openAccess (ticket : Ticket)
  | openPacket (ticket : Ticket)
  | openContent (ticket : Ticket)
  | copyText (ticket : Ticket)
  deriving DecidableEq

def Continuation.ticket : Continuation → Ticket
  | loadLink ticket => ticket
  | loadMetadata ticket => ticket
  | loadHeader ticket _ => ticket
  | openAccess ticket => ticket
  | openPacket ticket => ticket
  | openContent ticket => ticket
  | copyText ticket => ticket

inductive Event where
  | tick (elapsed : Nat)
  | timer
  | urlTimer (index : Nat)
  | activity (isTrusted : Bool)
  | microtask (index : Nat)
  | keep (isTrusted : Bool)
  | visibility (hidden : Bool)
  | pagehide
  | pageshow (persisted : Bool)
  | passphrase (value : JsString)
  | load (url : JsString)
  | openNote
  | copyText
  | download (index : Nat)
  | downloadText
  | clear
  | destroy
  | settle (number : Nat) (result : Result)
  deriving DecidableEq

-- What is observed of a run: its events, the calls they make and the loads that succeed.
inductive Entry where
  | event (event : Event)
  | call (number : Nat) (request : Request)
  | loaded (id : JsString)
  | dispose
  | fill (data : Bytes)
  | createObjectUrl (url : Nat) (data : Bytes)
  | revokeObjectUrl (url : Nat)
  | save (url : Nat) (name : JsString)
  deriving DecidableEq

structure Reader where
  state : ReaderState
  urls : ObjectUrls
  id : JsString
  metadata : Option Metadata
  promises : Promises Continuation

def Reader.new : Reader where
  state := readerState
  urls := { next := 0, urls := [], timers := [] }
  id := []
  metadata := none
  promises := .empty

abbrev ReaderPage := Page Reader Entry

namespace Reader

def modifyState (f : ReaderState → ReaderState) (reader : Reader) : Reader :=
  { reader with state := f reader.state }

def fillFiles (content : Option Shared.ContentInput) : List Entry :=
  match content with
  | none => []
  | some content => content.files.map fun file => .fill file.data

def reset (reason : ClearReason) (reader : Reader) : Reader × List Entry :=
  let entries := .dispose :: reader.urls.urls.map .revokeObjectUrl ++ fillFiles reader.state.content
  let state := { reader.state with
    phase := .cleared
    passphrase := []
    content := none
    busy := false
    copied := ""
    error := ""
    expiresAt := 0
    remaining := 0
    status := clearedText reason }
  ({ reader with
    state, id := [], metadata := none, urls := { reader.urls with urls := [], timers := [] } }, entries)

def options : Options Reader Entry where
  hasData reader :=
    reader.id ≠ [] || reader.state.passphrase ≠ [] || reader.state.content.isSome || reader.state.busy
      || reader.state.phase = .loading
  warning seconds := modifyState fun state => { state with warning := seconds }
  clock seconds := modifyState fun state => { state with sessionSeconds := seconds }
  clear := reset
  hideImmediately reader := reader.state.phase = .opened || reader.state.busy

def await (request : Request) (continuation : Continuation) (page : ReaderPage) : ReaderPage :=
  let number := page.host.promises.next
  let page := page.modify fun reader =>
    { reader with promises := reader.promises.suspend continuation }
  page.emit (.call number request)

def setState (f : ReaderState → ReaderState) (page : ReaderPage) : ReaderPage :=
  page.modify (modifyState f)

def invalidLinkText : String :=
  "The complete original link is required, including its fragment after #."

-- What the form takes of a typed passphrase.
def unlockField (typed : JsString) : JsString := typed.take 256

def load (url : JsString) (page : ReaderPage) : ReaderPage :=
  let page := setState (fun state => { state with
    phase := .loading, error := "", status := "Checking package metadata…" }) page
  let page := page.touch options
  let (ticket, page) := page.ticket options
  await (.load url) (.loadLink ticket) page

def loadFailed (ticket : Ticket) (error : Failure) (page : ReaderPage) : ReaderPage :=
  match page.valid options ticket with
  | (false, page) => page
  | (true, page) =>
    let page := page.emit .dispose
    let page := page.modify fun reader => { reader with id := [] }
    setState (fun state => { state with
      phase := .error
      status := "Package unavailable."
      error := if error.code = "invalid_link" then invalidLinkText else errorText error }) page

def loadLink (ticket : Ticket) (id peekToken : JsString) (page : ReaderPage) : ReaderPage :=
  match page.valid options ticket with
  | (false, page) => page
  | (true, page) =>
    let page := page.modify fun reader => { reader with id }
    await (.metadata id peekToken) (.loadMetadata ticket) page

def loadMetadata (ticket : Ticket) (metadata : Metadata) (page : ReaderPage) : ReaderPage :=
  match page.valid options ticket with
  | (false, page) => page
  | (true, page) => await (.inspect metadata.header) (.loadHeader ticket metadata) page

def loadHeader (ticket : Ticket) (metadata : Metadata) (header : Shared.Header) (page : ReaderPage)
    : ReaderPage :=
  match page.valid options ticket with
  | (false, page) => page
  | (true, page) =>
    if header.id ≠ page.host.id ∨ metadata.remaining > header.views then
      loadFailed ticket (.requestError "invalid_response") page
    else
      let page := page.modify fun reader => { reader with metadata := some metadata }
      let page := setState (fun state => { state with
        phase := .ready
        required := header.kdf = .argon2id
        expiresAt := metadata.expiresAt
        remaining := metadata.remaining
        status := "Encrypted package available." }) page
      page.emit (.loaded page.host.id)

def openNote (page : ReaderPage) : ReaderPage :=
  match page.expire options with
  | (true, page) => page
  | (false, page) =>
    if page.host.state.busy || page.host.state.phase ≠ .ready || page.host.id = []
        || page.host.metadata = none then
      page
    else if page.host.state.required && page.host.state.passphrase = [] then
      setState (fun state => { state with error := "Enter the separate passphrase." }) page
    else
      let page := setState (fun state => { state with
        busy := true, error := "", status := "Deriving and verifying access locally…" }) page
      let (ticket, page) := page.ticket options
      await (.prepare page.host.state.passphrase) (.openAccess ticket) page

-- The `finally` block, for a packet that no worker has taken over.
def openFinally (ticket : Ticket) (packet : Option Bytes) (page : ReaderPage) : ReaderPage :=
  let page := match packet with
    | none => page
    | some bytes => if bytes = [] then page else page.emit (.fill bytes)
  match page.valid options ticket with
  | (false, page) => page
  | (true, page) => setState (fun state => { state with busy := false }) page

def requestedText (error : Failure) : String :=
  if error = .requestError "request_timeout" then
    "The transfer timed out and was not retried automatically. A retrieval may already have been counted. Reopen the original link to check availability."
  else
    "Retrieval or integrity verification failed. A retrieval may already have been counted. Reopen the original link to check availability."

def openFailed (ticket : Ticket) (requested : Bool) (error : Failure) (page : ReaderPage)
    : ReaderPage :=
  match page.valid options ticket with
  | (false, page) => openFinally ticket none page
  | (true, page) =>
    let page := setState (fun state => { state with passphrase := [], error := errorText error }) page
    let page :=
      if requested then
        let page := page.emit .dispose
        let page := page.modify fun reader => { reader with id := [], metadata := none }
        setState (fun state => { state with phase := .error, error := requestedText error }) page
      else
        page
    let page := setState (fun state => { state with
      status := if requested then "Opening failed." else "Local access verification failed." }) page
    openFinally ticket none page

def openAccess (ticket : Ticket) (readToken : JsString) (page : ReaderPage) : ReaderPage :=
  match page.valid options ticket with
  | (false, page) => openFinally ticket none page
  | (true, page) =>
    let page := setState (fun state => { state with
      passphrase := [], status := "Retrieving encrypted package…" }) page
    await (.openNote page.host.id readToken) (.openPacket ticket) page

def openPacket (ticket : Ticket) (packet : Bytes) (page : ReaderPage) : ReaderPage :=
  match page.valid options ticket with
  | (false, page) => openFinally ticket (some packet) page
  | (true, page) =>
    let page := setState (fun state => { state with status := "Decrypting locally…" }) page
    await (.decrypt packet) (.openContent ticket) page

def openContent (ticket : Ticket) (content : Shared.ContentInput) (page : ReaderPage) : ReaderPage :=
  match page.valid options ticket with
  | (false, page) =>
    let page := (fillFiles (some content)).foldl (fun page entry => page.emit entry) page
    openFinally ticket none page
  | (true, page) =>
    let page := setState (fun state => { state with
      content := some content
      remaining := state.remaining - 1
      phase := .opened
      status := "Decrypted locally. This retrieval has been counted." }) page
    let page := page.modify fun reader => { reader with id := [], metadata := none }
    let page := page.emit .dispose
    openFinally ticket none page

def text? (reader : Reader) : Option JsString :=
  (reader.state.content.map Shared.ContentInput.text).filter fun text => text ≠ []

def copyText (page : ReaderPage) : ReaderPage :=
  match page.expire options with
  | (true, page) => page
  | (false, page) =>
    match page.host.text? with
    | none => page
    | some text =>
      let (ticket, page) := page.ticket options
      await (.copy text) (.copyText ticket) page

def copied (ticket : Ticket) (message : String) (page : ReaderPage) : ReaderPage :=
  match page.valid options ticket with
  | (false, page) => page
  | (true, page) => setState (fun state => { state with copied := message }) page

def save (name : JsString) (data : Bytes) (page : ReaderPage) : ReaderPage :=
  let url := page.host.urls.next
  let page := page.modify fun reader => { reader with urls := {
    next := url + 1
    urls := reader.urls.urls ++ [url]
    timers := reader.urls.timers ++ [(url, page.now + 1000)] } }
  (page.emit (.createObjectUrl url data)).emit (.save url name)

def download (index : Nat) (page : ReaderPage) : ReaderPage :=
  match page.expire options with
  | (true, page) => page
  | (false, page) =>
    match page.host.state.content.bind fun content => content.files[index]? with
    | none => page
    | some file => save file.name file.data page

def downloadText (page : ReaderPage) : ReaderPage :=
  match page.expire options with
  | (true, page) => page
  | (false, page) =>
    match page.host.text? with
    | none => page
    | some text => save (JsString.ofString "erase-message.txt") (Utf8.encode text.scalars) page

def releaseUrl (index : Nat) (page : ReaderPage) : ReaderPage :=
  match page.host.urls.timers[index]? with
  | none => page
  | some (url, due) =>
    if page.now < due then page
    else
      let page := page.emit (.revokeObjectUrl url)
      page.modify fun reader => { reader with urls := { reader.urls with
        urls := reader.urls.urls.filter (· ≠ url)
        timers := reader.urls.timers.eraseIdx index } }

-- A promise only settles with a result of its own type.
def resume? : Continuation → Result → Option (ReaderPage → ReaderPage)
  | .loadLink ticket, .link id peekToken => some (loadLink ticket id peekToken)
  | .loadMetadata ticket, .metadata metadata => some (loadMetadata ticket metadata)
  | .loadHeader ticket metadata, .header header => some (loadHeader ticket metadata header)
  | .loadLink ticket, .rejected error => some (loadFailed ticket error)
  | .loadMetadata ticket, .rejected error => some (loadFailed ticket error)
  | .loadHeader ticket _, .rejected error => some (loadFailed ticket error)
  | .openAccess ticket, .access readToken => some (openAccess ticket readToken)
  | .openPacket ticket, .packet packet => some (openPacket ticket packet)
  | .openContent ticket, .content content => some (openContent ticket content)
  | .openAccess ticket, .rejected error => some (openFailed ticket false error)
  | .openPacket ticket, .rejected error => some (openFailed ticket true error)
  | .openContent ticket, .rejected error => some (openFailed ticket true error)
  | .copyText ticket, .copied =>
    some (copied ticket "Content copied. Clipboard data is outside this page’s control.")
  | .copyText ticket, .rejected _ =>
    some (copied ticket "Clipboard access unavailable. Select and copy the content manually.")
  | _, _ => none

def settle (number : Nat) (result : Result) (page : ReaderPage) : ReaderPage :=
  match (page.host.promises.waiting number).bind fun continuation => resume? continuation result with
  | none => page
  | some resume =>
    resume (page.modify fun reader => { reader with promises := reader.promises.settle number })

def handle : Event → ReaderPage → ReaderPage
  | .tick elapsed => fun page => { page with now := page.now + elapsed }
  | .timer => Page.fire options
  | .urlTimer index => releaseUrl index
  | .activity isTrusted => Page.activity options isTrusted
  | .microtask index => Page.microtask options index
  | .keep isTrusted => Page.keep options isTrusted
  | .visibility hidden => Page.visibility options hidden
  | .pagehide => Page.leave options
  | .pageshow persisted => Page.restore options persisted
  | .passphrase value => setState fun state => { state with passphrase := value }
  | .load url => load url
  | .openNote => openNote
  | .copyText => copyText
  | .download index => download index
  | .downloadText => downloadText
  | .clear => Page.clear options .manual
  | .destroy => Page.destroy options
  | .settle number result => settle number result

def step (page : ReaderPage) (event : Event) : ReaderPage := handle event (page.emit (.event event))

def run (page : ReaderPage) (events : List Event) : ReaderPage := events.foldl step page

def mount (now : Nat) : ReaderPage where
  now := now
  hidden := false
  attached := true
  microtasks := []
  session := .new
  host := .new
  trace := []

-- A packet that is not empty is overwritten before the rest of the block.
theorem openFinally_eq (ticket : Ticket) (packet : Option Bytes)
    : (∀ page, openFinally ticket packet page = openFinally ticket none page)
        ∨ ∃ bytes, ∀ page,
          openFinally ticket packet page = openFinally ticket none (page.emit (.fill bytes)) := by
  cases packet with
  | none => exact .inl fun _ => rfl
  | some bytes =>
    by_cases hbytes : bytes = []
    . left
      simp only [openFinally, hbytes, if_true, implies_true]
    . right
      refine ⟨bytes, ?_⟩
      simp only [openFinally, hbytes, if_false, implies_true]

section

variable {page : ReaderPage}

theorem loadLink_eq {ticket : Ticket} (hgeneration : ticket.generation = page.session.generation)
    (hsignal : ticket.signal = page.session.controller) (hlive : page.Live) (id peekToken : JsString)
    : loadLink ticket id peekToken page
        = await (.metadata id peekToken) (.loadMetadata ticket)
            (page.modify fun reader => { reader with id }) := by
  unfold loadLink
  rw [Page.valid_of_live hgeneration hsignal hlive]

theorem loadMetadata_eq {ticket : Ticket} (hgeneration : ticket.generation = page.session.generation)
    (hsignal : ticket.signal = page.session.controller) (hlive : page.Live) (metadata : Metadata)
    : loadMetadata ticket metadata page
        = await (.inspect metadata.header) (.loadHeader ticket metadata) page := by
  unfold loadMetadata
  rw [Page.valid_of_live hgeneration hsignal hlive]

theorem loadHeader_eq {ticket : Ticket} {metadata : Metadata} {header : Shared.Header}
    (hgeneration : ticket.generation = page.session.generation)
    (hsignal : ticket.signal = page.session.controller) (hlive : page.Live)
    (hid : header.id = page.host.id) (hviews : metadata.remaining ≤ header.views)
    : loadHeader ticket metadata header page
        = (setState (fun state => { state with
            phase := .ready
            required := header.kdf = .argon2id
            expiresAt := metadata.expiresAt
            remaining := metadata.remaining
            status := "Encrypted package available." })
          (page.modify fun reader => { reader with metadata := some metadata })).emit
            (.loaded page.host.id) := by
  have hsame : ¬(header.id ≠ page.host.id ∨ metadata.remaining > header.views) := by
    simp [hid, hviews]
  unfold loadHeader
  rw [Page.valid_of_live hgeneration hsignal hlive]
  dsimp only
  rw [if_neg hsame]
  rfl

theorem openNote_eq (hbusy : page.host.state.busy = false) (hphase : page.host.state.phase = .ready)
    (hid : page.host.id ≠ []) (hmetadata : page.host.metadata ≠ none)
    (hgiven : page.host.state.required = true → page.host.state.passphrase ≠ []) (hlive : page.Live)
    : openNote page
        = await (.prepare page.host.state.passphrase)
            (.openAccess ⟨page.session.generation, page.session.controller⟩)
            (setState (fun state => { state with
              busy := true, error := "", status := "Deriving and verifying access locally…" }) page) := by
  have hready : ¬(page.host.state.busy || page.host.state.phase ≠ .ready || page.host.id = []
      || page.host.metadata = none) = true := by
    simp [hbusy, hphase, hid, hmetadata]
  have hpassphrase : ¬(page.host.state.required && page.host.state.passphrase = []) = true := by
    simpa using hgiven
  unfold openNote
  rw [Page.expire_of_live hlive]
  dsimp only
  rw [if_neg hready, if_neg hpassphrase, Page.ticket_of_live]
  . rfl
  . exact hlive

theorem openAccess_eq {ticket : Ticket} (hgeneration : ticket.generation = page.session.generation)
    (hsignal : ticket.signal = page.session.controller) (hlive : page.Live) (readToken : JsString)
    : openAccess ticket readToken page
        = await (.openNote page.host.id readToken) (.openPacket ticket)
            (setState (fun state => { state with
              passphrase := [], status := "Retrieving encrypted package…" }) page) := by
  unfold openAccess
  rw [Page.valid_of_live hgeneration hsignal hlive]
  rfl

end

end Reader

end Web
