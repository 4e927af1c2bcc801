import Erase.Library.Promises
import Erase.Shared.Encoding
import Erase.Web.Api
import Erase.Web.Session

namespace Web

namespace Composer

inductive Stage where
  | compose
  | encrypt
  | proof
  | upload
  | share
  | revoke
  | revoked
  deriving DecidableEq, Repr

inductive Mode where
  | text
  | files
  deriving DecidableEq, Repr

-- A selected file, which only the worker reads.
structure LocalFile where
  name : JsString
  mime : JsString
  size : Nat
  deriving DecidableEq

structure Sealed where
  packet : Bytes
  id : JsString
  secret : JsString
  revokeToken : JsString
  deriving DecidableEq

inductive Request where
  | config
  | seal (text : JsString) (files : List LocalFile) (ttl views : JsNumber) (passphrase : JsString)
  | challenge
  | proof (packet : Bytes) (challenge : Challenge)
  | create (packet : Bytes) (challenge : Challenge) (nonce : JsString)
  | copy (text : JsString)
  | revoke (id token : JsString)
  deriving DecidableEq

inductive Result where
  | config (config : PublicConfig)
  | sealed (sealed : Sealed)
  | challenge (challenge : Challenge)
  | proof (nonce : JsString) (packet : Bytes)
  | receipt (receipt : Receipt)
  | copied
  | revoked
  | rejected (error : Failure)
  deriving DecidableEq

-- Where a suspended method of the composer goes on.
inductive Continuation where
  | init (ticket : Ticket)
  | submitSealed (ticket : Ticket)
  | submitChallenge (ticket : Ticket) (sealed : Sealed)
  | submitProof (ticket : Ticket) (sealed : Sealed) (challenge : Challenge)
  | submitReceipt (ticket : Ticket) (sealed : Sealed) (packet : Bytes)
  | copyLink (ticket : Ticket)
  | revoke (ticket : Ticket)
  deriving DecidableEq

inductive Event where
  | session (event : SessionEvent)
  | text (value : JsString)
  | passphrase (value : JsString)
  | ttl (value : JsNumber)
  | views (value : JsNumber)
  | mode (value : Mode)
  | init
  | edit
  | addFiles (files : List LocalFile)
  | removeFile (index : Nat)
  | submit
  | copyLink
  | revoke
  | settle (number : Nat) (result : Result)
  deriving DecidableEq

inductive Entry where
  | event (event : Event)
  | call (number : Nat) (request : Request)
  | dispose
  | fill (data : Bytes)
  deriving DecidableEq

end Composer

structure ComposerState where
  stage : Composer.Stage
  sessionSeconds : Nat
  text : JsString
  files : List Composer.LocalFile
  mode : Composer.Mode
  passphrase : JsString
  ttl : JsNumber
  views : JsNumber
  busy : Bool
  configured : Bool
  config : Option PublicConfig
  status : String
  error : String
  warning : Nat
  link : JsString
  expiresAt : Nat
  copied : String
  canRevoke : Bool
  createdViews : JsNumber
  deriving DecidableEq

def composerState : ComposerState where
  stage := .compose
  sessionSeconds := 0
  text := []
  files := []
  mode := .text
  passphrase := []
  ttl := .ofNat 3600
  views := .ofNat 1
  busy := false
  configured := false
  config := none
  status := "Connecting to service…"
  error := ""
  warning := 0
  link := []
  expiresAt := 0
  copied := ""
  canRevoke := false
  createdViews := .ofNat 0

structure Composer where
  state : ComposerState
  receipt : Option (JsString × JsString)
  origin : JsString
  promises : Promises Composer.Continuation

def Composer.new (origin : JsString) : Composer where
  state := composerState
  receipt := none
  origin := origin
  promises := .empty

abbrev ComposerPage := Page Composer Composer.Entry

-- One decimal of an exact quotient, where `toFixed` rounds ties up.
def toFixed (bytes unit : Nat) : String :=
  let tenths := (20 * bytes + unit) / (2 * unit)
  toString (tenths / 10) ++ "." ++ toString (tenths % 10)

def sizeLabel (bytes : Nat) : String :=
  if bytes < 1048576 then (if bytes = 0 then "0" else toFixed bytes 1024) ++ " KiB"
  else toFixed bytes 1048576 ++ " MiB"

namespace Composer

def modifyState (f : ComposerState → ComposerState) (composer : Composer) : Composer :=
  { composer with state := f composer.state }

def reset (reason : ClearReason) (composer : Composer) : Composer × List Entry :=
  let state := { composer.state with
    stage := .compose
    sessionSeconds := 0
    text := []
    files := []
    passphrase := []
    link := []
    expiresAt := 0
    copied := ""
    error := ""
    busy := false
    canRevoke := false
    createdViews := .ofNat 0
    status := clearedText reason }
  ({ composer with receipt := none, state }, [.dispose])

def options : Options Composer Entry where
  hasData composer :=
    composer.state.text ≠ [] || composer.state.files ≠ [] || composer.state.passphrase ≠ []
      || composer.state.link ≠ [] || composer.state.busy
  warning seconds := modifyState fun state => { state with warning := seconds }
  clock seconds := modifyState fun state => { state with sessionSeconds := seconds }
  clear := reset
  hideImmediately _ := false

def await (request : Request) (continuation : Continuation) (page : ComposerPage) : ComposerPage :=
  let number := page.host.promises.next
  let page := page.modify fun composer =>
    { composer with promises := composer.promises.suspend continuation }
  page.emit (.call number request)

def setState (f : ComposerState → ComposerState) (page : ComposerPage) : ComposerPage :=
  page.modify (modifyState f)

def init (page : ComposerPage) : ComposerPage :=
  let (ticket, page) := page.ticket options
  let page := setState (fun state => { state with
    status := "Connecting to service…", error := "" }) page
  await .config (.init ticket) page

def lifetimes : List Nat := [604800, 86400, 3600, 600, 60]

-- The search succeeds because every accepted configuration allows a minute.
def longestLifetime (config : PublicConfig) : Nat :=
  (lifetimes.find? fun value => value ≤ config.maxTtl).getD 60

def configured (ticket : Ticket) (config : PublicConfig) (page : ComposerPage) : ComposerPage :=
  match page.valid options ticket with
  | (false, page) => page
  | (true, page) => setState (fun state => { state with
      config := some config
      configured := true
      ttl := if state.ttl.greaterThan config.maxTtl then .ofNat (longestLifetime config) else state.ttl
      views := state.views.atMost config.maxViews
      status := "Ready to create an encrypted package." }) page

def initFailed (ticket : Ticket) (error : Failure) (page : ComposerPage) : ComposerPage :=
  match page.valid options ticket with
  | (false, page) => page
  | (true, page) => setState (fun state => { state with
      error := errorText error, status := "Connection unavailable.", configured := false }) page

def edit (page : ComposerPage) : ComposerPage :=
  if page.host.state.busy then page
  else setState (fun state => { state with
    stage := .compose
    status :=
      if state.configured && "Local data cleared".toList.isPrefixOf state.status.toList then
        "Ready to create an encrypted package."
      else state.status }) page

def totalSize (files : List LocalFile) : Nat := files.foldl (fun sum file => sum + file.size) 0

-- The limits on files: those of the service once they are known.
def fileLimits (state : ComposerState) : Nat × Nat :=
  match state.config with
  | some config => (config.maxFiles, config.maxContentBytes)
  | none => (Shared.maxFiles, Shared.maxContentBytes)

def exceedsLimits (state : ComposerState) (files : List LocalFile) : Bool :=
  files.length > (fileLimits state).1
    || totalSize files + (Shared.encoderEncode state.text).length > (fileLimits state).2

def addFiles (files : List LocalFile) (page : ComposerPage) : ComposerPage :=
  if page.host.state.busy then page
  else
    match page.expire options with
    | (true, page) => page
    | (false, page) =>
      let all := page.host.state.files ++ files
      let limits := fileLimits page.host.state
      if exceedsLimits page.host.state all then
        setState (fun state => { state with
          error := "Select up to " ++ toString limits.1 ++ " files, with at most "
            ++ sizeLabel limits.2 ++ " total content." }) page
      else
        let page := setState (fun state => { state with
          files := all, stage := .compose, error := "" }) page
        page.touch options

def removeFile (index : Nat) (page : ComposerPage) : ComposerPage :=
  if page.host.state.busy then page
  else setState (fun state => { state with files := state.files.eraseIdx index }) page

-- What `\s` matches.
def isWhitespace (unit : UInt16) : Bool :=
  let code := unit.toNat
  (9 ≤ code && code ≤ 13) || code = 0x20 || code = 0xA0 || code = 0x1680
    || (0x2000 ≤ code && code ≤ 0x200A) || code = 0x2028 || code = 0x2029 || code = 0x202F
    || code = 0x205F || code = 0x3000 || code = 0xFEFF

def submittedFiles (state : ComposerState) : List LocalFile :=
  if state.mode = .files then state.files else []

def isRefused (state : ComposerState) (limits : PublicConfig) : Bool :=
  let files := submittedFiles state
  let textBytes := (Shared.encoderEncode state.text).length
  (state.text.all isWhitespace && files.isEmpty)
    || files.length > limits.maxFiles
    || textBytes > limits.maxTextBytes
    || textBytes + totalSize files > limits.maxContentBytes
    || !state.views.isInteger
    || state.views.lessThan 1
    || state.views.greaterThan limits.maxViews
    || !state.ttl.isInteger
    || state.ttl.lessThan 60
    || state.ttl.greaterThan limits.maxTtl
    || state.passphrase.length > 256

def submit (page : ComposerPage) : ComposerPage :=
  if page.host.state.busy || !page.host.state.configured then page
  else
    match page.expire options with
    | (true, page) => page
    | (false, page) =>
      match page.host.state.config with
      | none => page
      | some limits =>
        if isRefused page.host.state limits then
          setState (fun state => { state with
            error := "Check the content size, retrieval limit, and expiry." }) page
        else
          let files := submittedFiles page.host.state
          let page := setState (fun state => { state with
            busy := true
            stage := .encrypt
            error := ""
            copied := ""
            status := "Encrypting content locally…" }) page
          let page := page.touch options
          let (ticket, page) := page.ticket options
          let state := page.host.state
          await (.seal state.text files state.ttl state.views state.passphrase)
            (.submitSealed ticket) page

-- The `finally` block, for a packet that no worker has taken over.
def submitFinally (ticket : Ticket) (packet : Option Bytes) (page : ComposerPage) : ComposerPage :=
  let page := match packet with
    | none => page
    | some bytes => page.emit (.fill bytes)
  match page.valid options ticket with
  | (false, page) => page
  | (true, page) => setState (fun state => { state with busy := false }) page

theorem submitFinally_fill (ticket : Ticket) (bytes : Bytes) (page : ComposerPage)
    : submitFinally ticket (some bytes) page = submitFinally ticket none (page.emit (.fill bytes)) := rfl

def submitFailed (ticket : Ticket) (packet : Option Bytes) (error : Failure) (page : ComposerPage)
    : ComposerPage :=
  match page.valid options ticket with
  | (false, page) => submitFinally ticket packet page
  | (true, page) =>
    let page := setState (fun state => { state with
      stage := if state.link ≠ [] then .share else .compose
      error := errorText error
      status := "Creation failed. Local draft retained." }) page
    submitFinally ticket packet (page.emit .dispose)

def submitSealed (ticket : Ticket) (sealed : Sealed) (page : ComposerPage) : ComposerPage :=
  match page.valid options ticket with
  | (false, page) => submitFinally ticket (some sealed.packet) page
  | (true, page) =>
    let page := setState (fun state => { state with
      stage := .proof, status := "Computing proof-of-work…" }) page
    await .challenge (.submitChallenge ticket sealed) page

def submitChallenge (ticket : Ticket) (sealed : Sealed) (challenge : Challenge)
    (page : ComposerPage) : ComposerPage :=
  match page.valid options ticket with
  | (false, page) => submitFinally ticket (some sealed.packet) page
  | (true, page) =>
    await (.proof sealed.packet challenge) (.submitProof ticket sealed challenge) page

def submitProof (ticket : Ticket) (sealed : Sealed) (challenge : Challenge) (nonce : JsString)
    (packet : Bytes) (page : ComposerPage) : ComposerPage :=
  match page.valid options ticket with
  | (false, page) => submitFinally ticket (some packet) page
  | (true, page) =>
    let page := setState (fun state => { state with
      stage := .upload, status := "Uploading encrypted package…" }) page
    await (.create packet challenge nonce) (.submitReceipt ticket sealed packet) page

def shareLink (origin : JsString) (sealed : Sealed) : JsString :=
  origin ++ JsString.ofString "/view#1." ++ sealed.id ++ JsString.ofString "." ++ sealed.secret

def submitReceipt (ticket : Ticket) (sealed : Sealed) (packet : Bytes) (receipt : Receipt)
    (page : ComposerPage) : ComposerPage :=
  match page.valid options ticket with
  | (false, page) => submitFinally ticket (some packet) page
  | (true, page) =>
    if receipt.id ≠ sealed.id then
      submitFailed ticket (some packet) (.requestError "invalid_response") page
    else
      let page := page.modify fun composer =>
        { composer with receipt := some (sealed.id, sealed.revokeToken) }
      let link := shareLink page.host.origin sealed
      let page := setState (fun state => { state with
        link
        expiresAt := receipt.expiresAt
        canRevoke := true
        createdViews := state.views
        text := []
        files := []
        passphrase := []
        stage := .share
        status := "Package created. Local draft cleared." }) page
      submitFinally ticket (some packet) (page.emit .dispose)

def copyLink (page : ComposerPage) : ComposerPage :=
  match page.expire options with
  | (true, page) => page
  | (false, page) =>
    if page.host.state.link = [] then page
    else
      let (ticket, page) := page.ticket options
      await (.copy page.host.state.link) (.copyLink ticket) page

def copied (ticket : Ticket) (message : String) (page : ComposerPage) : ComposerPage :=
  match page.valid options ticket with
  | (false, page) => page
  | (true, page) => setState (fun state => { state with copied := message }) page

def revoke (page : ComposerPage) : ComposerPage :=
  match page.expire options with
  | (true, page) => page
  | (false, page) =>
    match page.host.receipt with
    | none => page
    | some (id, token) =>
      if page.host.state.busy then page
      else
        let (ticket, page) := page.ticket options
        let page := setState (fun state => { state with busy := true, stage := .revoke }) page
        await (.revoke id token) (.revoke ticket) page

def revokeFinally (ticket : Ticket) (page : ComposerPage) : ComposerPage :=
  match page.valid options ticket with
  | (false, page) => page
  | (true, page) => setState (fun state => { state with busy := false }) page

def revoked (ticket : Ticket) (page : ComposerPage) : ComposerPage :=
  match page.valid options ticket with
  | (false, page) => revokeFinally ticket page
  | (true, page) =>
    let page := page.modify fun composer => { composer with receipt := none }
    let page := setState (fun state => { state with
      stage := .revoked
      link := []
      canRevoke := false
      copied := ""
      status := "Stored package revoked. Previously received copies are unaffected." }) page
    revokeFinally ticket page

def revokeFailed (ticket : Ticket) (error : Failure) (page : ComposerPage) : ComposerPage :=
  match page.valid options ticket with
  | (false, page) => revokeFinally ticket page
  | (true, page) =>
    let page := setState (fun state => { state with stage := .share, error := errorText error }) page
    revokeFinally ticket page

-- A promise only settles with a result of its own type.
def resume? : Continuation → Result → Option (ComposerPage → ComposerPage)
  | .init ticket, .config config => some (configured ticket config)
  | .init ticket, .rejected error => some (initFailed ticket error)
  | .submitSealed ticket, .sealed sealed => some (submitSealed ticket sealed)
  | .submitSealed ticket, .rejected error => some (submitFailed ticket none error)
  | .submitChallenge ticket sealed, .challenge challenge =>
    some (submitChallenge ticket sealed challenge)
  | .submitChallenge ticket sealed, .rejected error =>
    some (submitFailed ticket (some sealed.packet) error)
  | .submitProof ticket sealed challenge, .proof nonce packet =>
    some (submitProof ticket sealed challenge nonce packet)
  | .submitProof ticket _ _, .rejected error => some (submitFailed ticket none error)
  | .submitReceipt ticket sealed packet, .receipt receipt =>
    some (submitReceipt ticket sealed packet receipt)
  | .submitReceipt ticket _ packet, .rejected error => some (submitFailed ticket (some packet) error)
  | .copyLink ticket, .copied =>
    some (copied ticket "Link copied. Clipboard copies are outside this page’s control.")
  | .copyLink ticket, .rejected _ =>
    some (copied ticket "Clipboard access unavailable. Select and copy the link manually.")
  | .revoke ticket, .revoked => some (revoked ticket)
  | .revoke ticket, .rejected error => some (revokeFailed ticket error)
  | _, _ => none

def settle (number : Nat) (result : Result) (page : ComposerPage) : ComposerPage :=
  match (page.host.promises.waiting number).bind fun continuation => resume? continuation result with
  | none => page
  | some resume =>
    resume (page.modify fun composer => { composer with promises := composer.promises.settle number })

def handle : Event → ComposerPage → ComposerPage
  | .session event => Page.dispatch options event
  | .text value => setState fun state => { state with text := value }
  | .passphrase value => setState fun state => { state with passphrase := value }
  | .ttl value => setState fun state => { state with ttl := value }
  | .views value => setState fun state => { state with views := value }
  | .mode value => setState fun state => { state with mode := value }
  | .init => init
  | .edit => edit
  | .addFiles files => addFiles files
  | .removeFile index => removeFile index
  | .submit => submit
  | .copyLink => copyLink
  | .revoke => revoke
  | .settle number result => settle number result

def step (page : ComposerPage) (event : Event) : ComposerPage :=
  handle event (page.emit (.event event))

def run (page : ComposerPage) (events : List Event) : ComposerPage := events.foldl step page

def mount (origin : JsString) (now : Nat) : ComposerPage where
  now := now
  hidden := false
  attached := true
  microtasks := []
  session := .new
  host := .new origin
  trace := []

end Composer

end Web
