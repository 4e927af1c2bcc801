import Erase.Web.Coupling
import Erase.Web.SingleRequest

namespace Web

open Reader

def Entry.isEvent : Entry → Bool
  | event _ => true
  | _ => false

-- The trace goes on from `start`, and the workers have done what it asks of them.
def Tracks (posts : Nat → Bool) (start : Trace) (backend : Reader.Backend) (page : ReaderPage) : Prop :=
  ∃ more : Trace, page.trace = start ++ more ∧ (∀ entry ∈ more, entry.2.isEvent = false)
    ∧ Coupled (front page) (more.foldl (Backend.replay posts) backend)

section

variable {posts : Nat → Bool} {start : Trace} {backend : Reader.Backend} {page page' : ReaderPage}
variable {ticket : Ticket} {fresh : Bool}

theorem Coupled.tracks (h : Coupled (front page) backend) : Tracks posts page.trace backend page :=
  ⟨[], (List.append_nil _).symm, by simp, h⟩

theorem idle_of_view (h : (view page).Idle) : (front page).Idle := by
  intro number continuation hcurrent
  rcases h number continuation hcurrent with ⟨hload, hopen⟩
  cases continuation with
  | loadMetadata ticket => rfl
  | openPacket ticket => rfl
  | copyText ticket => rfl
  | loadLink ticket => cases hload
  | loadHeader ticket metadata => cases hload
  | openAccess ticket => cases hopen
  | openContent ticket => cases hopen

theorem not_needs_of_phase {front : Front} (h : front.phase ≠ .ready) : ¬front.Needs :=
  fun hneeds => h hneeds.1

theorem not_needs_of_busy {front : Front} (hbusy : front.busy = true) (hidle : front.Idle)
    : ¬front.Needs := by
  rintro ⟨-, hrest | ⟨number, ticket, hcurrent⟩⟩
  . cases hbusy.symm.trans hrest
  . cases hidle number _ hcurrent

namespace Tracks

theorem change (h : Tracks posts start backend page) (htrace : page'.trace = page.trace)
    (hcoupled : ∀ backend, Coupled (front page) backend → Coupled (front page') backend)
    : Tracks posts start backend page' := by
  rcases h with ⟨more, hmore, hevents, h⟩
  exact ⟨more, htrace.trans hmore, hevents, hcoupled _ h⟩

theorem record (h : Tracks posts start backend page) {entry : Nat × Entry}
    (htrace : page'.trace = page.trace ++ [entry]) (hevent : entry.2.isEvent = false)
    (hcoupled : ∀ backend, Coupled (front page) backend
      → Coupled (front page') (backend.replay posts entry))
    : Tracks posts start backend page' := by
  rcases h with ⟨more, hmore, hevents, h⟩
  refine ⟨more ++ [entry], by rw [htrace, hmore, List.append_assoc], ?_, ?_⟩
  . intro other hother
    rcases List.mem_append.mp hother with hother | hother
    . exact hevents other hother
    . rw [List.mem_singleton.mp hother]
      exact hevent
  . rw [List.foldl_append]
    exact hcoupled _ h

-- An entry that concerns no worker.
theorem emit (h : Tracks posts start backend page) {entry : Entry} (hevent : entry.isEvent = false)
    (hneutral : ∀ generation (backend : Reader.Backend), backend.replay posts (generation, entry) = backend)
    : Tracks posts start backend (page.emit entry) := by
  apply h.record rfl hevent
  intro backend h
  rw [hneutral]
  exact h

theorem foldl_emit (h : Tracks posts start backend page) {entries : List Entry}
    (hevent : ∀ entry ∈ entries, entry.isEvent = false)
    (hneutral : ∀ entry ∈ entries, ∀ generation (backend : Reader.Backend),
      backend.replay posts (generation, entry) = backend)
    : Tracks posts start backend (entries.foldl (fun page entry => page.emit entry) page) := by
  induction entries generalizing page with
  | nil => exact h
  | cons entry entries ih =>
    apply ih (h.emit (hevent entry (by simp)) (hneutral entry (by simp)))
    . exact fun other hother => hevent other (by simp [hother])
    . exact fun other hother => hneutral other (by simp [hother])

theorem neutral_of_mem_fillFiles (posts : Nat → Bool) {content : Option Shared.ContentInput}
    {entry : Entry}
    (h : entry ∈ fillFiles content) : entry.isEvent = false
      ∧ ∀ generation (backend : Reader.Backend), backend.replay posts (generation, entry) = backend := by
  rcases eq_fill_of_mem_fillFiles h with ⟨data, rfl⟩
  exact ⟨rfl, fun _ _ => rfl⟩

theorem clear (h : Tracks posts start backend page) (reason : ClearReason)
    : Tracks posts start backend (page.clear options reason) := by
  have hdisposed : Tracks posts start backend { page with
      session := {
        generation := page.session.generation + 1
        controller := page.session.controller + 1
        deadline := 0
        timer := none }
      host := (reset reason (options.clock 0 (options.warning 0 page.host))).1
      trace := page.trace ++ [(page.session.generation + 1, .dispose)] } := by
    apply h.record rfl rfl
    intro backend h
    exact h.clear false page.host.state.required [] none
  have hrest : ∀ entry ∈ page.host.urls.urls.map Entry.revokeObjectUrl ++ fillFiles page.host.state.content,
      entry.isEvent = false
        ∧ ∀ generation (backend : Reader.Backend), backend.replay posts (generation, entry) = backend := by
    intro entry hentry
    rcases List.mem_append.mp hentry with hentry | hentry
    . rcases List.mem_map.mp hentry with ⟨url, -, rfl⟩
      exact ⟨rfl, fun _ _ => rfl⟩
    . exact neutral_of_mem_fillFiles posts hentry
  have htail := hdisposed.foldl_emit (fun entry hentry => (hrest entry hentry).1)
    fun entry hentry => (hrest entry hentry).2
  rw [Page.foldl_emit] at htail
  dsimp only at htail
  rw [List.append_assoc] at htail
  exact htail

theorem invariant (posts : Nat → Bool) (start : Trace) (backend : Reader.Backend)
    : options.Invariant (Tracks posts start backend) where
  clear reason h := h.clear reason
  ambient _ _ _ _ h := h
  schedule _ _ h := h
  warning _ h := h
  clock _ h := h

theorem valid (h : Tracks posts start backend page) {isValid : Bool}
    (hvalid : page.valid options ticket = (isValid, page')) : Tracks posts start backend page' :=
  (invariant posts start backend).valid h hvalid

-- A call that no worker runs.
theorem wait (h : Tracks posts start backend page) {request : Request} {continuation : Continuation}
    (hgeneration : continuation.ticket.generation = page.session.generation)
    (hforeign : continuation.isCrypto = false) (hrequest : request.isCrypto = false)
    : Tracks posts start backend (await request continuation page) := by
  apply h.record rfl rfl
  intro backend h
  rw [backend.replay_none posts (order_foreign hrequest)]
  exact h.wait hgeneration hforeign

-- A call that a worker runs, of a reader that is not ready.
theorem ask (h : Tracks posts start backend page) {request : Request} {continuation : Continuation}
    (hidle : (front page).Idle)
    (hgeneration : continuation.ticket.generation = page.session.generation)
    (hasks : continuation.Asks request) (hrequest : request.isCrypto = true)
    (hneeds : ¬Front.Needs { front page with
      promises := page.host.promises.suspend continuation })
    : Tracks posts start backend (await request continuation page) := by
  apply h.record rfl rfl
  intro backend h
  rw [backend.replay_call posts (order_call hrequest)]
  exact h.ask hidle hgeneration hasks fun hready => absurd hready hneeds

theorem dispose (h : Tracks posts start backend page) (hidle : (front page).Idle)
    (hneeds : ¬(front page).Needs) : Tracks posts start backend (page.emit .dispose) := by
  apply h.record rfl rfl
  intro backend h
  apply h.fail _ hneeds
  intro number result continuation hmem hcurrent
  cases (hidle number continuation hcurrent).symm.trans ((h.settled hmem).2 continuation hcurrent.1)

-- The reader is no longer ready.
theorem leave (h : Tracks posts start backend page) (htrace : page'.trace = page.trace)
    (hgeneration : page'.session.generation = page.session.generation)
    (hpromises : page'.host.promises = page.host.promises) (hphase : page'.host.state.phase ≠ .ready)
    : Tracks posts start backend page' := by
  apply h.change htrace
  intro backend h
  exact h.adjust hgeneration hpromises fun hready => absurd hready (not_needs_of_phase hphase)

theorem loadFailed (h : Tracks posts start backend page)
    (hidle : ticket.generation = page.session.generation
      → (view page).Idle ∧ page.host.state.phase ≠ .ready) (error : Failure)
    : Tracks posts start backend (loadFailed ticket error page) := by
  unfold Reader.loadFailed
  split
  . next hvalid => exact h.valid hvalid
  . next hvalid =>
    rcases Page.valid_eq_true hvalid with ⟨rfl, -, hgeneration⟩
    rcases hidle hgeneration with ⟨hidle, hphase⟩
    have hdisposed := h.dispose (idle_of_view hidle) (not_needs_of_phase hphase)
    exact hdisposed.leave rfl rfl rfl (show Phase.error ≠ .ready by decide)

theorem openFinally (h : Tracks posts start backend page)
    (hphase : ticket.generation = page.session.generation → page.host.state.phase ≠ .ready)
    (packet : Option Bytes) : Tracks posts start backend (openFinally ticket packet page) := by
  have hfilled : ∀ page' : ReaderPage, Tracks posts start backend page'
      → (ticket.generation = page'.session.generation → page'.host.state.phase ≠ .ready)
      → Tracks posts start backend (Reader.openFinally ticket none page') := by
    intro page' h hphase
    unfold Reader.openFinally
    dsimp only
    split
    . next hvalid => exact h.valid hvalid
    . next hvalid =>
      rcases Page.valid_eq_true hvalid with ⟨rfl, -, hgeneration⟩
      exact h.leave rfl rfl rfl (hphase hgeneration)
  rcases openFinally_eq ticket packet with hsame | ⟨bytes, hsame⟩
  . rw [hsame]
    exact hfilled page h hphase
  . rw [hsame]
    exact hfilled _ (h.emit rfl fun _ _ => rfl) hphase

theorem save (h : Tracks posts start backend page) (name : JsString) (data : Bytes)
    : Tracks posts start backend (save name data page) := by
  have hcreated : Tracks posts start backend (page.emit (.createObjectUrl page.host.urls.next data)) :=
    h.emit rfl fun _ _ => rfl
  have hsaved : Tracks posts start backend ((page.emit (.createObjectUrl page.host.urls.next data)).emit
      (.save page.host.urls.next name)) :=
    hcreated.emit rfl fun _ _ => rfl
  exact hsaved

theorem load (h : Tracks posts start backend page) (hcoherent : Coherent true (view page))
    (url : JsString) : Tracks posts start backend (Reader.load url page) := by
  have hstarted : Coherent true (view (setState (fun state => { state with
      phase := .loading, error := "", status := "Checking package metadata…" }) page)) :=
    hcoherent.abandon (hcoherent.fresh rfl).2 (show Phase.loading ≠ .ready by decide) _ _
  have hloading : Tracks posts start backend (setState (fun state => { state with
      phase := .loading, error := "", status := "Checking package metadata…" }) page) :=
    h.leave rfl rfl rfl (show Phase.loading ≠ .ready by decide)
  have hticketed := (invariant posts start backend).ticket
    ((invariant posts start backend).touchAt hloading page.now)
  rcases ((Coherent.invariant true).ticket
    ((Coherent.invariant true).touchAt hstarted page.now)).fresh rfl with ⟨hphase, hidle⟩
  apply hticketed.ask (idle_of_view hidle)
  . rfl
  . exact trivial
  . rfl
  . exact not_needs_of_phase hphase

theorem loadLink (h : Tracks posts start backend page)
    (hphase : ticket.generation = page.session.generation → page.host.state.phase ≠ .ready)
    (id peekToken : JsString) : Tracks posts start backend (loadLink ticket id peekToken page) := by
  unfold Reader.loadLink
  split
  . next hvalid => exact h.valid hvalid
  . next hvalid =>
    rcases Page.valid_eq_true hvalid with ⟨rfl, -, hgeneration⟩
    have hlinked : Tracks posts start backend (page.modify fun reader => { reader with id }) :=
      h.leave rfl rfl rfl (hphase hgeneration)
    exact hlinked.wait hgeneration rfl rfl

theorem loadMetadata (h : Tracks posts start backend page)
    (hidle : ticket.generation = page.session.generation
      → (view page).Idle ∧ page.host.state.phase ≠ .ready)
    (metadata : Metadata) : Tracks posts start backend (loadMetadata ticket metadata page) := by
  unfold Reader.loadMetadata
  split
  . next hvalid => exact h.valid hvalid
  . next hvalid =>
    rcases Page.valid_eq_true hvalid with ⟨rfl, -, hgeneration⟩
    rcases hidle hgeneration with ⟨hidle, hphase⟩
    apply h.ask (idle_of_view hidle)
    . exact hgeneration
    . rfl
    . rfl
    . exact not_needs_of_phase hphase

theorem openAccess (h : Tracks posts start backend page) (hresumed : Resumed fresh page ticket)
    (readToken : JsString) : Tracks posts start backend (openAccess ticket readToken page) := by
  unfold Reader.openAccess
  split
  . next hvalid =>
    apply (h.valid hvalid).openFinally
    exact fun hgeneration => absurd hgeneration (hresumed.stale hvalid)
  . next hvalid =>
    rcases Page.valid_eq_true hvalid with ⟨rfl, -, hgeneration⟩
    have hretrieving : Tracks posts start backend (setState (fun state => { state with
        passphrase := [], status := "Retrieving encrypted package…" }) page) := h
    exact hretrieving.wait hgeneration rfl rfl

theorem openPacket (h : Tracks posts start backend page) (hresumed : Resumed fresh page ticket)
    (hbusy : ticket.generation = page.session.generation → page.host.state.busy = true)
    (packet : Bytes) : Tracks posts start backend (openPacket ticket packet page) := by
  unfold Reader.openPacket
  split
  . next hvalid =>
    apply (h.valid hvalid).openFinally
    exact fun hgeneration => absurd hgeneration (hresumed.stale hvalid)
  . next hvalid =>
    rcases Page.valid_eq_true hvalid with ⟨rfl, -, hgeneration⟩
    have hidle := idle_of_view (hresumed.idle hgeneration).2
    have hdecrypting : Tracks posts start backend (setState (fun state => { state with
        status := "Decrypting locally…" }) page) := h
    apply hdecrypting.ask hidle
    . exact hgeneration
    . exact trivial
    . rfl
    . rintro ⟨-, hrest | ⟨number, other, hcurrent⟩⟩
      . cases (hbusy hgeneration).symm.trans hrest
      . rcases Coupled.current_suspend hcurrent with ⟨-, hnew⟩ | hold
        . cases hnew
        . cases hidle number _ hold

theorem openContent (h : Tracks posts start backend page) (hresumed : Resumed fresh page ticket)
    (content : Shared.ContentInput)
    : Tracks posts start backend (openContent ticket content page) := by
  unfold Reader.openContent
  split
  . next hvalid =>
    have hfilled := (h.valid hvalid).foldl_emit
      (fun entry (hentry : entry ∈ fillFiles (some content)) => (neutral_of_mem_fillFiles posts hentry).1)
      fun entry hentry => (neutral_of_mem_fillFiles posts hentry).2
    have hstale := hresumed.stale hvalid
    apply hfilled.openFinally
    rw [Page.foldl_emit]
    exact fun hgeneration => absurd hgeneration hstale
  . next hvalid =>
    rcases Page.valid_eq_true hvalid with ⟨rfl, -, hgeneration⟩
    have hphase : Phase.opened ≠ .ready := by decide
    have hopened : Tracks posts start backend ((setState (fun state => { state with
        content := some content
        remaining := state.remaining - 1
        phase := .opened
        status := "Decrypted locally. This retrieval has been counted." }) page).modify fun reader =>
          { reader with id := [], metadata := none }) :=
      h.leave rfl rfl rfl hphase
    have hidle := idle_of_view (hresumed.idle hgeneration).2
    apply (hopened.dispose hidle (not_needs_of_phase hphase)).openFinally
    exact fun _ => hphase

theorem openRejected (h : Tracks posts start backend page) (hresumed : Resumed fresh page ticket)
    (hbusy : ticket.generation = page.session.generation → page.host.state.busy = true)
    (error : Failure) : Tracks posts start backend (openFailed ticket true error page) := by
  unfold Reader.openFailed
  split
  . next hvalid =>
    apply (h.valid hvalid).openFinally
    exact fun hgeneration => absurd hgeneration (hresumed.stale hvalid)
  . next hvalid =>
    rcases Page.valid_eq_true hvalid with ⟨rfl, -, hgeneration⟩
    have hidle := idle_of_view (hresumed.idle hgeneration).2
    have hphase : Phase.error ≠ .ready := by decide
    have hfailed : Tracks posts start backend (setState (fun state => { state with
        passphrase := [], error := errorText error }) page) := h
    have hdisposed := hfailed.dispose hidle (not_needs_of_busy (hbusy hgeneration) hidle)
    apply openFinally
    . exact hdisposed.leave rfl rfl rfl hphase
    . exact fun _ => hphase

theorem copyText (h : Tracks posts start backend page)
    : Tracks posts start backend (copyText page) := by
  unfold Reader.copyText
  split
  . next hexpire => exact (invariant posts start backend).expire h hexpire
  . next hexpire =>
    rcases Page.expire_eq_false hexpire with ⟨rfl, hlive⟩
    split
    . exact h
    . rw [Page.ticket_of_live hlive]
      exact h.wait rfl rfl rfl

theorem copied (h : Tracks posts start backend page) (message : String)
    : Tracks posts start backend (copied ticket message page) := by
  unfold Reader.copied
  split
  . next hvalid => exact h.valid hvalid
  . next hvalid =>
    rcases Page.valid_eq_true hvalid with ⟨rfl, -, -⟩
    exact h

theorem download (h : Tracks posts start backend page) (index : Nat)
    : Tracks posts start backend (download index page) := by
  unfold Reader.download
  split
  . next hexpire => exact (invariant posts start backend).expire h hexpire
  . next hexpire =>
    rcases Page.expire_eq_false hexpire with ⟨rfl, -⟩
    split
    . exact h
    . exact h.save _ _

theorem downloadText (h : Tracks posts start backend page)
    : Tracks posts start backend (downloadText page) := by
  unfold Reader.downloadText
  split
  . next hexpire => exact (invariant posts start backend).expire h hexpire
  . next hexpire =>
    rcases Page.expire_eq_false hexpire with ⟨rfl, -⟩
    split
    . exact h
    . exact h.save _ _

theorem releaseUrl (h : Tracks posts start backend page) (index : Nat)
    : Tracks posts start backend (releaseUrl index page) := by
  unfold Reader.releaseUrl
  split
  . exact h
  . split
    . exact h
    . next url _ _ _ =>
      have hrevoked : Tracks posts start backend (page.emit (.revokeObjectUrl url)) :=
        h.emit rfl fun _ _ => rfl
      exact hrevoked

end Tracks

namespace Coupled

theorem loadHeader (h : Coupled (front page) backend) (hresumed : Resumed fresh page ticket)
    (hphase : ticket.generation = page.session.generation → page.host.state.phase ≠ .ready)
    {metadata : Metadata} {header : Shared.Header}
    (hvouches : ticket.generation = page.session.generation
      → ∃ link, backend.held = some (link, metadata.header) ∧ header.id = link.id
        ∧ Shared.decodeHeader metadata.header = .ok header)
    : Tracks posts page.trace backend (Reader.loadHeader ticket metadata header page) := by
  unfold Reader.loadHeader
  split
  . next hvalid => exact (h.tracks).valid hvalid
  . next hvalid =>
    rcases Page.valid_eq_true hvalid with ⟨rfl, -, hgeneration⟩
    split
    . apply (h.tracks).loadFailed
      exact fun _ => ⟨(hresumed.idle hgeneration).2, hphase hgeneration⟩
    . next hmatches =>
      rcases hvouches hgeneration with ⟨link, hheld, hid, hdecoded⟩
      have hsame : header.id = page.host.id := by
        by_contra hne
        exact hmatches (.inl hne)
      refine ⟨[(page.session.generation, .loaded page.host.id)], rfl, by simp [Entry.isEvent], ?_⟩
      refine h.adjust ?_ ?_ fun _ => ?_
      . rfl
      . rfl
      . exact ⟨link, metadata, header, hheld, rfl, hid.symm.trans hsame, hdecoded, hid, rfl⟩

theorem openNote (h : Coupled (front page) backend) (hcoherent : Coherent fresh (view page))
    : Tracks posts page.trace backend (Reader.openNote page) := by
  unfold Reader.openNote
  split
  . next hexpire =>
    exact (Tracks.invariant posts page.trace backend).expire h.tracks hexpire
  . next hexpire =>
    rcases Page.expire_eq_false hexpire with ⟨rfl, hlive⟩
    split
    . exact h.tracks
    . next hguard =>
      split
      . exact h.tracks
      . simp only [Bool.or_eq_true, not_or, decide_eq_true_eq, Bool.not_eq_true, not_not] at hguard
        rcases hguard with ⟨⟨⟨hbusy, hphase⟩, -⟩, -⟩
        have hidle := hcoherent.idle_of_ready hphase hbusy
        rcases h.ready ⟨hphase, .inl hbusy⟩ with ⟨link, metadata, header, hheld⟩
        dsimp only
        rw [Page.ticket_of_live (live_setState hlive _)]
        have hstarted : Coupled (front (setState (fun state => { state with
            busy := true, error := "", status := "Deriving and verifying access locally…" }) page))
            backend :=
          h.adjust rfl rfl fun _ => ⟨link, metadata, header, hheld⟩
        refine ⟨[(page.session.generation, .call page.host.promises.next
          (.prepare page.host.state.passphrase))], rfl, by simp [Entry.isEvent], ?_⟩
        apply hstarted.ask (idle_of_view hidle)
        . rfl
        . exact trivial
        . exact fun _ => ⟨link, metadata, header, hheld⟩

theorem accessFinally (h : Coupled (front page) backend)
    (hheld : page.host.state.phase = .ready → (front page).Held backend)
    (htrace : page'.trace = page.trace) (hfront : front page' = front page)
    : Tracks posts page.trace backend (Reader.openFinally ticket none page') := by
  have hfailed : Tracks posts page.trace backend page' :=
    ⟨[], by rw [htrace, List.append_nil], by simp, hfront ▸ h⟩
  unfold Reader.openFinally
  dsimp only
  split
  . next hvalid => exact hfailed.valid hvalid
  . next hvalid =>
    rcases Page.valid_eq_true hvalid with ⟨rfl, -, -⟩
    have hgeneration : page'.session.generation = page.session.generation :=
      congrArg Front.generation hfront
    have hpromises : page'.host.promises = page.host.promises := congrArg Front.promises hfront
    refine ⟨[], htrace.trans (List.append_nil _).symm, by simp, h.adjust ?_ ?_ ?_⟩
    . exact hgeneration
    . exact hpromises
    . rintro ⟨hphase, -⟩
      have hready : page.host.state.phase = .ready := (congrArg Front.phase hfront).symm.trans hphase
      rcases hheld hready with ⟨link, metadata, header, hheld⟩
      rw [← hfront] at hheld
      exact ⟨link, metadata, header, hheld⟩

-- A wrong passphrase leaves what the worker holds in place.
theorem accessRejected (h : Coupled (front page) backend) (hresumed : Resumed fresh page ticket)
    (hheld : ticket.generation = page.session.generation → page.host.state.phase = .ready
      → (front page).Held backend)
    (error : Failure) : Tracks posts page.trace backend (openFailed ticket false error page) := by
  unfold Reader.openFailed
  split
  . next hvalid =>
    apply ((h.tracks).valid hvalid).openFinally
    exact fun hgeneration => absurd hgeneration (hresumed.stale hvalid)
  . next hvalid =>
    rcases Page.valid_eq_true hvalid with ⟨rfl, -, hgeneration⟩
    apply h.accessFinally (hheld hgeneration)
    . rfl
    . rfl

end Coupled

end

end Web
