import Erase.Cli.Receipt
import Erase.Web.Recovery

/-!
A note that a service has kept, in the hands of a user who has its link and its passphrase.
-/

open Protocol

namespace Web

namespace Reader

section

variable {page : ReaderPage} {ticket : Ticket}

theorem openPacket_eq (hgeneration : ticket.generation = page.session.generation)
    (hsignal : ticket.signal = page.session.controller) (hlive : page.Live) (packet : Bytes)
    : openPacket ticket packet page
        = await (.decrypt packet) (.openContent ticket)
            (setState (fun state => { state with status := "Decrypting locally…" }) page) := by
  unfold openPacket
  rw [Page.valid_of_live hgeneration hsignal hlive]

theorem content_openContent (hgeneration : ticket.generation = page.session.generation)
    (hsignal : ticket.signal = page.session.controller) (hlive : page.Live) (content : Shared.ContentInput)
    : (openContent ticket content page).host.state.content = some content := by
  unfold openContent
  rw [Page.valid_of_live hgeneration hsignal hlive]
  unfold openFinally
  dsimp only
  rw [Page.valid_of_live]
  . rfl
  . exact hgeneration
  . exact hsignal
  . exact hlive

end

end Reader

namespace Receiver

open Reader
open Backend (solo)

-- A page whose opening waits for a promise in its first generation.
structure Opening (number : Nat) (continuation : Continuation) (page : ReaderPage) : Prop where
  waiting : page.host.promises.waiting number = some continuation
  next : page.host.promises.next = number + 1
  generation : page.session.generation = 0
  controller : page.session.controller = 0
  live : page.Live

section

variable {page : ReaderPage} {number : Nat} {continuation next : Continuation} {f : ReaderState → ReaderState}

theorem Opening.await (h : Opening number continuation page) (result : Result) (request : Request)
    : Opening (number + 1) next (Reader.await request next (setState f (settledPage number result page))) where
  waiting := Promises.waiting_suspend.mpr (.inl ⟨h.next.symm, rfl⟩)
  next := congrArg (· + 1) h.next
  generation := h.generation
  controller := h.controller
  live := by
    have hlive := h.live
    unfold Page.Live at hlive ⊢
    exact hlive

theorem Opening.trace (h : Opening number continuation page) (result : Result) (request : Request)
    : (Reader.await request next (setState f (settledPage number result page))).trace = page.trace ++ [
        (0, .event (.settle number result)),
        (0, .call (number + 1) request)] := by
  rw [← h.next, ← h.generation]
  exact List.append_assoc _ _ _

end

-- The user types the passphrase and opens, and the service gives the packet.
def openingEvents (passphrase : JsString) (packet : Bytes) : List Event := [
  .reader (.passphrase passphrase),
  .reader .openNote,
  .receive 0 true,
  .finish 0,
  .deliver 0,
  .resume,
  .reader (.settle 4 (.packet packet)),
  .receive 0 true,
  .finish 0,
  .deliver 0,
  .resume]

section

variable {crypto : Crypto} {unicode : Shared.Unicode} {parseUrl : JsString → Option Shared.Url}
variable {page : ReaderPage} {passphrase : JsString} {link : Shared.ShareLink}

theorem step_opening (hnext : page.host.promises.next = 3) (hgeneration : page.session.generation = 0)
    (hcontroller : page.session.controller = 0) (hlive : page.Live)
    (hbusy : page.host.state.busy = false) (hphase : page.host.state.phase = .ready)
    (hid : page.host.id ≠ []) (hmetadata : page.host.metadata ≠ none)
    (hgiven : page.host.state.required = true → passphrase ≠ []) (thread : Thread)
    : ∃ opening, Opening 3 (.openAccess ⟨0, 0⟩) opening
      ∧ step crypto unicode parseUrl (fun _ => true)
          (step crypto unicode parseUrl (fun _ => true)
            ⟨page, solo { worker := some 0, created := 1, sequence := 2, pending := [] } thread []⟩
            (.reader (.passphrase passphrase)))
          (.reader .openNote) = {
        page := opening
        backend := solo {
            worker := some 0
            created := 1
            sequence := 3
            pending := [(3, (3, .prepare passphrase))] }
          { thread with inbox := thread.inbox ++ [(3, .prepare passphrase)] } [] } := by
  let typed : Receiver := {
    page := Reader.step page (.passphrase passphrase)
    backend := solo { worker := some 0, created := 1, sequence := 2, pending := [] } thread [] }
  have hsettled : typed.backend.settled = [] := rfl
  have hopened : step crypto unicode parseUrl (fun _ => true) typed (.reader .openNote) = _ :=
    step_openNote hsettled hbusy hphase hid hmetadata hgiven hlive
  rw [step_passphrase rfl, hopened]
  have hnumber : typed.page.host.promises.next = 3 := hnext
  have hposted := @Backend.run_solo _ _ _ _ _ (fun _ => true)
    { worker := some 0, created := 1, sequence := 2, pending := [] } rfl 3 rfl (.prepare passphrase) thread []
  have hpassphrase : typed.page.host.state.passphrase = passphrase := rfl
  rw [hnumber, hpassphrase]
  refine ⟨_, ⟨?_, ?_, ?_, ?_, ?_⟩, congrArg (Receiver.mk _) hposted⟩
  . apply Promises.waiting_suspend.mpr
    left
    refine ⟨hnext.symm, ?_⟩
    have htyped : typed.page.session.generation = 0 ∧ typed.page.session.controller = 0 :=
      ⟨hgeneration, hcontroller⟩
    rw [htyped.1, htyped.2]
  . exact congrArg (· + 1) hnext
  . exact hgeneration
  . exact hcontroller
  . unfold Page.Live at hlive ⊢
    exact hlive

theorem step_access (h : Opening 3 (.openAccess ⟨0, 0⟩) page) (token : JsString) (thread : Thread)
    : ∃ opening, Opening 4 (.openPacket ⟨0, 0⟩) opening
      ∧ step crypto unicode parseUrl (fun _ => true)
          ⟨page, solo { worker := some 0, created := 1, sequence := 3, pending := [] } thread
            [(3, .access token)]⟩ .resume
        = ⟨opening, solo { worker := some 0, created := 1, sequence := 3, pending := [] } thread []⟩ := by
  have hstep : Reader.step page (.settle 3 (.access token)) = _ := step_settle h.waiting rfl
  have hopen := @openAccess_eq (settledPage 3 (.access token) page) ⟨0, 0⟩ h.generation.symm
    h.controller.symm h.live token
  have htrace := congrArg Page.trace (hstep.trans hopen)
  rw [h.trace] at htrace
  refine ⟨Reader.step page (.settle 3 (.access token)), ?_, ?_⟩
  . rw [hstep, hopen]
    exact h.await _ _
  . rw [step_resume_solo _ _ htrace]
    rfl

theorem step_packet (h : Opening 4 (.openPacket ⟨0, 0⟩) page) (packet : Bytes) (thread : Thread)
    : ∃ opening, Opening 5 (.openContent ⟨0, 0⟩) opening
      ∧ step crypto unicode parseUrl (fun _ => true)
          ⟨page, solo { worker := some 0, created := 1, sequence := 3, pending := [] } thread []⟩
          (.reader (.settle 4 (.packet packet))) = {
        page := opening
        backend := solo {
            worker := some 0
            created := 1
            sequence := 4
            pending := [(4, (5, .decrypt packet))] }
          { thread with inbox := thread.inbox ++ [(4, .decrypt packet)] } [] } := by
  have hstep : Reader.step page (.settle 4 (.packet packet)) = _ := step_settle h.waiting rfl
  have hopen := @openPacket_eq (settledPage 4 (.packet packet) page) ⟨0, 0⟩ h.generation.symm
    h.controller.symm h.live packet
  have htrace := congrArg Page.trace (hstep.trans hopen)
  rw [h.trace] at htrace
  have hforeign : isForeign ⟨page, solo { worker := some 0, created := 1, sequence := 3, pending := [] }
      thread []⟩ (.settle 4 (.packet packet)) = false := by
    unfold isForeign
    dsimp only
    rw [h.waiting]
    rfl
  refine ⟨Reader.step page (.settle 4 (.packet packet)), ?_, ?_⟩
  . rw [hstep, hopen]
    exact h.await _ _
  . rw [step_reader_solo _ _ hforeign htrace]
    have hposted := @Backend.run_solo _ _ _ _ _ (fun _ => true)
      { worker := some 0, created := 1, sequence := 3, pending := [] } rfl 5 rfl (.decrypt packet) thread []
    exact congrArg (Receiver.mk _) hposted

theorem step_content (h : Opening 5 (.openContent ⟨0, 0⟩) page) (content : Shared.ContentInput)
    (worker : CryptoWorker (Nat × Request)) (thread : Thread)
    : (step crypto unicode parseUrl (fun _ => true)
        ⟨page, solo worker thread [(5, .content content)]⟩ .resume).page.host.state.content = some content := by
  have hstep : Reader.step page (.settle 5 (.content content)) = _ := step_settle h.waiting rfl
  have hcontent := @content_openContent (settledPage 5 (.content content) page) ⟨0, 0⟩ h.generation.symm
    h.controller.symm h.live content
  change (Reader.step page (.settle 5 (.content content))).host.state.content = some content
  rw [hstep]
  exact hcontent

-- A ready page opens the packet of its note.
theorem run_openingEvents {text : JsString} {prepared : Shared.PreparedOpen} {packet : Bytes}
    {content : Shared.ContentInput} (hnext : page.host.promises.next = 3)
    (hgeneration : page.session.generation = 0) (hcontroller : page.session.controller = 0)
    (hlive : page.Live) (hbusy : page.host.state.busy = false) (hphase : page.host.state.phase = .ready)
    (hid : page.host.id ≠ []) (hmetadata : page.host.metadata ≠ none)
    (hgiven : page.host.state.required = true → passphrase ≠ []) (htext : text ≠ [])
    (hprepared : Shared.prepareOpen crypto text link.secret link.id passphrase = .ok prepared)
    (hdecrypt : Shared.decrypt crypto unicode packet prepared = .ok content)
    : (run crypto unicode parseUrl (fun _ => true) {
          page
          backend := solo { worker := some 0, created := 1, sequence := 2, pending := [] }
            { Thread.new with link := some link, headerBase64 := text } [] }
        (openingEvents passphrase packet)).page.host.state.content = some content := by
  let held : Thread := { Thread.new with link := some link, headerBase64 := text }
  let keyed : Thread := { held with prepared := some prepared }
  rcases @step_opening crypto unicode parseUrl page passphrase hnext hgeneration hcontroller hlive hbusy hphase
    hid hmetadata hgiven held with ⟨opening, hopening, hopened⟩
  rcases @step_access crypto unicode parseUrl opening hopening prepared.readToken
    keyed with ⟨fetching, hfetching, hfetched⟩
  rcases @step_packet crypto unicode parseUrl fetching hfetching packet
    keyed with ⟨deciphering, hdeciphering, hdeciphered⟩
  have hpreparing : Thread.receive parseUrl true
        { held with inbox := held.inbox ++ [(3, .prepare passphrase)] }
      = { held with prepared := none, running := some (3, .prepare passphrase) } :=
    receive_prepare ⟨rfl, rfl, rfl⟩ rfl htext
  have hanswered : Thread.finish crypto unicode
        { held with prepared := none, running := some (3, .prepare passphrase) }
      = { keyed with outbox := [(3, .ok (.access prepared.readToken))] } :=
    finish_prepare ⟨rfl, rfl, rfl⟩ rfl hprepared
  have hposted : (solo
        { worker := some 0, created := 1, sequence := 3, pending := [(3, (3, .prepare passphrase))] }
        { keyed with outbox := [] } []).apply (fun _ => true)
          (CryptoWorker.onmessage 3 (.ok (.access prepared.readToken))
            { worker := some 0, created := 1, sequence := 3, pending := [(3, (3, .prepare passphrase))] })
      = solo { worker := some 0, created := 1, sequence := 3, pending := [] }
          keyed [(3, .access prepared.readToken)] := rfl
  have hrunning : Thread.receive parseUrl true
        { keyed with inbox := keyed.inbox ++ [(4, .decrypt packet)] }
      = { keyed with running := some (4, .decrypt packet) } := rfl
  have hfinished : Thread.finish crypto unicode
        { keyed with running := some (4, .decrypt packet) }
      = { Thread.new with outbox := [(4, .ok (.content content))] } := by
    simp [keyed, held, Thread.finish, Thread.finishDecrypt, Thread.new, Thread.post, Thread.answer, hdecrypt]
  have hsettled : (solo
        { worker := some 0, created := 1, sequence := 4, pending := [(4, (5, .decrypt packet))] }
        { Thread.new with outbox := [] } []).apply (fun _ => true)
          (CryptoWorker.onmessage 4 (.ok (.content content))
            { worker := some 0, created := 1, sequence := 4, pending := [(4, (5, .decrypt packet))] })
      = solo { worker := some 0, created := 1, sequence := 4, pending := [] } Thread.new
          [(5, .content content)] := rfl
  unfold run openingEvents
  rw [List.foldl_cons, List.foldl_cons, hopened, List.foldl_cons, step_receive_solo, hpreparing,
    List.foldl_cons, step_finish_solo, hanswered, List.foldl_cons, step_deliver_solo _ _ rfl, hposted,
    List.foldl_cons, hfetched, List.foldl_cons, hdeciphered, List.foldl_cons, step_receive_solo, hrunning,
    List.foldl_cons, step_finish_solo, hfinished, List.foldl_cons, step_deliver_solo _ _ rfl, hsettled,
    List.foldl_cons, List.foldl_nil]
  exact step_content hdeciphering content _ _

end

-- What a user with the link and the passphrase of a kept note needs.
structure Opens (crypto : Crypto) (unicode : Shared.Unicode) (link : Shared.ShareLink) (metadata : Metadata)
    (passphrase : JsString) (packet : Bytes) (content : Shared.ContentInput) : Prop where
  derived : ∃ token, Shared.derivePeek crypto link.secret link.id = .ok token
  decoded : ∃ header, Shared.decodeHeader metadata.header = .ok header
    ∧ header.id = link.id
    ∧ metadata.remaining ≤ header.views
  deciphers : ∃ prepared,
    Shared.prepareOpen crypto metadata.header link.secret link.id passphrase = .ok prepared
      ∧ Shared.decrypt crypto unicode packet prepared = .ok content

def noteEvents (url : JsString) (metadata : Metadata) (passphrase : JsString) (packet : Bytes) : List Event :=
  loadEvents url metadata ++ openingEvents passphrase packet

section

variable {crypto : Crypto} {unicode : Shared.Unicode} {parseUrl : JsString → Option Shared.Url}
variable {url passphrase : JsString} {link : Shared.ShareLink} {metadata : Metadata} {packet : Bytes}
variable {content : Shared.ContentInput}

-- A page that shows a note goes on from where its load has ended.
theorem session_shown (number : Nat) (metadata : Metadata) (header : Shared.Header) (page : ReaderPage)
    : (shown number metadata header page).session = page.session
      ∧ (shown number metadata header page).now = page.now
      ∧ (shown number metadata header page).host.promises.next = page.host.promises.next
      ∧ (shown number metadata header page).host.id = page.host.id := ⟨rfl, rfl, rfl, rfl⟩

theorem run_noteEvents (hlink : Shared.parseShareLink parseUrl url = .ok link)
    (h : Opens crypto unicode link metadata passphrase packet content)
    : (run crypto unicode parseUrl (fun _ => true) (mount 0)
        (noteEvents url metadata passphrase packet)).page.host.state.content = some content := by
  rcases h.derived with ⟨token, htoken⟩
  rcases h.decoded with ⟨header, hheader, hid, hviews⟩
  rcases h.deciphers with ⟨prepared, hprepared, hdecrypt⟩
  rcases Protocol.ne_nil_of_decodeHeader hheader with ⟨htext, hne⟩
  have hloaded : run crypto unicode parseUrl (fun _ => true) (mount 0) (loadEvents url metadata) = _ :=
    run_loadEvents hlink htoken hheader hid hviews
  have hunderway := underway_inspecting url token link metadata
  have hfront := id_inspecting url token link metadata
  generalize inspecting url token link metadata = page at hloaded hunderway hfront
  rcases session_shown 2 metadata header page with ⟨hsession, hnow, hnext, hsame⟩
  unfold run at hloaded
  unfold run noteEvents
  rw [List.foldl_append, hloaded]
  apply run_openingEvents
  . rw [hnext]
    exact hunderway.next
  . rw [hsession]
    exact hunderway.generation
  . rw [hsession]
    exact hunderway.controller
  . have hlive := hunderway.live
    unfold Page.Live at hlive ⊢
    rw [hsession, hnow]
    exact hlive
  . rw [busy_shown]
    exact hunderway.idle
  . exact phase_shown _ _ _ _
  . rw [hsame, hfront, ← hid]
    exact hne
  . intro hnone
    cases hnone
  . intro hrequired
    exact Protocol.ne_nil_of_prepareOpen hprepared hheader (of_decide_eq_true hrequired)
  . exact htext
  . exact hprepared
  . exact hdecrypt

theorem opens_sending (hcrypto : crypto.Lawful) (hunicode : unicode.Lawful) (sending : Sending crypto unicode)
    {upload : Server.Packet} (hupload : Server.parsePacket sending.note.packet = .ok upload)
    (hheader : metadata.header = JsString.ofString (Server.encodeUrlSafe upload.headerBytes))
    (hremaining : metadata.remaining ≤ upload.header.views)
    : Opens crypto unicode ⟨sending.note.id, sending.note.secret⟩ metadata sending.passphrase
        sending.note.packet (Shared.normalized unicode sending.input) := by
  rcases Cli.exists_opens hcrypto hunicode sending with ⟨parsed, token, prepared, hopens⟩
  cases hupload.symm.trans hopens.parsed
  have hprepares := hopens.prepares
  rw [← hheader] at hprepares
  refine ⟨⟨token, hopens.derived⟩, ?_, ⟨prepared, hprepares, hopens.decrypts⟩⟩
  rcases serverParsePacket_eq_ok_iff.mp hupload with ⟨stored, ciphertext, hstored, rfl⟩
  rw [HeaderValue.ofString_encodeUrlSafe] at hheader
  rcases prepareOpen_inv hcrypto hprepares with ⟨value, master, htext, -, hid, -⟩
  have hsame : value = stored :=
    HeaderValue.bytes_injective (toBase64Url_injective (htext.symm.trans hheader))
  subst hsame
  have hdecoded : Shared.decodeHeader metadata.header = .ok value.toShared :=
    decodeHeader_eq_ok_iff.mpr ⟨value, htext, rfl⟩
  exact ⟨value.toShared, hdecoded, value.id_toShared.trans hid.symm, hremaining⟩

/--
A note that a service has kept opens for whoever has its link and its passphrase: from an honest header and an
honest packet, the page comes to show the draft that was sent.
-/
theorem opens_note (hcrypto : crypto.Lawful) (hunicode : unicode.Lawful) (sending : Sending crypto unicode)
    {place : Shared.Url} (hplace : parseUrl url = some place) (hshare : Shared.isShareUrl place = true)
    (hhash : place.hash = Shared.shareHash sending.note.id sending.note.secret)
    {upload : Server.Packet} (hupload : Server.parsePacket sending.note.packet = .ok upload)
    (hheader : metadata.header = JsString.ofString (Server.encodeUrlSafe upload.headerBytes))
    (hremaining : metadata.remaining ≤ upload.header.views)
    : (run crypto unicode parseUrl (fun _ => true) (mount 0)
        (noteEvents url metadata sending.passphrase sending.note.packet)).page.host.state.content
      = some (Shared.normalized unicode sending.input) := by
  have hopens := opens_sending hcrypto hunicode sending hupload hheader hremaining
  have hlink : Shared.parseShareLink parseUrl url = .ok ⟨sending.note.id, sending.note.secret⟩ := by
    rcases Cli.exists_opens hcrypto hunicode sending with ⟨_, _, _, hnote⟩
    rcases hnote.link with ⟨id, secret, hid, hsecret⟩
    rw [hid, hsecret] at hhash ⊢
    exact Shared.parseShareLink_eq_ok hplace hshare hhash
  exact run_noteEvents hlink hopens

end

theorem exists_exampleSending
    : ∃ (sending : Sending Crypto.plain Shared.Unicode.ascii) (upload : Server.Packet),
      sending.input = Shared.exampleInput
        ∧ exampleUrl.hash = Shared.shareHash sending.note.id sending.note.secret
        ∧ Server.parsePacket sending.note.packet = .ok upload
        ∧ 1 ≤ upload.header.views := by
  rcases exists_exampleNote with ⟨note, upload, -, hcreated, hupload, -⟩
  rcases create_inv Crypto.plain_lawful Shared.Unicode.ascii_lawful hcreated with ⟨_, _, _, -, -, -, hnote⟩
  have hhash : exampleUrl.hash = Shared.shareHash note.id note.secret := by
    rw [hnote]
    rfl
  rcases serverParsePacket_eq_ok_iff.mp hupload with ⟨value, _, -, rfl⟩
  exact ⟨⟨_, _, _, note, hcreated⟩, _, rfl, hhash, hupload, value.views.2.1⟩

-- The honest service describes the note with one retrieval left.
def describe (upload : Server.Packet) : Metadata where
  header := JsString.ofString (Server.encodeUrlSafe upload.headerBytes)
  expiresAt := 3600
  remaining := 1

theorem opens_note_exampleInput
    : ∃ (sending : Sending Crypto.plain Shared.Unicode.ascii) (upload : Server.Packet),
      sending.input = Shared.exampleInput
        ∧ (run Crypto.plain Shared.Unicode.ascii (fun _ => some exampleUrl) (fun _ => true) (mount 0)
          (noteEvents [35] (describe upload) sending.passphrase sending.note.packet)).page.host.state.content
            = some (Shared.normalized Shared.Unicode.ascii Shared.exampleInput) := by
  rcases exists_exampleSending with ⟨sending, upload, hinput, hhash, hupload, hviews⟩
  refine ⟨sending, upload, hinput, ?_⟩
  rw [← hinput]
  exact opens_note Crypto.plain_lawful Shared.Unicode.ascii_lawful sending rfl (by decide) hhash hupload rfl
    hviews

end Receiver

end Web
