import Erase.Web.Recovery

/-!
A load whose metadata is asked for the note it is about shows that note, whatever else happens meanwhile.
-/

namespace Web

open Reader

-- The load that is under way asks for the metadata of the note of its link, and has got `answered` ones.
structure Pursues (answered : JsString → Metadata → Prop) (before : View) : Prop where
  past : ∀ number continuation, before.promises.waiting number = some continuation
    → continuation.ticket.generation ≤ before.generation
  asked : ∀ number ticket, before.Current number (.loadMetadata ticket)
    → ∃ generation token, (generation, .call number (.metadata before.id token)) ∈ before.trace
  answered : ∀ number ticket metadata, before.Current number (.loadHeader ticket metadata)
    → answered before.id metadata

namespace Pursues

variable {answered : JsString → Metadata → Prop} {before : View} {page : ReaderPage}

theorem of_idle {after : View} (hpast : ∀ number continuation, after.promises.waiting number = some continuation
      → continuation.ticket.generation ≤ after.generation) (hidle : after.Idle)
    : Pursues answered after where
  past := hpast
  asked number ticket hcurrent := by cases (hidle number _ hcurrent).1
  answered number ticket metadata hcurrent := by cases (hidle number _ hcurrent).1

theorem append (h : Pursues answered before) (more : Trace)
    : Pursues answered { before with trace := before.trace ++ more } := { h with
  asked := fun number ticket hcurrent => by
    rcases h.asked number ticket hcurrent with ⟨generation, token, hmem⟩
    exact ⟨generation, token, List.mem_append_left more hmem⟩ }

theorem emit (h : Pursues answered before) (entry : Entry) : Pursues answered (before.emit entry) :=
  h.append _

theorem state (h : Pursues answered before) (phase : Phase) (busy : Bool)
    : Pursues answered { before with phase, busy } := { h with }

theorem abandon (h : Pursues answered before) (hidle : before.Idle) (phase : Phase) (busy : Bool)
    (id : JsString) : Pursues answered { before with phase, busy, id } :=
  of_idle h.past hidle

theorem settle (h : Pursues answered before) (number : Nat)
    : Pursues answered (before.settle number) := by
  have hcurrent : ∀ {other continuation}, (before.settle number).Current other continuation
      → before.Current other continuation :=
    fun h => ⟨(Promises.waiting_settle.mp h.1).2, h.2⟩
  exact {
    past := fun other continuation hwaiting =>
      h.past other continuation (Promises.waiting_settle.mp hwaiting).2
    asked := fun other ticket hother => h.asked other ticket (hcurrent hother)
    answered := fun other ticket metadata hother => h.answered other ticket metadata (hcurrent hother) }

theorem suspend (h : Pursues answered before) {continuation : Continuation}
    (hgeneration : continuation.ticket.generation ≤ before.generation)
    (hasked : ∀ ticket, continuation = .loadMetadata ticket
      → ∃ generation token,
        (generation, .call before.promises.next (.metadata before.id token)) ∈ before.trace)
    (hanswered : ∀ ticket metadata, continuation = .loadHeader ticket metadata
      → answered before.id metadata)
    : Pursues answered { before with promises := before.promises.suspend continuation } where
  past number suspended hwaiting := by
    rcases Promises.waiting_suspend.mp hwaiting with ⟨-, rfl⟩ | ⟨-, hwaiting⟩
    . exact hgeneration
    . exact h.past number suspended hwaiting
  asked number ticket hcurrent := by
    rcases Promises.waiting_suspend.mp hcurrent.1 with ⟨rfl, hnew⟩ | ⟨-, hwaiting⟩
    . exact hasked ticket hnew.symm
    . exact h.asked number ticket ⟨hwaiting, hcurrent.2⟩
  answered number ticket metadata hcurrent := by
    rcases Promises.waiting_suspend.mp hcurrent.1 with ⟨-, hnew⟩ | ⟨-, hwaiting⟩
    . exact hanswered ticket metadata hnew.symm
    . exact h.answered number ticket metadata ⟨hwaiting, hcurrent.2⟩

theorem clear (h : Pursues answered (view page)) (reason : ClearReason)
    : Pursues answered (view (page.clear options reason)) := by
  have hpast : ∀ number continuation, page.host.promises.waiting number = some continuation
      → continuation.ticket.generation ≤ page.session.generation := h.past
  apply of_idle
  . intro number continuation hwaiting
    exact Nat.le_succ_of_le (hpast number continuation hwaiting)
  . intro number continuation hcurrent
    have hgeneration : continuation.ticket.generation = page.session.generation + 1 := hcurrent.2
    have hle := hpast number continuation hcurrent.1
    omega

theorem invariant (answered : JsString → Metadata → Prop)
    : options.Invariant fun page : ReaderPage => Pursues answered (view page) where
  clear reason h := h.clear reason
  ambient _ _ _ _ h := h
  schedule _ _ h := h
  warning _ h := h
  clock _ h := h

theorem valid (h : Pursues answered (view page)) {ticket : Ticket} {isValid : Bool} {page' : ReaderPage}
    (hvalid : page.valid options ticket = (isValid, page')) : Pursues answered (view page') :=
  (invariant answered).valid h hvalid

end Pursues

section

variable {answered : JsString → Metadata → Prop} {page : ReaderPage} {ticket : Ticket} {fresh : Bool}

-- A call that is not about metadata.
theorem pursues_await (h : Pursues answered (view page)) (request : Request)
    {continuation : Continuation}
    (hgeneration : continuation.ticket.generation ≤ page.session.generation)
    (hasked : ∀ ticket, continuation ≠ .loadMetadata ticket)
    (hanswered : ∀ ticket metadata, continuation ≠ .loadHeader ticket metadata)
    : Pursues answered (view (await request continuation page)) :=
  (h.emit _).suspend hgeneration (fun ticket hnew => absurd hnew (hasked ticket))
    fun ticket metadata hnew => absurd hnew (hanswered ticket metadata)

theorem pursues_load (h : Pursues answered (view page)) (url : JsString)
    : Pursues answered (view (Reader.load url page)) := by
  have hstarted : Pursues answered (view (setState (fun state => { state with
      phase := .loading, error := "", status := "Checking package metadata…" }) page)) :=
    h.state .loading page.host.state.busy
  have hinvariant := Pursues.invariant answered
  exact pursues_await (hinvariant.ticket (hinvariant.touchAt hstarted page.now)) _ (Nat.le_refl _)
    nofun nofun

theorem pursues_loadFailed (h : Pursues answered (view page))
    (hidle : ticket.generation = page.session.generation → (view page).Idle) (error : Failure)
    : Pursues answered (view (loadFailed ticket error page)) := by
  unfold loadFailed
  split
  . next hvalid => exact h.valid hvalid
  . next hvalid =>
    rcases Page.valid_eq_true hvalid with ⟨rfl, -, hgeneration⟩
    exact (h.emit .dispose).abandon (hidle hgeneration) _ _ _

theorem pursues_loadLink (h : Pursues answered (view page))
    (hidle : ticket.generation = page.session.generation → (view page).Idle) (id peekToken : JsString)
    : Pursues answered (view (loadLink ticket id peekToken page)) := by
  unfold loadLink
  split
  . next hvalid => exact h.valid hvalid
  . next hvalid =>
    rcases Page.valid_eq_true hvalid with ⟨rfl, -, hgeneration⟩
    have hnamed := (h.abandon (hidle hgeneration) page.host.state.phase page.host.state.busy id).emit
      (.call page.host.promises.next (.metadata id peekToken))
    apply hnamed.suspend
    . exact hgeneration.le
    . intro _ _
      exact ⟨page.session.generation, peekToken, List.mem_append_right _ List.mem_cons_self⟩
    . nofun

theorem pursues_loadMetadata (h : Pursues answered (view page)) {metadata : Metadata}
    (hmetadata : ticket.generation = page.session.generation → answered page.host.id metadata)
    : Pursues answered (view (loadMetadata ticket metadata page)) := by
  unfold loadMetadata
  split
  . next hvalid => exact h.valid hvalid
  . next hvalid =>
    rcases Page.valid_eq_true hvalid with ⟨rfl, -, hgeneration⟩
    apply (h.emit (.call page.host.promises.next (.inspect metadata.header))).suspend
    . exact hgeneration.le
    . nofun
    . intro _ _ hnew
      cases hnew
      exact hmetadata hgeneration

theorem pursues_loadHeader (h : Pursues answered (view page))
    (hidle : ticket.generation = page.session.generation → (view page).Idle) (metadata : Metadata)
    (header : Shared.Header) : Pursues answered (view (loadHeader ticket metadata header page)) := by
  unfold loadHeader
  split
  . next hvalid => exact h.valid hvalid
  . next hvalid =>
    rcases Page.valid_eq_true hvalid with ⟨rfl, -, hgeneration⟩
    split
    . exact pursues_loadFailed h hidle _
    . exact (h.state .ready page.host.state.busy).emit _

theorem pursues_openFinally (h : Pursues answered (view page)) (packet : Option Bytes)
    : Pursues answered (view (openFinally ticket packet page)) := by
  have hfilled : ∀ page' : ReaderPage, Pursues answered (view page')
      → Pursues answered (view (openFinally ticket none page')) := by
    intro page' h
    unfold openFinally
    dsimp only
    split
    . next hvalid => exact h.valid hvalid
    . next hvalid =>
      rcases Page.valid_eq_true hvalid with ⟨rfl, -, -⟩
      exact h.state page'.host.state.phase false
  rcases openFinally_eq ticket packet with hsame | ⟨bytes, hsame⟩
  . rw [hsame]
    exact hfilled page h
  . rw [hsame]
    exact hfilled _ (h.emit _)

theorem pursues_openFailed (h : Pursues answered (view page))
    (hidle : ticket.generation = page.session.generation → (view page).Idle) (requested : Bool)
    (error : Failure) : Pursues answered (view (openFailed ticket requested error page)) := by
  unfold openFailed
  split
  . next hvalid => exact pursues_openFinally (h.valid hvalid) none
  . next hvalid =>
    rcases Page.valid_eq_true hvalid with ⟨rfl, -, hgeneration⟩
    cases requested with
    | false =>
      apply pursues_openFinally
      exact h
    | true =>
      apply pursues_openFinally
      exact (h.emit .dispose).abandon (hidle hgeneration) .error page.host.state.busy []

theorem pursues_openAccess (h : Pursues answered (view page)) (readToken : JsString)
    : Pursues answered (view (openAccess ticket readToken page)) := by
  unfold openAccess
  split
  . next hvalid => exact pursues_openFinally (h.valid hvalid) none
  . next hvalid =>
    rcases Page.valid_eq_true hvalid with ⟨rfl, -, hgeneration⟩
    exact pursues_await h _ hgeneration.le nofun nofun

theorem pursues_openPacket (h : Pursues answered (view page)) (packet : Bytes)
    : Pursues answered (view (openPacket ticket packet page)) := by
  unfold openPacket
  split
  . next hvalid => exact pursues_openFinally (h.valid hvalid) (some packet)
  . next hvalid =>
    rcases Page.valid_eq_true hvalid with ⟨rfl, -, hgeneration⟩
    exact pursues_await h _ hgeneration.le nofun nofun

theorem pursues_openContent (h : Pursues answered (view page))
    (hidle : ticket.generation = page.session.generation → (view page).Idle)
    (content : Shared.ContentInput) : Pursues answered (view (openContent ticket content page)) := by
  unfold openContent
  split
  . next page' hvalid =>
    dsimp only
    rw [Page.foldl_emit]
    apply pursues_openFinally
    exact (h.valid hvalid).append _
  . next hvalid =>
    rcases Page.valid_eq_true hvalid with ⟨rfl, -, hgeneration⟩
    apply pursues_openFinally
    exact (h.abandon (hidle hgeneration) .opened page.host.state.busy []).emit .dispose

theorem pursues_openNote (h : Pursues answered (view page))
    : Pursues answered (view (openNote page)) := by
  unfold openNote
  split
  . next hexpire => exact (Pursues.invariant answered).expire h hexpire
  . next hexpire =>
    rcases Page.expire_eq_false hexpire with ⟨rfl, hlive⟩
    split
    . exact h
    . split
      . exact h
      . dsimp only
        rw [Page.ticket_of_live (live_setState hlive _)]
        exact pursues_await (h.state page.host.state.phase true) _ (Nat.le_refl _) nofun nofun

theorem pursues_copyText (h : Pursues answered (view page))
    : Pursues answered (view (copyText page)) := by
  unfold copyText
  split
  . next hexpire => exact (Pursues.invariant answered).expire h hexpire
  . next hexpire =>
    rcases Page.expire_eq_false hexpire with ⟨rfl, hlive⟩
    split
    . exact h
    . rw [Page.ticket_of_live hlive]
      exact pursues_await h _ (Nat.le_refl _) nofun nofun

theorem pursues_copied (h : Pursues answered (view page)) (message : String)
    : Pursues answered (view (copied ticket message page)) := by
  unfold copied
  split
  . next hvalid => exact h.valid hvalid
  . next hvalid =>
    rcases Page.valid_eq_true hvalid with ⟨rfl, -, -⟩
    exact h

theorem pursues_save (h : Pursues answered (view page)) (name : JsString) (data : Bytes)
    : Pursues answered (view (save name data page)) :=
  (h.emit (.createObjectUrl page.host.urls.next data)).emit (.save page.host.urls.next name)

theorem pursues_download (h : Pursues answered (view page)) (index : Nat)
    : Pursues answered (view (download index page)) := by
  unfold download
  split
  . next hexpire => exact (Pursues.invariant answered).expire h hexpire
  . next hexpire =>
    rcases Page.expire_eq_false hexpire with ⟨rfl, -⟩
    split
    . exact h
    . exact pursues_save h _ _

theorem pursues_downloadText (h : Pursues answered (view page))
    : Pursues answered (view (downloadText page)) := by
  unfold downloadText
  split
  . next hexpire => exact (Pursues.invariant answered).expire h hexpire
  . next hexpire =>
    rcases Page.expire_eq_false hexpire with ⟨rfl, -⟩
    split
    . exact h
    . exact pursues_save h _ _

theorem pursues_releaseUrl (h : Pursues answered (view page)) (index : Nat)
    : Pursues answered (view (releaseUrl index page)) := by
  unfold releaseUrl
  split
  . exact h
  . split
    . exact h
    . exact h.emit _

theorem pursues_settled (h : Pursues answered (view page)) (number : Nat) (result : Result)
    : Pursues answered (view (settledPage number result page)) :=
  (h.settle number).emit _

theorem pursues_settle (hcoherent : Coherent fresh (view page)) (h : Pursues answered (view page))
    (number : Nat) {result : Result}
    (hanswers : ∀ metadata, result = .metadata metadata
      → ∀ generation id token, (generation, .call number (.metadata id token)) ∈ page.trace
        → answered id metadata)
    : Pursues answered
        (view (Reader.settle number result (page.emit (.event (.settle number result))))) := by
  unfold Reader.settle
  split
  . exact h.emit _
  . next resume hsome =>
    rcases Option.bind_eq_some_iff.mp hsome with ⟨continuation, hwaiting, hresume⟩
    change Pursues answered (view (resume (settledPage number result page)))
    have hwaiting : page.host.promises.waiting number = some continuation := hwaiting
    have hsettled := pursues_settled h number result
    have hidle : ∀ {ticket : Ticket}, continuation.ticket = ticket
        → (continuation.isLoad || continuation.isOpen) = true
        → ticket.generation = page.session.generation
        → (view (settledPage number result page)).Idle :=
      fun hticket hkind hgeneration =>
        ((hticket ▸ resumed_settled hcoherent hwaiting hkind result).idle hgeneration).2
    unfold resume? at hresume
    split at hresume
    all_goals cases hresume
    . exact pursues_loadLink hsettled (hidle rfl rfl) _ _
    . apply pursues_loadMetadata hsettled
      intro hgeneration
      rcases h.asked number _ ⟨hwaiting, hgeneration⟩ with ⟨generation, token, hmem⟩
      exact hanswers _ rfl generation page.host.id token hmem
    . exact pursues_loadHeader hsettled (hidle rfl rfl) _ _
    . exact pursues_loadFailed hsettled (hidle rfl rfl) _
    . exact pursues_loadFailed hsettled (hidle rfl rfl) _
    . exact pursues_loadFailed hsettled (hidle rfl rfl) _
    . exact pursues_openAccess hsettled _
    . exact pursues_openPacket hsettled _
    . exact pursues_openContent hsettled (hidle rfl rfl) _
    . exact pursues_openFailed hsettled (hidle rfl rfl) _ _
    . exact pursues_openFailed hsettled (hidle rfl rfl) _ _
    . exact pursues_openFailed hsettled (hidle rfl rfl) _ _
    . exact pursues_copied hsettled _
    . exact pursues_copied hsettled _

end

-- Metadata that arrives answers the request that it was asked for with.
def Answers (answered : JsString → Metadata → Prop) (page : ReaderPage) (event : Event) : Prop :=
  ∀ number metadata, event = .settle number (.metadata metadata)
    → ∀ generation id token, (generation, .call number (.metadata id token)) ∈ page.trace
      → answered id metadata

section

variable {answered : JsString → Metadata → Prop} {page : ReaderPage} {fresh : Bool}

theorem pursues_step (hcoherent : Coherent fresh (view page)) (h : Pursues answered (view page))
    {event : Event} (hanswers : Answers answered page event)
    : Pursues answered (view (Reader.step page event)) := by
  have hinvariant := Pursues.invariant answered
  have hemitted : Pursues answered (view (page.emit (.event event))) := h.emit _
  unfold Reader.step handle
  cases event with
  | tick elapsed => exact hinvariant.ambient _ _ _ _ hemitted
  | timer => exact hinvariant.fire hemitted
  | urlTimer index => exact pursues_releaseUrl hemitted index
  | activity isTrusted => exact hinvariant.activity hemitted isTrusted
  | microtask index => exact hinvariant.microtask hemitted index
  | keep isTrusted => exact hinvariant.keep hemitted isTrusted
  | visibility hidden => exact hinvariant.visibility hemitted hidden
  | pagehide => exact hinvariant.leave hemitted
  | pageshow persisted => exact hinvariant.restore hemitted persisted
  | passphrase value => exact hemitted
  | load url => exact pursues_load hemitted url
  | openNote => exact pursues_openNote hemitted
  | copyText => exact pursues_copyText hemitted
  | download index => exact pursues_download hemitted index
  | downloadText => exact pursues_downloadText hemitted
  | clear => exact hinvariant.clear .manual hemitted
  | destroy => exact hinvariant.destroy hemitted
  | settle number result =>
    apply pursues_settle hcoherent h
    rintro metadata rfl
    exact hanswers number metadata rfl

theorem pursues_run (hcoherent : Coherent fresh (view page)) (h : Pursues answered (view page))
    {events : List Event} (hloads : LoadsFollowClears fresh events)
    (hanswers : Runs.Along Reader.step (Answers answered) page events)
    : Pursues answered (view (Reader.run page events)) := by
  induction events generalizing fresh page with
  | nil => exact h
  | cons event events ih =>
    apply ih (coherent_step hcoherent hloads.1) (pursues_step hcoherent h hanswers.1) hloads.2
    exact hanswers.2

theorem pursues_mount (answered : JsString → Metadata → Prop) (now : Nat)
    : Pursues answered (view (Reader.mount now)) where
  past _ _ hwaiting := by cases hwaiting
  asked _ _ hcurrent := by cases hcurrent.1
  answered _ _ _ hcurrent := by cases hcurrent.1

-- A load that waits for its header has been answered, and shows the note when that header fits.
theorem load_shows (now : Nat) {events : List Event} (hloads : LoadsFollowClears true events)
    (hanswers : Runs.Along Reader.step (Answers answered) (Reader.mount now) events)
    (hrun : Reader.run (Reader.mount now) events = page) {number : Nat} {ticket : Ticket}
    {metadata : Metadata}
    (hwaiting : page.host.promises.waiting number = some (.loadHeader ticket metadata))
    (hvalid : (page.valid options ticket).1 = true)
    : answered page.host.id metadata
        ∧ ∀ header : Shared.Header, header.id = page.host.id → metadata.remaining ≤ header.views
          → Reader.step page (.settle number (.header header))
            = Receiver.shown number metadata header page := by
  have hpursues := pursues_run (coherent_mount now) (pursues_mount answered now) hloads hanswers
  rcases coherent_run (coherent_mount now) hloads with ⟨fresh, hcoherent⟩
  rw [hrun] at hpursues hcoherent
  have hpair : page.valid options ticket = (true, (page.valid options ticket).2) := by
    rw [← hvalid]
  rcases Page.valid_eq_true hpair with ⟨-, hlive, hgeneration⟩
  have hcontroller : page.session.controller = page.session.generation := hcoherent.controller
  have hsignal : ticket.signal = ticket.generation := (hcoherent.past number _ hwaiting).2
  constructor
  . exact hpursues.answered number ticket metadata ⟨hwaiting, hgeneration⟩
  . intro header hid hviews
    apply Receiver.step_shown hwaiting hgeneration
    . rw [hsignal, hgeneration, hcontroller]
    . exact hlive
    . exact hid
    . exact hviews

end

end Web
