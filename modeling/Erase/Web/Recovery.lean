import Erase.Library.Runs
import Erase.Protocol.Opening
import Erase.Web.Tracking

/-!
A ready reader can open: the worker of its next request holds the link and the header, unless a worker
fails while they are needed.
-/

namespace Web

open Reader

-- Whether no load has started since the last clear.
def freshAfter (trace : Trace) : Bool :=
  trace.foldl (fun fresh entry => match entry.2 with
    | .event event => event.fresh fresh
    | _ => fresh) true

theorem freshAfter_append {trace more : Trace} (h : ∀ entry ∈ more, entry.2.isEvent = false)
    : freshAfter (trace ++ more) = freshAfter trace := by
  induction more using List.reverseRecOn with
  | nil => rw [List.append_nil]
  | append_singleton more entry ih =>
    have hentry := h entry (by simp)
    rw [← List.append_assoc, ← ih fun other hother => h other (by simp [hother])]
    unfold freshAfter
    rw [List.foldl_append, List.foldl_cons, List.foldl_nil]
    rcases entry with ⟨generation, entry⟩
    cases entry with
    | event event => cases hentry
    | _ => rfl

section

variable {posts : Nat → Bool} {backend : Reader.Backend} {page : ReaderPage} {fresh : Bool}

theorem tracks_settle (hcoherent : Coherent fresh (view page)) (h : Coupled (front page) backend)
    {number : Nat} {result : Result}
    (hnumber : ∀ {id request}, (id, (number, request)) ∉ backend.crypto.pending)
    (hvouches : ∀ continuation, (front page).Current number continuation
      → backend.Vouches continuation result)
    : Tracks posts (page.emit (.event (.settle number result))).trace backend
        (Reader.settle number result (page.emit (.event (.settle number result)))) := by
  have hemitted : Coupled (front (page.emit (.event (.settle number result)))) backend := h
  unfold Reader.settle
  split
  . exact hemitted.tracks
  . next resume hsome =>
    rcases Option.bind_eq_some_iff.mp hsome with ⟨continuation, hwaiting, hresume⟩
    change Tracks posts (settledPage number result page).trace backend
      (resume (settledPage number result page))
    have hwaiting : page.host.promises.waiting number = some continuation := hwaiting
    have hsettled : Coupled (front (settledPage number result page)) backend := h.settle hnumber
    have hcurrent : ∀ {ticket : Ticket}, continuation.ticket = ticket
        → ticket.generation = page.session.generation → (view page).Current number continuation :=
      fun hticket hgeneration => ⟨hwaiting, hticket ▸ hgeneration⟩
    have hresumed : ∀ {ticket : Ticket}, continuation.ticket = ticket
        → (continuation.isLoad || continuation.isOpen) = true
        → Resumed fresh (settledPage number result page) ticket :=
      fun hticket hkind => hticket ▸ resumed_settled hcoherent hwaiting hkind result
    have hphase : ∀ {ticket : Ticket}, continuation.ticket = ticket → continuation.isLoad = true
        → ticket.generation = page.session.generation → page.host.state.phase ≠ .ready :=
      fun hticket hload hgeneration =>
        hcoherent.loading number continuation (hcurrent hticket hgeneration) hload
    have hbusy : ∀ {ticket : Ticket}, continuation.ticket = ticket → continuation.isOpen = true
        → ticket.generation = page.session.generation → page.host.state.busy = true :=
      fun hticket hopen hgeneration =>
        hcoherent.opening number continuation (hcurrent hticket hgeneration) hopen
    have hfailing : ∀ {ticket : Ticket}, continuation.ticket = ticket → continuation.isLoad = true
        → ticket.generation = page.session.generation
        → (view (settledPage number result page)).Idle ∧ page.host.state.phase ≠ .ready := by
      intro ticket hticket hload hgeneration
      have hkind : (continuation.isLoad || continuation.isOpen) = true := by rw [hload, Bool.true_or]
      exact ⟨((hresumed hticket hkind).idle hgeneration).2, hphase hticket hload hgeneration⟩
    unfold resume? at hresume
    split at hresume
    all_goals cases hresume
    . exact hsettled.tracks.loadLink (hphase rfl rfl) _ _
    . exact hsettled.tracks.loadMetadata (hfailing rfl rfl) _
    . apply hsettled.loadHeader (hresumed rfl rfl) (hphase rfl rfl)
      intro hgeneration
      exact hvouches _ (hcurrent rfl hgeneration) _ _ _ rfl rfl
    . exact hsettled.tracks.loadFailed (hfailing rfl rfl) _
    . exact hsettled.tracks.loadFailed (hfailing rfl rfl) _
    . exact hsettled.tracks.loadFailed (hfailing rfl rfl) _
    . exact hsettled.tracks.openAccess (hresumed rfl rfl) _
    . exact hsettled.tracks.openPacket (hresumed rfl rfl) (hbusy rfl rfl) _
    . exact hsettled.tracks.openContent (hresumed rfl rfl) _
    . apply hsettled.accessRejected (hresumed rfl rfl)
      intro hgeneration hready
      exact h.ready ⟨hready, .inr ⟨number, _, hcurrent rfl hgeneration⟩⟩
    . exact hsettled.tracks.openRejected (hresumed rfl rfl) (hbusy rfl rfl) _
    . exact hsettled.tracks.openRejected (hresumed rfl rfl) (hbusy rfl rfl) _
    . exact hsettled.tracks.copied _
    . exact hsettled.tracks.copied _

theorem tracks_step (hcoherent : Coherent fresh (view page)) (h : Coupled (front page) backend)
    {event : Event} (hload : ∀ url, event = .load url → fresh = true)
    (hsettle : ∀ number result, event = .settle number result
      → (∀ {id request}, (id, (number, request)) ∉ backend.crypto.pending)
        ∧ ∀ continuation, (front page).Current number continuation
          → backend.Vouches continuation result)
    : Tracks posts (page.emit (.event event)).trace backend (Reader.step page event) := by
  have hemitted : Coupled (front (page.emit (.event event))) backend := h
  have htracks : Tracks posts (page.emit (.event event)).trace backend (page.emit (.event event)) :=
    hemitted.tracks
  have hinvariant := Tracks.invariant posts (page.emit (.event event)).trace backend
  unfold Reader.step handle
  cases event with
  | tick elapsed => exact hinvariant.ambient _ _ _ _ htracks
  | timer => exact hinvariant.fire htracks
  | urlTimer index => exact htracks.releaseUrl index
  | activity isTrusted => exact hinvariant.activity htracks isTrusted
  | microtask index => exact hinvariant.microtask htracks index
  | keep isTrusted => exact hinvariant.keep htracks isTrusted
  | visibility hidden => exact hinvariant.visibility htracks hidden
  | pagehide => exact hinvariant.leave htracks
  | pageshow persisted => exact hinvariant.restore htracks persisted
  | passphrase value => exact htracks
  | load url =>
    have hfresh := hload url rfl
    subst hfresh
    exact htracks.load (hcoherent.emit rfl fun _ _ _ => rfl) url
  | openNote => exact hemitted.openNote (hcoherent.emit rfl fun _ _ _ => rfl)
  | copyText => exact htracks.copyText
  | download index => exact htracks.download index
  | downloadText => exact htracks.downloadText
  | clear => exact htracks.clear .manual
  | destroy => exact hinvariant.destroy htracks
  | settle number result =>
    rcases hsettle number result rfl with ⟨hnumber, hvouches⟩
    exact tracks_settle hcoherent h hnumber hvouches

end

namespace Receiver

open Backend (solo update_solo deliver_solo)

structure Linked (receiver : Receiver) : Prop where
  coherent : Coherent (freshAfter receiver.page.trace) (view receiver.page)
  coupled : Coupled (front receiver.page) receiver.backend

-- A load comes first or follows a clear.
def LoadFollowsClear (receiver : Receiver) (event : Event) : Prop :=
  ∀ url, event = .reader (.load url) → freshAfter receiver.page.trace = true

def isFailure : Event → Bool
  | .error _ => true
  | .messageerror _ => true
  | _ => false

-- The reader is ready, and has not got a token to retrieve with.
def Needs (receiver : Receiver) : Prop :=
  receiver.page.host.state.phase = .ready
    ∧ (receiver.page.host.state.busy = false
      ∨ ∃ number ticket, (view receiver.page).Current number (.openAccess ticket))

def FailsUnneeded (receiver : Receiver) (event : Event) : Prop :=
  isFailure event = true → ¬receiver.Needs

section

variable {crypto : Crypto} {unicode : Shared.Unicode} {parseUrl : JsString → Option Shared.Url}
variable {posts : Nat → Bool} {receiver : Receiver}

theorem linked_mount (now : Nat) : (mount now).Linked where
  coherent := coherent_mount now
  coupled := {
    sane := Backend.sane_start
    issued := {
      next := Nat.zero_le _
      generation := Nat.zero_le _
      numbered := Promises.numbered_empty
      past := fun _ _ h => by cases h }
    asked := fun h => by cases h
    settled := fun h => by cases h
    apart := fun h => by cases h
    checked := fun h => by cases h
    ready := fun h => by cases h.1 }

theorem linked_react (h : receiver.Linked) {event : Web.Event}
    (hload : ∀ url, event = .load url → freshAfter receiver.page.trace = true)
    (hsettle : ∀ number result, event = .settle number result
      → (∀ {id request}, (id, (number, request)) ∉ receiver.backend.crypto.pending)
        ∧ ∀ continuation, (front receiver.page).Current number continuation
          → receiver.backend.Vouches continuation result)
    : (receiver.react posts event).Linked := by
  have hcoherent := coherent_step h.coherent hload
  have htracks : Tracks posts (receiver.page.emit (.event event)).trace receiver.backend
      (Reader.step receiver.page event) := tracks_step h.coherent h.coupled hload hsettle
  rcases htracks with ⟨more, htrace, hevents, hcoupled⟩
  have htrace : (Reader.step receiver.page event).trace
      = receiver.page.trace ++ (receiver.page.session.generation, .event event) :: more := by
    rw [htrace, Page.emit, List.append_assoc]
    rfl
  constructor
  . have hfresh : freshAfter (Reader.step receiver.page event).trace
        = event.fresh (freshAfter receiver.page.trace) := by
      rw [htrace, ← List.singleton_append, ← List.append_assoc, freshAfter_append hevents]
      unfold freshAfter
      rw [List.foldl_append]
      rfl
    change Coherent (freshAfter (Reader.step receiver.page event).trace) _
    rw [hfresh]
    exact hcoherent
  . unfold react
    dsimp only
    rw [htrace, List.drop_left]
    exact hcoupled

theorem preparing_of_needs (h : receiver.Linked) (hneeds : (front receiver.page).Needs)
    : receiver.backend.Preparing := by
  intro id number request hmem
  rcases h.coupled.asked hmem with ⟨continuation, hcurrent, hasks⟩
  rcases hneeds with ⟨hphase, hopening⟩
  have hload : continuation.isLoad = false := by
    rw [← Bool.not_eq_true]
    exact fun hload => h.coherent.loading number continuation hcurrent hload hphase
  have hopen : continuation.isOpen = true := by
    have hcrypto := hasks.isCrypto
    cases continuation with
    | loadLink ticket => cases hload
    | loadHeader ticket metadata => cases hload
    | loadMetadata ticket => cases hload
    | copyText ticket => cases hcrypto
    | openPacket ticket => cases hcrypto
    | openAccess ticket => rfl
    | openContent ticket => rfl
  rcases hopening with hrest | ⟨other, ticket, hother⟩
  . cases hrest.symm.trans (h.coherent.opening number continuation hcurrent hopen)
  . have hkind : (continuation.isLoad || continuation.isOpen) = true := by rw [hopen, Bool.or_true]
    have hnumber := h.coherent.single hcurrent hkind hother rfl
    subst hnumber
    cases Option.some_inj.mp (hcurrent.1.symm.trans hother.1)
    cases request with
    | prepare passphrase => exact ⟨passphrase, rfl⟩
    | _ => exact hasks.elim

theorem linked_receive (h : receiver.Linked) (worker : Nat) (isSupported : Bool)
    : Linked { receiver with
        backend := receiver.backend.update worker (Thread.receive parseUrl isSupported) } where
  coherent := h.coherent
  coupled := h.coupled.work (h.coupled.sane.receive parseUrl worker isSupported) rfl rfl
    (fun hpreparing => h.coupled.sane.held_receive hpreparing parseUrl worker isSupported)
    (preparing_of_needs h)

theorem linked_finish (h : receiver.Linked) (worker : Nat)
    : Linked { receiver with
        backend := receiver.backend.update worker (Thread.finish crypto unicode) } where
  coherent := h.coherent
  coupled := h.coupled.work (h.coupled.sane.finish crypto unicode worker) rfl rfl
    (fun hpreparing => h.coupled.sane.held_finish hpreparing crypto unicode worker)
    (preparing_of_needs h)

theorem linked_fail (h : receiver.Linked) (hsettled : receiver.backend.settled = [])
    (hneeds : ¬receiver.Needs) (error : Failure)
    : Linked { receiver with
        backend := receiver.backend.apply posts (receiver.backend.crypto.fail error) } where
  coherent := h.coherent
  coupled := by
    apply h.coupled.fail error hneeds
    intro number result continuation hmem
    rw [hsettled] at hmem
    cases hmem

theorem linked_resume (h : receiver.Linked) {number : Nat} {result : Result}
    {settled : List (Nat × Result)} (hsettled : receiver.backend.settled = (number, result) :: settled)
    : (react posts (.settle number result)
        { receiver with backend := { receiver.backend with settled } }).Linked := by
  have hpopped : Linked { receiver with backend := { receiver.backend with settled } } :=
    ⟨h.coherent, h.coupled.pop hsettled⟩
  have hmem : (number, result) ∈ receiver.backend.settled := by
    rw [hsettled]
    exact List.mem_cons_self
  apply linked_react hpopped
  . intro url hevent
    cases hevent
  . intro number' result' hevent
    cases hevent
    exact ⟨fun hpending => h.coupled.apart hpending hmem,
      fun continuation hcurrent => (h.coupled.checked hmem hcurrent).2⟩

theorem linked_reader (h : receiver.Linked) {event : Web.Event}
    (hload : ∀ url, event = .load url → freshAfter receiver.page.trace = true)
    (hforeign : receiver.isForeign event = false) : (receiver.react posts event).Linked := by
  apply linked_react h hload
  rintro number result rfl
  have hwaiting : ∀ continuation, receiver.page.host.promises.waiting number = some continuation
      → continuation.isCrypto = false := by
    intro continuation hwaiting
    unfold isForeign at hforeign
    dsimp only at hforeign
    rwa [hwaiting, Option.any_some] at hforeign
  constructor
  . intro id request hmem
    rcases h.coupled.asked hmem with ⟨continuation, hcurrent, hasks⟩
    cases (hwaiting continuation hcurrent.1).symm.trans hasks.isCrypto
  . intro continuation hcurrent ticket metadata header hcontinuation _
    have hcrypto := hwaiting continuation hcurrent.1
    rw [hcontinuation] at hcrypto
    cases hcrypto

theorem linked_step (h : receiver.Linked) {event : Event} (hload : receiver.LoadFollowsClear event)
    (hfails : receiver.FailsUnneeded event)
    : (step crypto unicode parseUrl posts receiver event).Linked := by
  unfold step
  cases event with
  | reader event =>
    dsimp only
    split
    . exact h
    . next hready =>
      simp only [Bool.or_eq_true, not_or, Bool.not_eq_true] at hready
      exact linked_reader h (fun url hevent => hload url (by rw [hevent])) hready.2
  | resume =>
    dsimp only
    split
    . exact h
    . next hsettled => exact linked_resume h hsettled
  | receive worker isSupported => exact linked_receive h worker isSupported
  | finish worker => exact linked_finish h worker
  | deliver worker =>
    dsimp only
    split
    . exact h
    . next hsettled => exact ⟨h.coherent, h.coupled.deliver (not_not.mp hsettled) worker⟩
  | error worker =>
    dsimp only
    split
    . exact h
    . next hready =>
      simp only [ne_eq, Bool.or_eq_true, decide_eq_true_eq, not_or, not_not] at hready
      exact linked_fail h hready.1 (hfails rfl) _
  | messageerror worker =>
    dsimp only
    split
    . exact h
    . next hready =>
      simp only [ne_eq, Bool.or_eq_true, decide_eq_true_eq, not_or, not_not] at hready
      exact linked_fail h hready.1 (hfails rfl) _

theorem linked_run (now : Nat) {events : List Event}
    (hloads : Runs.Along (step crypto unicode parseUrl posts) LoadFollowsClear (mount now) events)
    (hfails : Runs.Along (step crypto unicode parseUrl posts) FailsUnneeded (mount now) events)
    : (run crypto unicode parseUrl posts (mount now) events).Linked :=
  Runs.invariant (fun h hevent => linked_step h hevent.1 hevent.2) (linked_mount now)
    (hloads.and hfails)

theorem react_eq {event : Web.Event} {more : Trace}
    (htrace : (Reader.step receiver.page event).trace = receiver.page.trace ++ more)
    : receiver.react posts event = {
        page := Reader.step receiver.page event
        backend := more.foldl (Backend.replay posts) receiver.backend } := by
  unfold react
  dsimp only
  rw [htrace, List.drop_left]

end

-- The next opening, with a worker that answers it.
def openEvents (worker : Nat) (passphrase : JsString) : List Event := [
  .reader (.passphrase passphrase),
  .reader .openNote,
  .receive worker true,
  .finish worker,
  .deliver worker,
  .resume]

section

variable (crypto : Crypto) (unicode : Shared.Unicode) (parseUrl : JsString → Option Shared.Url)
  (posts : Nat → Bool)

-- The worker of the next request holds the link of the reader and the header of its metadata, with
-- which a passphrase that fits gets as far as the retrieval.
def CanOpen (receiver : Receiver) : Prop :=
  ∃ worker link metadata,
    receiver.backend.crypto.worker = some worker
    ∧ (receiver.backend.threads worker).link = some link
    ∧ link.id = receiver.page.host.id
    ∧ receiver.page.host.metadata = some metadata
    ∧ (receiver.backend.threads worker).headerBase64 = metadata.header
    ∧ ∀ passphrase prepared,
      Shared.prepareOpen crypto metadata.header link.secret link.id passphrase = .ok prepared
        → receiver.backend.settled = [] → receiver.page.Live
        → posts receiver.page.host.promises.next = true
        → ∃ earlier number,
          (run crypto unicode parseUrl posts receiver (openEvents worker passphrase)).page.trace
            = earlier ++ [(receiver.page.session.generation,
                .call number (.openNote receiver.page.host.id prepared.readToken))]

end

section

variable {crypto : Crypto} {unicode : Shared.Unicode} {parseUrl : JsString → Option Shared.Url}
variable {posts : Nat → Bool} {receiver : Receiver} {thread : Thread} {id : Nat} {passphrase : JsString}
variable {link : Shared.ShareLink} {prepared : Shared.PreparedOpen}

theorem receive_prepare (hquiet : thread.Quiet) (hlink : thread.link = some link)
    (htext : thread.headerBase64 ≠ [])
    : Thread.receive parseUrl true { thread with inbox := thread.inbox ++ [(id, .prepare passphrase)] }
        = { thread with prepared := none, running := some (id, .prepare passphrase) } := by
  unfold Thread.receive Thread.onmessage
  simp [hquiet.inbox, hquiet.running, hlink, htext]

theorem finish_prepare (hquiet : thread.Quiet) (hlink : thread.link = some link)
    (hprepared : Shared.prepareOpen crypto thread.headerBase64 link.secret link.id passphrase
      = .ok prepared)
    : Thread.finish crypto unicode
          { thread with prepared := none, running := some (id, .prepare passphrase) }
        = { thread with
          prepared := some prepared
          outbox := [(id, .ok (.access prepared.readToken))] } := by
  unfold Thread.finish Thread.finishPrepare
  simp [hquiet.outbox, hquiet.running, hlink, hprepared, Thread.post]

theorem update_update (worker : Nat) (f g : Thread → Thread) (backend : Reader.Backend)
    : (backend.update worker f).update worker g = backend.update worker (g ∘ f) := by
  unfold Backend.update
  simp [Function.update_idem]

theorem settled_prepare {backend : Reader.Backend} {worker number : Nat}
    (hworker : backend.crypto.worker = some worker) (hquiet : (backend.threads worker).Quiet)
    (hlink : (backend.threads worker).link = some link)
    (htext : (backend.threads worker).headerBase64 ≠ [])
    (hprepared : Shared.prepareOpen crypto (backend.threads worker).headerBase64 link.secret link.id
      passphrase = .ok prepared)
    (hpending : backend.crypto.pending = []) (hposts : posts number = true)
    : let asked := backend.apply posts
        (backend.crypto.run (number, .prepare passphrase) (posts number))
      asked.settled = backend.settled
        ∧ (((asked.update worker (Thread.receive parseUrl true)).update worker
              (Thread.finish crypto unicode)).deliver posts worker).settled
          = backend.settled ++ [(number, .access prepared.readToken)] := by
  have hnext : backend.next = worker := by
    unfold Backend.next
    rw [hworker, Option.getD_some]
  intro asked
  have hasked : asked = _ := Backend.apply_run_posted hposts hpending
  rw [hnext] at hasked
  constructor
  . rw [hasked]
    rfl
  . have hserved : (asked.update worker (Thread.receive parseUrl true)).update worker
          (Thread.finish crypto unicode)
        = (backend.update worker fun thread => { thread with
            prepared := some prepared
            outbox := [(backend.crypto.sequence + 1, .ok (.access prepared.readToken))] }).withCrypto {
              worker := some worker
              created := backend.created
              sequence := backend.crypto.sequence + 1
              pending := [(backend.crypto.sequence + 1, (number, .prepare passphrase))] }
            backend.settled := by
      rw [hasked, update_update]
      unfold Backend.withCrypto Backend.update
      simp only [Function.update_self, Function.update_idem, Function.comp_apply]
      rw [receive_prepare hquiet hlink htext, finish_prepare hquiet hlink hprepared]
    rw [hserved, Backend.deliver_settled posts worker _
      (by rw [Backend.threads_withCrypto, Backend.threads_update, if_pos rfl]; rfl) List.lookup_cons_self]
    rfl

theorem step_reader {receiver : Receiver} (hsettled : receiver.backend.settled = [])
    {event : Web.Event} (hforeign : receiver.isForeign event = false)
    : step crypto unicode parseUrl posts receiver (.reader event) = receiver.react posts event :=
  if_neg (by simp [hsettled, hforeign])

theorem step_deliver {receiver : Receiver} (hsettled : receiver.backend.settled = []) (worker : Nat)
    : step crypto unicode parseUrl posts receiver (.deliver worker)
        = { receiver with backend := receiver.backend.deliver posts worker } :=
  if_neg (by simp [hsettled])

theorem step_passphrase {receiver : Receiver} (hsettled : receiver.backend.settled = [])
    (passphrase : JsString)
    : step crypto unicode parseUrl posts receiver (.reader (.passphrase passphrase)) = {
        page := Reader.step receiver.page (.passphrase passphrase), backend := receiver.backend } := by
  rw [step_reader hsettled rfl, react_eq rfl]
  rfl

theorem step_openNote {receiver : Receiver} (hsettled : receiver.backend.settled = [])
    (hbusy : receiver.page.host.state.busy = false) (hphase : receiver.page.host.state.phase = .ready)
    (hid : receiver.page.host.id ≠ []) (hmetadata : receiver.page.host.metadata ≠ none)
    (hgiven : receiver.page.host.state.required = true → receiver.page.host.state.passphrase ≠ [])
    (hlive : receiver.page.Live)
    : step crypto unicode parseUrl posts receiver (.reader .openNote) = {
        page := await (.prepare receiver.page.host.state.passphrase)
          (.openAccess ⟨receiver.page.session.generation, receiver.page.session.controller⟩)
          (setState (fun state => { state with
            busy := true, error := "", status := "Deriving and verifying access locally…" })
            (receiver.page.emit (.event .openNote)))
        backend := receiver.backend.apply posts (receiver.backend.crypto.run
          (receiver.page.host.promises.next, .prepare receiver.page.host.state.passphrase)
          (posts receiver.page.host.promises.next)) } := by
  have hstep : Reader.step receiver.page .openNote = _ :=
    @openNote_eq (receiver.page.emit (.event .openNote)) hbusy hphase hid hmetadata hgiven hlive
  have htrace : (Reader.step receiver.page .openNote).trace = receiver.page.trace ++ [
      (receiver.page.session.generation, .event .openNote),
      (receiver.page.session.generation, .call receiver.page.host.promises.next
        (.prepare receiver.page.host.state.passphrase))] := by
    rw [hstep]
    exact List.append_assoc _ _ _
  rw [step_reader hsettled rfl, react_eq htrace, hstep]
  rfl

theorem step_resume_access {receiver : Receiver} {number : Nat} {readToken : JsString}
    {settled : List (Nat × Result)} {ticket : Ticket}
    (hsettled : receiver.backend.settled = (number, .access readToken) :: settled)
    (hwaiting : receiver.page.host.promises.waiting number = some (.openAccess ticket))
    (hgeneration : ticket.generation = receiver.page.session.generation)
    (hsignal : ticket.signal = receiver.page.session.controller) (hlive : receiver.page.Live)
    : ∃ earlier number, (step crypto unicode parseUrl posts receiver .resume).page.trace
        = earlier ++ [(receiver.page.session.generation,
            .call number (.openNote receiver.page.host.id readToken))] := by
  have hstep : Reader.step receiver.page (.settle number (.access readToken)) = _ :=
    step_settle hwaiting rfl
  have hopen := @openAccess_eq (settledPage number (.access readToken) receiver.page) ticket
    hgeneration hsignal hlive readToken
  unfold step
  rw [hsettled]
  unfold react
  dsimp only
  rw [hstep, hopen]
  exact ⟨_, _, rfl⟩

theorem opens {receiver : Receiver} {worker : Nat}
    (hworker : receiver.backend.crypto.worker = some worker)
    (hquiet : (receiver.backend.threads worker).Quiet)
    (hlink : (receiver.backend.threads worker).link = some link)
    (htext : (receiver.backend.threads worker).headerBase64 ≠ [])
    (hpending : receiver.backend.crypto.pending = []) (hsettled : receiver.backend.settled = [])
    (hbusy : receiver.page.host.state.busy = false) (hphase : receiver.page.host.state.phase = .ready)
    (hid : receiver.page.host.id ≠ []) (hmetadata : receiver.page.host.metadata ≠ none)
    (hlive : receiver.page.Live)
    (hprepared : Shared.prepareOpen crypto (receiver.backend.threads worker).headerBase64 link.secret
      link.id passphrase = .ok prepared)
    (hgiven : receiver.page.host.state.required = true → passphrase ≠ [])
    (hposts : posts receiver.page.host.promises.next = true)
    : ∃ earlier number,
      (run crypto unicode parseUrl posts receiver (openEvents worker passphrase)).page.trace
        = earlier ++ [(receiver.page.session.generation,
            .call number (.openNote receiver.page.host.id prepared.readToken))] := by
  rcases @settled_prepare crypto unicode parseUrl posts passphrase link prepared receiver.backend worker
    receiver.page.host.promises.next hworker hquiet hlink htext hprepared hpending hposts
    with ⟨hasked, hanswered⟩
  rw [hsettled] at hasked hanswered
  let typed : Receiver := {
    page := Reader.step receiver.page (.passphrase passphrase), backend := receiver.backend }
  have htyped : typed.page.Live := by
    unfold Page.Live at hlive ⊢
    exact hlive
  have hopened : step crypto unicode parseUrl posts typed (.reader .openNote) = _ :=
    step_openNote hsettled hbusy hphase hid hmetadata hgiven hlive
  unfold run openEvents
  rw [List.foldl_cons, List.foldl_cons, List.foldl_cons, List.foldl_cons, List.foldl_cons,
    List.foldl_cons, List.foldl_nil, step_passphrase hsettled, hopened, step_deliver]
  . apply step_resume_access hanswered
    . exact Promises.waiting_suspend.mpr (.inl ⟨rfl, rfl⟩)
    . rfl
    . rfl
    . unfold Page.Live at htyped ⊢
      exact htyped
  . exact hasked

theorem canOpen (h : receiver.Linked) (hphase : receiver.page.host.state.phase = .ready)
    (hbusy : receiver.page.host.state.busy = false)
    : CanOpen crypto unicode parseUrl posts receiver := by
  rcases h.coupled.ready ⟨hphase, .inl hbusy⟩
    with ⟨link, metadata, header, hheld, hmetadata, hid, hdecoded, hheader, hrequired⟩
  rcases Option.bind_eq_some_iff.mp hheld with ⟨worker, hworker, hlinked⟩
  rcases Option.map_eq_some_iff.mp hlinked with ⟨held, hlink, heq⟩
  rcases Prod.mk.inj heq with ⟨rfl, htext⟩
  rcases Protocol.ne_nil_of_decodeHeader hdecoded with ⟨hne, hneId⟩
  refine ⟨worker, held, metadata, hworker, hlink, hid, hmetadata, htext, ?_⟩
  intro passphrase prepared hprepared hsettled hlive hposts
  have hpending := h.coupled.pending_of_idle (idle_of_view (h.coherent.idle_of_ready hphase hbusy))
  apply opens hworker (h.coupled.sane.quiet hpending hworker) hlink
  . rw [htext]
    exact hne
  . exact hpending
  . exact hsettled
  . exact hbusy
  . exact hphase
  . have hfront : receiver.page.host.id = held.id := hid.symm
    rw [hfront, ← hheader]
    exact hneId
  . have hfront : receiver.page.host.metadata = some metadata := hmetadata
    rw [hfront]
    simp
  . exact hlive
  . rw [htext]
    exact hprepared
  . intro hgiven
    apply Protocol.ne_nil_of_prepareOpen hprepared hdecoded
    have hfront : receiver.page.host.state.required = decide (header.kdf = .argon2id) := hrequired
    rw [hfront] at hgiven
    exact of_decide_eq_true hgiven
  . exact hposts

-- In a run whose workers only fail when nothing depends on them, a ready reader can open.
theorem ready_canOpen (now : Nat) {events : List Event}
    (hloads : Runs.Along (step crypto unicode parseUrl posts) LoadFollowsClear (mount now) events)
    (hfails : Runs.Along (step crypto unicode parseUrl posts) FailsUnneeded (mount now) events)
    : let receiver := run crypto unicode parseUrl posts (mount now) events
      receiver.page.host.state.phase = .ready → receiver.page.host.state.busy = false
        → CanOpen crypto unicode parseUrl posts receiver :=
  fun hphase hbusy => canOpen (linked_run now hloads hfails) hphase hbusy

-- A load that an honest service answers.
def loadEvents (url : JsString) (metadata : Metadata) : List Event := [
  .reader (.load url),
  .receive 0 true,
  .finish 0,
  .deliver 0,
  .resume,
  .reader (.settle 1 (.metadata metadata)),
  .receive 0 true,
  .deliver 0,
  .resume]

theorem step_receive_solo (page : ReaderPage) (worker : CryptoWorker (Nat × Request)) (thread : Thread)
    (settled : List (Nat × Result))
    : step crypto unicode parseUrl posts ⟨page, solo worker thread settled⟩ (.receive 0 true)
        = ⟨page, solo worker (thread.receive parseUrl true) settled⟩ := by
  unfold step
  dsimp only
  rw [update_solo]

theorem step_finish_solo (page : ReaderPage) (worker : CryptoWorker (Nat × Request)) (thread : Thread)
    (settled : List (Nat × Result))
    : step crypto unicode parseUrl posts ⟨page, solo worker thread settled⟩ (.finish 0)
        = ⟨page, solo worker (thread.finish crypto unicode) settled⟩ := by
  unfold step
  dsimp only
  rw [update_solo]

theorem step_deliver_solo (page : ReaderPage) (worker : CryptoWorker (Nat × Request)) {thread : Thread}
    {id : Nat} {result : Except String Result} (houtbox : thread.outbox = [(id, result)])
    : step crypto unicode parseUrl posts ⟨page, solo worker thread []⟩ (.deliver 0) = {
        page := page
        backend := (solo worker { thread with outbox := [] } []).apply posts
          (worker.onmessage id result) } := by
  rw [step_deliver rfl, deliver_solo worker houtbox]
  rfl

theorem step_resume_solo {page : ReaderPage} (worker : CryptoWorker (Nat × Request)) (thread : Thread)
    {number : Nat} {result : Result} {more : Trace}
    (htrace : (Reader.step page (.settle number result)).trace = page.trace ++ more)
    : step crypto unicode parseUrl posts ⟨page, solo worker thread [(number, result)]⟩ .resume = {
        page := Reader.step page (.settle number result)
        backend := more.foldl (Backend.replay posts) (solo worker thread []) } := by
  change react posts (.settle number result) ⟨page, solo worker thread []⟩ = _
  exact react_eq htrace

theorem step_reader_solo {page : ReaderPage} (worker : CryptoWorker (Nat × Request)) (thread : Thread)
    {event : Web.Event} {more : Trace}
    (hforeign : isForeign ⟨page, solo worker thread []⟩ event = false)
    (htrace : (Reader.step page event).trace = page.trace ++ more)
    : step crypto unicode parseUrl posts ⟨page, solo worker thread []⟩ (.reader event) = {
        page := Reader.step page event
        backend := more.foldl (Backend.replay posts) (solo worker thread []) } := by
  rw [step_reader rfl hforeign, react_eq htrace]

-- The page of such a load when its link, its metadata and its header arrive.
def linking (url : JsString) : ReaderPage := Reader.step (Reader.mount 0) (.load url)

def fetching (url token : JsString) (link : Shared.ShareLink) : ReaderPage :=
  Reader.step (linking url) (.settle 0 (.link link.id token))

def inspecting (url token : JsString) (link : Shared.ShareLink) (metadata : Metadata) : ReaderPage :=
  Reader.step (fetching url token link) (.settle 1 (.metadata metadata))

theorem step_load (url : JsString)
    : step crypto unicode parseUrl (fun _ => true) (mount 0) (.reader (.load url)) = {
        page := linking url
        backend := solo { worker := some 0, created := 1, sequence := 1, pending := [(1, (0, .load url))] }
          { Thread.new with inbox := [(1, .load url)] } [] } := rfl

-- A page whose load waits for a promise in its first generation.
structure Underway (number : Nat) (continuation : Continuation) (page : ReaderPage) : Prop where
  waiting : page.host.promises.waiting number = some continuation
  next : page.host.promises.next = number + 1
  generation : page.session.generation = 0
  controller : page.session.controller = 0
  live : page.Live
  idle : page.host.state.busy = false

section

variable {page : ReaderPage} {number : Nat} {continuation next : Continuation} {f : Reader → Reader}

theorem Underway.next_modify (h : Underway number continuation page)
    (hpromises : ∀ reader, (f reader).promises = reader.promises) (result : Result)
    : ((settledPage number result page).modify f).host.promises.next = number + 1 :=
  (congrArg Promises.next (hpromises _)).trans h.next

theorem Underway.await (h : Underway number continuation page) (result : Result) (request : Request)
    (hpromises : ∀ reader, (f reader).promises = reader.promises)
    (hstate : ∀ reader, (f reader).state = reader.state)
    : Underway (number + 1) next (await request next ((settledPage number result page).modify f)) where
  waiting := Promises.waiting_suspend.mpr (.inl ⟨(h.next_modify hpromises result).symm, rfl⟩)
  next := congrArg (· + 1) (h.next_modify hpromises result)
  generation := h.generation
  controller := h.controller
  live := by
    have hlive := h.live
    unfold Page.Live at hlive ⊢
    exact hlive
  idle := (congrArg ReaderState.busy (hstate _)).trans h.idle

theorem Underway.trace (h : Underway number continuation page) (result : Result) (request : Request)
    (hpromises : ∀ reader, (f reader).promises = reader.promises)
    : (Reader.await request next ((settledPage number result page).modify f)).trace = page.trace ++ [
        (0, .event (.settle number result)),
        (0, .call (number + 1) request)] := by
  rw [← h.next_modify hpromises result, ← h.generation]
  exact List.append_assoc _ _ _

theorem Underway.loadLink (h : Underway number (.loadLink ⟨0, 0⟩) page) (id token : JsString)
    : Reader.step page (.settle number (.link id token))
        = Reader.await (.metadata id token) (.loadMetadata ⟨0, 0⟩)
            ((settledPage number (.link id token) page).modify fun reader => { reader with id }) := by
  rw [step_settle h.waiting rfl]
  exact @loadLink_eq (settledPage number (.link id token) page) _ h.generation.symm h.controller.symm
    h.live id token

theorem Underway.loadMetadata (h : Underway number (.loadMetadata ⟨0, 0⟩) page) (metadata : Metadata)
    : Reader.step page (.settle number (.metadata metadata))
        = Reader.await (.inspect metadata.header) (.loadHeader ⟨0, 0⟩ metadata)
            ((settledPage number (.metadata metadata) page).modify fun reader => reader) := by
  rw [step_settle h.waiting rfl]
  exact @loadMetadata_eq (settledPage number (.metadata metadata) page) _ h.generation.symm
    h.controller.symm h.live metadata

end

theorem underway_linking (url : JsString) : Underway 0 (.loadLink ⟨0, 0⟩) (linking url) where
  waiting := rfl
  next := rfl
  generation := rfl
  controller := rfl
  live := by
    have hdeadline : (linking url).session.deadline = (linking url).now + 300000 := rfl
    unfold Page.Live
    omega
  idle := rfl

theorem fetching_eq (url token : JsString) (link : Shared.ShareLink)
    : fetching url token link = await (.metadata link.id token) (.loadMetadata ⟨0, 0⟩)
        ((settledPage 0 (.link link.id token) (linking url)).modify fun reader =>
          { reader with id := link.id }) :=
  (underway_linking url).loadLink link.id token

theorem underway_fetching (url token : JsString) (link : Shared.ShareLink)
    : Underway 1 (.loadMetadata ⟨0, 0⟩) (fetching url token link) := by
  rw [fetching_eq]
  apply (underway_linking url).await
  . exact fun _ => rfl
  . exact fun _ => rfl

theorem inspecting_eq (url token : JsString) (link : Shared.ShareLink) (metadata : Metadata)
    : inspecting url token link metadata = await (.inspect metadata.header) (.loadHeader ⟨0, 0⟩ metadata)
        ((settledPage 1 (.metadata metadata) (fetching url token link)).modify fun reader => reader) :=
  (underway_fetching url token link).loadMetadata metadata

theorem underway_inspecting (url token : JsString) (link : Shared.ShareLink) (metadata : Metadata)
    : Underway 2 (.loadHeader ⟨0, 0⟩ metadata) (inspecting url token link metadata) := by
  rw [inspecting_eq]
  apply (underway_fetching url token link).await
  . exact fun _ => rfl
  . exact fun _ => rfl

theorem id_inspecting (url token : JsString) (link : Shared.ShareLink) (metadata : Metadata)
    : (inspecting url token link metadata).host.id = link.id := by
  rw [inspecting_eq, fetching_eq]
  rfl

theorem step_link (url token : JsString) (link : Shared.ShareLink)
    : step crypto unicode parseUrl (fun _ => true) {
          page := linking url
          backend := solo { worker := some 0, created := 1, sequence := 1, pending := [] }
            { Thread.new with link := some link } [(0, .link link.id token)] } .resume = {
        page := fetching url token link
        backend := solo { worker := some 0, created := 1, sequence := 1, pending := [] }
          { Thread.new with link := some link } [] } := by
  have htrace : (Reader.step (linking url) (.settle 0 (.link link.id token))).trace
      = (linking url).trace ++ [
        (0, .event (.settle 0 (.link link.id token))),
        (0, .call 1 (.metadata link.id token))] := by
    change (fetching url token link).trace = _
    rw [fetching_eq]
    exact (underway_linking url).trace _ _ fun _ => rfl
  rw [step_resume_solo _ _ htrace]
  rfl

theorem step_metadata (url token : JsString) (link : Shared.ShareLink) (metadata : Metadata)
    : step crypto unicode parseUrl (fun _ => true) {
          page := fetching url token link
          backend := solo { worker := some 0, created := 1, sequence := 1, pending := [] }
            { Thread.new with link := some link } [] } (.reader (.settle 1 (.metadata metadata))) = {
        page := inspecting url token link metadata
        backend := solo {
            worker := some 0
            created := 1
            sequence := 2
            pending := [(2, (2, .inspect metadata.header))] }
          { Thread.new with link := some link, inbox := [(2, .inspect metadata.header)] } [] } := by
  have htrace : (Reader.step (fetching url token link) (.settle 1 (.metadata metadata))).trace
      = (fetching url token link).trace ++ [
        (0, .event (.settle 1 (.metadata metadata))),
        (0, .call 2 (.inspect metadata.header))] := by
    change (inspecting url token link metadata).trace = _
    rw [inspecting_eq]
    exact (underway_fetching url token link).trace _ _ fun _ => rfl
  have hforeign : isForeign ⟨fetching url token link,
      solo { worker := some 0, created := 1, sequence := 1, pending := [] }
        { Thread.new with link := some link } []⟩ (.settle 1 (.metadata metadata)) = false := by
    unfold isForeign
    dsimp only
    rw [(underway_fetching url token link).waiting]
    rfl
  rw [step_reader_solo _ _ hforeign htrace]
  have hposted := @Backend.run_solo _ _ _ _ _ (fun _ => true)
    { worker := some 0, created := 1, sequence := 1, pending := [] } rfl 2 rfl (.inspect metadata.header)
    { Thread.new with link := some link } []
  exact congrArg (Receiver.mk _) hposted

-- The page that shows the note.
def shown (number : Nat) (metadata : Metadata) (header : Shared.Header) (page : ReaderPage)
    : ReaderPage :=
  (setState (fun state => { state with
      phase := .ready
      required := header.kdf = .argon2id
      expiresAt := metadata.expiresAt
      remaining := metadata.remaining
      status := "Encrypted package available." })
    ((settledPage number (.header header) page).modify fun reader =>
      { reader with metadata := some metadata })).emit (.loaded page.host.id)

theorem step_shown {page : ReaderPage} {number : Nat} {ticket : Ticket} {metadata : Metadata}
    {header : Shared.Header}
    (hwaiting : page.host.promises.waiting number = some (.loadHeader ticket metadata))
    (hgeneration : ticket.generation = page.session.generation)
    (hsignal : ticket.signal = page.session.controller) (hlive : page.Live)
    (hid : header.id = page.host.id) (hviews : metadata.remaining ≤ header.views)
    : Reader.step page (.settle number (.header header)) = shown number metadata header page := by
  rw [step_settle hwaiting rfl]
  exact @loadHeader_eq (settledPage number (.header header) page) ticket metadata header hgeneration
    hsignal hlive hid hviews

theorem trace_shown (number : Nat) (metadata : Metadata) (header : Shared.Header) (page : ReaderPage)
    : (shown number metadata header page).trace = page.trace ++ [
        (page.session.generation, .event (.settle number (.header header))),
        (page.session.generation, .loaded page.host.id)] :=
  List.append_assoc _ _ _

theorem phase_shown (number : Nat) (metadata : Metadata) (header : Shared.Header) (page : ReaderPage)
    : (shown number metadata header page).host.state.phase = .ready := rfl

theorem busy_shown (number : Nat) (metadata : Metadata) (header : Shared.Header) (page : ReaderPage)
    : (shown number metadata header page).host.state.busy = page.host.state.busy := rfl

theorem step_header {metadata : Metadata} {header : Shared.Header} (hid : header.id = link.id)
    (hviews : metadata.remaining ≤ header.views) (url token : JsString) (thread : Thread)
    : step crypto unicode parseUrl (fun _ => true) {
          page := inspecting url token link metadata
          backend := solo { worker := some 0, created := 1, sequence := 2, pending := [] } thread
            [(2, .header header)] } .resume = {
        page := shown 2 metadata header (inspecting url token link metadata)
        backend := solo { worker := some 0, created := 1, sequence := 2, pending := [] } thread [] } := by
  have h := underway_inspecting url token link metadata
  have hshown := step_shown h.waiting h.generation.symm h.controller.symm h.live
    (hid.trans (id_inspecting url token link metadata).symm) hviews
  rw [step_resume_solo _ _ ((congrArg Page.trace hshown).trans (trace_shown _ _ _ _)), hshown,
    List.foldl_cons, List.foldl_cons, List.foldl_nil]
  rfl

theorem run_loadEvents {url token : JsString} {metadata : Metadata} {header : Shared.Header}
    (hlink : Shared.parseShareLink parseUrl url = .ok link)
    (htoken : Shared.derivePeek crypto link.secret link.id = .ok token)
    (hheader : Shared.decodeHeader metadata.header = .ok header) (hid : header.id = link.id)
    (hviews : metadata.remaining ≤ header.views)
    : run crypto unicode parseUrl (fun _ => true) (mount 0) (loadEvents url metadata) = {
        page := shown 2 metadata header (inspecting url token link metadata)
        backend := solo { worker := some 0, created := 1, sequence := 2, pending := [] }
          { Thread.new with link := some link, headerBase64 := metadata.header } [] } := by
  have hloading : Thread.receive parseUrl true { Thread.new with inbox := [(1, .load url)] }
      = { Thread.new with link := some link, running := some (1, .load url) } := by
    simp [Thread.receive, Thread.onmessage, Thread.new, hlink]
  have hloaded : Thread.finish crypto unicode
        { Thread.new with link := some link, running := some (1, .load url) }
      = { Thread.new with link := some link, outbox := [(1, .ok (.link link.id token))] } := by
    simp [Thread.finish, Thread.finishLoad, Thread.new, htoken, Thread.answer, Thread.post]
  have hinspected : Thread.receive parseUrl true
        { Thread.new with link := some link, inbox := [(2, .inspect metadata.header)] }
      = { Thread.new with
        link := some link
        headerBase64 := metadata.header
        outbox := [(2, .ok (.header header))] } := by
    simp [Thread.receive, Thread.onmessage, Thread.new, hheader, hid, Thread.post]
  have hposted : (solo { worker := some 0, created := 1, sequence := 1, pending := [(1, (0, .load url))] }
        { Thread.new with link := some link, outbox := [] } []).apply (fun _ => true)
          (CryptoWorker.onmessage 1 (.ok (.link link.id token))
            { worker := some 0, created := 1, sequence := 1, pending := [(1, (0, .load url))] })
      = solo { worker := some 0, created := 1, sequence := 1, pending := [] }
          { Thread.new with link := some link } [(0, .link link.id token)] := rfl
  unfold run loadEvents
  rw [List.foldl_cons, step_load, List.foldl_cons, step_receive_solo, hloading, List.foldl_cons,
    step_finish_solo, hloaded, List.foldl_cons, step_deliver_solo _ _ rfl, hposted, List.foldl_cons,
    step_link, List.foldl_cons, step_metadata, List.foldl_cons, step_receive_solo, hinspected,
    List.foldl_cons, step_deliver_solo _ _ rfl, List.foldl_cons, List.foldl_nil]
  exact step_header hid hviews url token _

theorem along_loadEvents (url : JsString) (metadata : Metadata)
    : Runs.Along (step crypto unicode parseUrl posts) LoadFollowsClear (mount 0)
        (loadEvents url metadata) := by
  refine ⟨fun _ _ => rfl, Runs.along_of_forall ?_⟩
  intro event hevent receiver url hload
  subst hload
  simp at hevent

end

def exampleHeader : Protocol.HeaderValue where
  id := Protocol.exampleRandomness.id
  ttl := ⟨3600, by decide⟩
  views := ⟨3, by decide⟩
  peek := ⟨List.replicate 64 97, by decide⟩
  read := ⟨List.replicate 64 98, by decide⟩
  revoke := ⟨List.replicate 64 99, by decide⟩
  salt := none
  nonce := .replicate 24 5

def exampleLink : Shared.ShareLink where
  id := Shared.toBase64Url exampleHeader.id
  secret := Shared.toBase64Url Protocol.exampleRandomness.master

def exampleUrl : Shared.Url where
  protocol := JsString.ofString "https:"
  username := []
  password := []
  pathname := JsString.ofString "/view"
  search := []
  hash := Shared.shareHash exampleLink.id exampleLink.secret

def exampleMetadata : Metadata where
  header := Shared.toBase64Url exampleHeader.bytes
  expiresAt := 3600
  remaining := 2

def exampleLoad : List Event := loadEvents [35] exampleMetadata

def exampleReceiver (events : List Event) : Receiver :=
  run Crypto.plain Shared.Unicode.ascii (fun _ => some exampleUrl) (fun _ => true) (mount 0) events

theorem run_exampleLoad
    : ∃ token, exampleReceiver exampleLoad = {
        page := shown 2 exampleMetadata exampleHeader.toShared
          (inspecting [35] token exampleLink exampleMetadata)
        backend := solo { worker := some 0, created := 1, sequence := 2, pending := [] }
          { Thread.new with link := some exampleLink, headerBase64 := exampleMetadata.header } [] } :=
  ⟨_, run_loadEvents (Shared.parseShareLink_eq_ok rfl (by decide) rfl)
    (Protocol.derivePeek_eq_ok Protocol.exampleRandomness)
    (Protocol.decodeHeader_eq_ok_iff.mpr ⟨exampleHeader, rfl, rfl⟩) rfl (by decide)⟩

theorem ready_canOpen_exampleLoad
    : CanOpen Crypto.plain Shared.Unicode.ascii (fun _ => some exampleUrl) (fun _ => true)
        (exampleReceiver exampleLoad) := by
  have hfails : Runs.Along
      (step Crypto.plain Shared.Unicode.ascii (fun _ => some exampleUrl) (fun _ => true)) FailsUnneeded
      (mount 0) exampleLoad := by
    apply Runs.along_of_forall
    intro event hevent receiver hfailure
    simp only [exampleLoad, loadEvents, List.mem_cons, List.not_mem_nil, or_false] at hevent
    rcases hevent with rfl | rfl | rfl | rfl | rfl | rfl | rfl | rfl | rfl <;> cases hfailure
  rcases run_exampleLoad with ⟨token, hrun⟩
  have hphase : (exampleReceiver exampleLoad).page.host.state.phase = .ready := by
    rw [hrun]
    apply phase_shown
  have hbusy : (exampleReceiver exampleLoad).page.host.state.busy = false := by
    rw [hrun]
    apply (busy_shown _ _ _ _).trans
    exact (underway_inspecting _ _ _ _).idle
  unfold exampleReceiver at hphase hbusy ⊢
  exact ready_canOpen 0 (along_loadEvents _ _) hfails hphase hbusy

theorem not_ready_canOpen
    : ¬∀ events, Runs.Along
          (step Crypto.plain Shared.Unicode.ascii (fun _ => some exampleUrl) (fun _ => true))
          LoadFollowsClear (mount 0) events
        → (exampleReceiver events).page.host.state.phase = .ready
        → (exampleReceiver events).page.host.state.busy = false
        → CanOpen Crypto.plain Shared.Unicode.ascii (fun _ => some exampleUrl) (fun _ => true)
            (exampleReceiver events) := by
  intro h
  rcases run_exampleLoad with ⟨token, hrun⟩
  have hfailed : exampleReceiver (exampleLoad ++ [.error 0])
      = step Crypto.plain Shared.Unicode.ascii (fun _ => some exampleUrl) (fun _ => true)
          (exampleReceiver exampleLoad) (.error 0) := by
    unfold exampleReceiver run
    rw [List.foldl_append, List.foldl_cons, List.foldl_nil]
  have hloads : Runs.Along
      (step Crypto.plain Shared.Unicode.ascii (fun _ => some exampleUrl) (fun _ => true))
      LoadFollowsClear (mount 0) (exampleLoad ++ [.error 0]) := by
    apply Runs.along_append.mpr
    refine ⟨along_loadEvents _ _, ?_, trivial⟩
    intro url hload
    cases hload
  rw [hrun] at hfailed
  have hphase : (exampleReceiver (exampleLoad ++ [.error 0])).page.host.state.phase = .ready := by
    rw [hfailed]
    apply phase_shown
  have hbusy : (exampleReceiver (exampleLoad ++ [.error 0])).page.host.state.busy = false := by
    rw [hfailed]
    apply (busy_shown _ _ _ _).trans
    exact (underway_inspecting _ _ _ _).idle
  have hcrashed := h (exampleLoad ++ [.error 0]) hloads
  rcases hcrashed hphase hbusy with ⟨worker, -, -, hworker, -⟩
  rw [hfailed] at hworker
  cases hworker

end Receiver

end Web
