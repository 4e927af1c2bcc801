import Erase.Web.Inactivity
import Erase.Web.SingleRequest

/-!
The handlers of a reader keep its session covered once a load has started: a load that is under way shows
that it is loading, and an opening holds the busy flag.
-/

namespace Web

open Reader

def Event.isAction : Event → Bool
  | .activity isTrusted => isTrusted
  | .keep isTrusted => isTrusted
  | .load _ => true
  | _ => false

-- What the field of the form writes.
def Event.binds : Event → Bool
  | .passphrase _ => true
  | _ => false

def Event.blank : Event → Bool
  | .passphrase value => value = []
  | _ => false

def Event.isPlain : Event → Bool
  | .tick _ => false
  | .activity _ => false
  | .microtask _ => false
  | event => !Event.binds event

def Event.ofSession : SessionEvent → Event
  | .tick elapsed => .tick elapsed
  | .timer => .timer
  | .activity isTrusted => .activity isTrusted
  | .microtask index => .microtask index
  | .keep isTrusted => .keep isTrusted
  | .visibility hidden => .visibility hidden
  | .pagehide => .pagehide
  | .pageshow persisted => .pageshow persisted
  | .clear => .clear
  | .destroy => .destroy

-- A load that is under way in the current generation shows that it is.
def Loads (page : ReaderPage) : Prop :=
  ∀ number continuation, page.host.promises.waiting number = some continuation
    → continuation.ticket.generation ≤ page.session.generation
      ∧ (continuation.isLoad = true → continuation.ticket.generation = page.session.generation
        → page.host.state.phase = .loading)

section

variable {fresh : Bool} {page page' : ReaderPage} {ticket : Ticket}

theorem Loads.abandon (h : Loads page) (hidle : (view page).Idle)
    (hgeneration : page'.session.generation = page.session.generation)
    (hpromises : page'.host.promises = page.host.promises) : Loads page' := by
  intro number continuation hwaiting
  rw [hpromises] at hwaiting
  rw [hgeneration]
  refine ⟨(h number continuation hwaiting).1, ?_⟩
  intro hload hcurrent
  have hother := (hidle number continuation ⟨hwaiting, hcurrent⟩).1
  rw [hload] at hother
  cases hother

theorem Loads.clear (h : Loads page) (reason : ClearReason) : Loads (page.clear options reason) := by
  intro number continuation hwaiting
  have hpast := (h number continuation hwaiting).1
  constructor
  . exact Nat.le_succ_of_le hpast
  . intro _ hcurrent
    have hcurrent : continuation.ticket.generation = page.session.generation + 1 := hcurrent
    omega

theorem Loads.invariant : options.Invariant Loads where
  clear reason h := h.clear reason
  ambient _ _ _ _ h := h
  schedule _ _ h := h
  warning _ h := h
  clock _ h := h

theorem Loads.valid (h : Loads page) {isValid : Bool}
    (hvalid : page.valid options ticket = (isValid, page'))
    : Loads page' :=
  Loads.invariant.valid h hvalid

theorem loads_settled (h : Loads page) (number : Nat) (result : Result)
    : Loads (settledPage number result page) := by
  intro other continuation hwaiting
  exact h other continuation (Promises.waiting_settle.mp hwaiting).2

theorem loads_await (h : Loads page) (request : Request) {continuation : Continuation}
    (hgeneration : continuation.ticket.generation ≤ page.session.generation)
    (hphase : continuation.isLoad = true → page.host.state.phase = .loading)
    : Loads (await request continuation page) := by
  intro number suspended hwaiting
  rcases Promises.waiting_suspend.mp hwaiting with ⟨-, rfl⟩ | ⟨-, hwaiting⟩
  . exact ⟨hgeneration, fun hload _ => hphase hload⟩
  . exact h number suspended hwaiting

-- A reader that loads has data.
theorem phase_touch (h : page.host.state.phase = .loading)
    : (page.touch options).host.state.phase = .loading := by
  have hdata : options.hasData page.host = true := by simp [options, h]
  rw [Page.touch_of_hasData hdata]
  exact h

theorem loads_load (hidle : (view page).Idle) (h : Loads page) (url : JsString)
    : Loads (load url page) := by
  have hstarted : Loads (setState (fun state => { state with
      phase := .loading, error := "", status := "Checking package metadata…" }) page) :=
    h.abandon hidle rfl rfl
  have hlive := Page.live_touch options (setState (fun state => { state with
    phase := .loading, error := "", status := "Checking package metadata…" }) page)
  unfold load
  dsimp only
  rw [Page.ticket_of_live hlive]
  apply loads_await
  . exact Loads.invariant.touchAt hstarted page.now
  . exact Nat.le_refl _
  . exact fun _ => phase_touch rfl

theorem loads_loadFailed (h : Loads page)
    (hidle : ticket.generation = page.session.generation → (view page).Idle) (error : Failure)
    : Loads (loadFailed ticket error page) := by
  unfold loadFailed
  split
  . next hvalid => exact h.valid hvalid
  . next hvalid =>
    rcases Page.valid_eq_true hvalid with ⟨rfl, -, hgeneration⟩
    exact h.abandon (hidle hgeneration) rfl rfl

theorem loads_loadLink (h : Loads page)
    (hphase : ticket.generation = page.session.generation → page.host.state.phase = .loading)
    (id peekToken : JsString) : Loads (loadLink ticket id peekToken page) := by
  unfold loadLink
  split
  . next hvalid => exact h.valid hvalid
  . next hvalid =>
    rcases Page.valid_eq_true hvalid with ⟨rfl, -, hgeneration⟩
    apply loads_await
    . exact h
    . exact hgeneration.le
    . exact fun _ => hphase hgeneration

theorem loads_loadMetadata (h : Loads page)
    (hphase : ticket.generation = page.session.generation → page.host.state.phase = .loading)
    (metadata : Metadata) : Loads (loadMetadata ticket metadata page) := by
  unfold loadMetadata
  split
  . next hvalid => exact h.valid hvalid
  . next hvalid =>
    rcases Page.valid_eq_true hvalid with ⟨rfl, -, hgeneration⟩
    apply loads_await
    . exact h
    . exact hgeneration.le
    . exact fun _ => hphase hgeneration

theorem loads_loadHeader (h : Loads page)
    (hidle : ticket.generation = page.session.generation → (view page).Idle) (metadata : Metadata)
    (header : Shared.Header) : Loads (loadHeader ticket metadata header page) := by
  unfold loadHeader
  split
  . next hvalid => exact h.valid hvalid
  . next hvalid =>
    rcases Page.valid_eq_true hvalid with ⟨rfl, -, hgeneration⟩
    split
    . exact loads_loadFailed h hidle _
    . exact h.abandon (hidle hgeneration) rfl rfl

theorem loads_openFinally (h : Loads page) (packet : Option Bytes)
    : Loads (openFinally ticket packet page) := by
  have hnone : ∀ page' : ReaderPage, Loads page' → Loads (openFinally ticket none page') := by
    intro page' h
    unfold openFinally
    dsimp only
    split
    . next hvalid => exact h.valid hvalid
    . next hvalid =>
      rcases Page.valid_eq_true hvalid with ⟨rfl, -, -⟩
      exact h
  rcases openFinally_eq ticket packet with hsame | ⟨bytes, hsame⟩
  . rw [hsame]
    exact hnone page h
  . rw [hsame]
    exact hnone _ h

theorem loads_openFailed (h : Loads page)
    (hidle : ticket.generation = page.session.generation → (view page).Idle) (requested : Bool)
    (error : Failure) : Loads (openFailed ticket requested error page) := by
  unfold openFailed
  split
  . next hvalid => exact loads_openFinally (h.valid hvalid) none
  . next hvalid =>
    rcases Page.valid_eq_true hvalid with ⟨rfl, -, hgeneration⟩
    apply loads_openFinally
    cases requested with
    | false => exact h
    | true => exact h.abandon (hidle hgeneration) rfl rfl

theorem loads_openAccess (h : Loads page) (readToken : JsString)
    : Loads (openAccess ticket readToken page) := by
  unfold openAccess
  split
  . next hvalid => exact loads_openFinally (h.valid hvalid) none
  . next hvalid =>
    rcases Page.valid_eq_true hvalid with ⟨rfl, -, hgeneration⟩
    apply loads_await
    . exact h
    . exact hgeneration.le
    . nofun

theorem loads_openPacket (h : Loads page) (packet : Bytes) : Loads (openPacket ticket packet page) := by
  unfold openPacket
  split
  . next hvalid => exact loads_openFinally (h.valid hvalid) (some packet)
  . next hvalid =>
    rcases Page.valid_eq_true hvalid with ⟨rfl, -, hgeneration⟩
    apply loads_await
    . exact h
    . exact hgeneration.le
    . nofun

theorem loads_openContent (h : Loads page)
    (hidle : ticket.generation = page.session.generation → (view page).Idle)
    (content : Shared.ContentInput) : Loads (openContent ticket content page) := by
  unfold openContent
  split
  . next page' hvalid =>
    dsimp only
    rw [Page.foldl_emit]
    have hkept : Loads page' := h.valid hvalid
    have hfilled : Loads { page' with trace := page'.trace ++ (fillFiles (some content)).map fun entry =>
      (page'.session.generation, entry) } := hkept
    exact loads_openFinally hfilled none
  . next hvalid =>
    rcases Page.valid_eq_true hvalid with ⟨rfl, -, hgeneration⟩
    apply loads_openFinally
    exact h.abandon (hidle hgeneration) rfl rfl

theorem loads_openNote (h : Loads page) : Loads (openNote page) := by
  unfold openNote
  split
  . next hexpire => exact Loads.invariant.expire h hexpire
  . next hexpire =>
    rcases Page.expire_eq_false hexpire with ⟨rfl, hlive⟩
    split
    . exact h
    . split
      . exact h
      . dsimp only
        rw [Page.ticket_of_live (live_setState hlive _)]
        apply loads_await
        . exact h
        . exact Nat.le_refl _
        . nofun

theorem loads_copyText (h : Loads page) : Loads (copyText page) := by
  unfold copyText
  split
  . next hexpire => exact Loads.invariant.expire h hexpire
  . next hexpire =>
    rcases Page.expire_eq_false hexpire with ⟨rfl, hlive⟩
    split
    . exact h
    . rw [Page.ticket_of_live hlive]
      apply loads_await
      . exact h
      . exact Nat.le_refl _
      . nofun

theorem loads_copied (h : Loads page) (message : String) : Loads (copied ticket message page) := by
  unfold copied
  split
  . next hvalid => exact h.valid hvalid
  . next hvalid =>
    rcases Page.valid_eq_true hvalid with ⟨rfl, -, -⟩
    exact h

theorem loads_download (h : Loads page) (index : Nat) : Loads (download index page) := by
  unfold download
  split
  . next hexpire => exact Loads.invariant.expire h hexpire
  . next hexpire =>
    rcases Page.expire_eq_false hexpire with ⟨rfl, -⟩
    split
    . exact h
    . exact h

theorem loads_downloadText (h : Loads page) : Loads (downloadText page) := by
  unfold downloadText
  split
  . next hexpire => exact Loads.invariant.expire h hexpire
  . next hexpire =>
    rcases Page.expire_eq_false hexpire with ⟨rfl, -⟩
    split
    . exact h
    . exact h

theorem loads_releaseUrl (h : Loads page) (index : Nat) : Loads (releaseUrl index page) := by
  unfold releaseUrl
  split
  . exact h
  . split
    . exact h
    . exact h

theorem loads_settle (hcoherent : Coherent fresh (view page)) (h : Loads page) (number : Nat)
    (result : Result) : Loads (settle number result (page.emit (.event (.settle number result)))) := by
  unfold settle
  split
  . exact h
  . next resume hsome =>
    rcases Option.bind_eq_some_iff.mp hsome with ⟨continuation, hwaiting, hresume⟩
    change Loads (resume (settledPage number result page))
    have hwaiting : page.host.promises.waiting number = some continuation := hwaiting
    have hsettled := loads_settled h number result
    have hphase : ∀ {ticket : Ticket}, continuation.ticket = ticket → continuation.isLoad = true
        → ticket.generation = page.session.generation → page.host.state.phase = .loading :=
      fun hticket hload hgeneration => (h number continuation hwaiting).2 hload (hticket ▸ hgeneration)
    have hidle : ∀ {ticket : Ticket}, continuation.ticket = ticket
        → (continuation.isLoad || continuation.isOpen) = true
        → ticket.generation = page.session.generation
        → (view (settledPage number result page)).Idle :=
      fun hticket hkind hgeneration =>
        ((hticket ▸ resumed_settled hcoherent hwaiting hkind result).idle hgeneration).2
    unfold resume? at hresume
    split at hresume
    all_goals cases hresume
    . exact loads_loadLink hsettled (hphase rfl rfl) _ _
    . exact loads_loadMetadata hsettled (hphase rfl rfl) _
    . exact loads_loadHeader hsettled (hidle rfl rfl) _ _
    . exact loads_loadFailed hsettled (hidle rfl rfl) _
    . exact loads_loadFailed hsettled (hidle rfl rfl) _
    . exact loads_loadFailed hsettled (hidle rfl rfl) _
    . exact loads_openAccess hsettled _
    . exact loads_openPacket hsettled _
    . exact loads_openContent hsettled (hidle rfl rfl) _
    . exact loads_openFailed hsettled (hidle rfl rfl) _ _
    . exact loads_openFailed hsettled (hidle rfl rfl) _ _
    . exact loads_openFailed hsettled (hidle rfl rfl) _ _
    . exact loads_copied hsettled _
    . exact loads_copied hsettled _

theorem loads_step (hcoherent : Coherent fresh (view page)) (h : Loads page) {event : Event}
    (hload : ∀ url, event = .load url → fresh = true) : Loads (step page event) := by
  have hemitted : Loads (page.emit (.event event)) := h
  unfold step handle
  cases event with
  | tick elapsed => exact hemitted
  | timer => exact Loads.invariant.fire hemitted
  | urlTimer index => exact loads_releaseUrl hemitted index
  | activity isTrusted => exact Loads.invariant.activity hemitted isTrusted
  | microtask index => exact Loads.invariant.microtask hemitted index
  | keep isTrusted => exact Loads.invariant.keep hemitted isTrusted
  | visibility hidden => exact Loads.invariant.visibility hemitted hidden
  | pagehide => exact Loads.invariant.leave hemitted
  | pageshow persisted => exact Loads.invariant.restore hemitted persisted
  | passphrase value => exact hemitted
  | load url =>
    have hidle : (view (page.emit (.event (.load url)))).Idle := (hcoherent.fresh (hload url rfl)).2
    exact loads_load hidle hemitted url
  | openNote => exact loads_openNote hemitted
  | copyText => exact loads_copyText hemitted
  | download index => exact loads_download hemitted index
  | downloadText => exact loads_downloadText hemitted
  | clear => exact Loads.clear hemitted .manual
  | destroy => exact Loads.invariant.destroy hemitted
  | settle number result => exact loads_settle hcoherent h number result

end

section

variable {started started' fresh : Bool} {start page page' : ReaderPage} {limit : Nat} {ticket : Ticket}

theorem Reader.hasData_iff {reader : Reader}
    : options.hasData reader = true ↔ reader.id ≠ [] ∨ reader.state.passphrase ≠ []
        ∨ reader.state.content.isSome = true ∨ reader.state.busy = true ∨ reader.state.phase = .loading := by
  simp [options, or_assoc]

theorem Reader.hasData_mono {reader reader' : Reader} (hid : reader'.id ≠ [] → reader.id ≠ [])
    (hpassphrase : reader'.state.passphrase ≠ [] → reader.state.passphrase ≠ [])
    (hcontent : reader'.state.content.isSome = true → reader.state.content.isSome = true)
    (hbusy : reader'.state.busy = true → reader.state.busy = true)
    (hphase : reader'.state.phase = .loading → reader.state.phase = .loading)
    (h : options.hasData reader' = true) : options.hasData reader = true := by
  rw [hasData_iff] at h ⊢
  rcases h with h | h | h | h | h
  . exact .inl (hid h)
  . exact .inr (.inl (hpassphrase h))
  . exact .inr (.inr (.inl (hcontent h)))
  . exact .inr (.inr (.inr (.inl (hbusy h))))
  . exact .inr (.inr (.inr (.inr (hphase h))))

theorem Reader.sensitive : options.Sensitive where
  clear _ _ := rfl
  warning _ _ := rfl
  clock _ _ := rfl

theorem dispatch_session (page : ReaderPage) (event : SessionEvent)
    : step page (.ofSession event) = (page.emit (.event (.ofSession event))).dispatch options event := by
  cases event with
  | _ => rfl

theorem Reader.controls
    : Controls options step Event.ofSession Event.isAction Event.binds Event.blank where
  sensitive := sensitive
  dispatch page event := ⟨.event (.ofSession event), dispatch_session page event⟩
  action event := by
    cases event with
    | _ => rfl
  passive binding hbinds := by
    cases binding with
    | passphrase value => rfl
    | _ => cases hbinds
  bind page binding hbinds := by
    cases binding with
    | passphrase value =>
      refine ⟨.event (.passphrase value), modifyState fun state => { state with passphrase := value }, rfl, ?_⟩
      intro hblank
      exact hasData_mono (fun hid => hid) (fun hvalue => absurd (of_decide_eq_true hblank) hvalue)
        (fun hcontent => hcontent) (fun hbusy => hbusy) fun hphase => hphase
    | _ => cases hbinds

theorem covered_await (h : Covered options started start limit page) (request : Request)
    (continuation : Continuation)
    : Covered options started start limit (await request continuation page) :=
  (h.modify id).emit _

-- A load is data from its start on.
theorem covered_load (h : Covered options started start limit page)
    (hlimit : start.now + 300000 ≤ limit)
    (url : JsString) : Covered options started' start limit (load url page) := by
  unfold load
  apply covered_await
  apply Covered.ticket sensitive
  apply Covered.touchAt sensitive
  . exact h.now
  . exact h.microtasks
  . rw [← h.now] at hlimit
    exact hlimit

theorem covered_loadFailed (h : Covered options started start limit page) (error : Failure)
    : Covered options started start limit (loadFailed ticket error page) := by
  unfold loadFailed
  split
  . next hvalid => exact h.valid sensitive hvalid
  . next hvalid =>
    rcases Page.valid_eq_true hvalid with ⟨rfl, -, -⟩
    apply (h.emit .dispose).modify _ |>.modify
    . exact hasData_mono id id id id nofun
    . exact hasData_mono (fun hid => absurd rfl hid) id id id id

theorem covered_loadLink (h : Covered options started start limit page)
    (hphase : ticket.generation = page.session.generation → page.host.state.phase = .loading)
    (id peekToken : JsString)
    : Covered options started start limit (loadLink ticket id peekToken page) := by
  unfold loadLink
  split
  . next hvalid => exact h.valid sensitive hvalid
  . next hvalid =>
    rcases Page.valid_eq_true hvalid with ⟨rfl, -, hgeneration⟩
    apply covered_await
    apply h.modify
    intro _
    exact hasData_iff.mpr (.inr (.inr (.inr (.inr (hphase hgeneration)))))

theorem covered_loadMetadata (h : Covered options started start limit page) (metadata : Metadata)
    : Covered options started start limit (loadMetadata ticket metadata page) := by
  unfold loadMetadata
  split
  . next hvalid => exact h.valid sensitive hvalid
  . next hvalid =>
    rcases Page.valid_eq_true hvalid with ⟨rfl, -, -⟩
    exact covered_await h _ _

theorem covered_loadHeader (h : Covered options started start limit page) (metadata : Metadata)
    (header : Shared.Header)
    : Covered options started start limit (loadHeader ticket metadata header page) := by
  unfold loadHeader
  split
  . next hvalid => exact h.valid sensitive hvalid
  . next hvalid =>
    rcases Page.valid_eq_true hvalid with ⟨rfl, -, -⟩
    split
    . exact covered_loadFailed h _
    . have hkept : Covered options started start limit
          (page.modify fun reader => { reader with metadata := some metadata }) := h.modify id
      have hready : Phase.ready = .loading → page.host.state.phase = .loading := nofun
      exact (hkept.modify (hasData_mono id id id id hready)).emit _

theorem covered_openNote (h : Covered options started start limit page)
    : Covered options started start limit (openNote page) := by
  unfold openNote
  split
  . next hexpire => exact h.expire sensitive hexpire
  . next hexpire =>
    rcases Page.expire_eq_false hexpire with ⟨rfl, -⟩
    split
    . exact h
    . next hready =>
      split
      . exact h.modify id
      . have hid : page.host.id ≠ [] := by
          intro hempty
          simp [hempty] at hready
        apply covered_await
        apply Covered.ticket sensitive
        apply h.modify
        intro _
        exact hasData_iff.mpr (.inl hid)

theorem covered_openFinally (h : Covered options started start limit page) (packet : Option Bytes)
    : Covered options started start limit (openFinally ticket packet page) := by
  have hnone : ∀ page' : ReaderPage, Covered options started start limit page'
      → Covered options started start limit (openFinally ticket none page') := by
    intro page' h
    unfold openFinally
    dsimp only
    split
    . next hvalid => exact h.valid sensitive hvalid
    . next hvalid =>
      rcases Page.valid_eq_true hvalid with ⟨rfl, -, -⟩
      exact h.modify (hasData_mono id id id nofun id)
  rcases openFinally_eq ticket packet with hsame | ⟨bytes, hsame⟩
  . rw [hsame]
    exact hnone page h
  . rw [hsame]
    exact hnone _ (h.emit _)

theorem covered_openFailed (h : Covered options started start limit page) (requested : Bool)
    (error : Failure)
    : Covered options started start limit (openFailed ticket requested error page) := by
  have hempty : ∀ {value : JsString}, ([] : JsString) ≠ [] → value ≠ [] := fun h => absurd rfl h
  unfold openFailed
  split
  . next hvalid => exact covered_openFinally (h.valid sensitive hvalid) none
  . next hvalid =>
    rcases Page.valid_eq_true hvalid with ⟨rfl, -, -⟩
    have hfailed : Covered options started start limit (setState (fun state => { state with
        passphrase := [], error := errorText error }) page) :=
      h.modify (hasData_mono id hempty id id id)
    apply covered_openFinally
    cases requested with
    | false => exact hfailed.modify id
    | true =>
      have hdropped : Covered options started start limit ((setState (fun state => { state with
          passphrase := [], error := errorText error }) page).emit .dispose |>.modify fun reader =>
            { reader with id := [], metadata := none }) :=
        (hfailed.emit .dispose).modify (hasData_mono hempty id id id id)
      have herror : Phase.error = .loading → page.host.state.phase = .loading := nofun
      exact (hdropped.modify (hasData_mono id id id id herror)).modify id

theorem covered_openAccess (h : Covered options started start limit page) (readToken : JsString)
    : Covered options started start limit (openAccess ticket readToken page) := by
  unfold openAccess
  split
  . next hvalid => exact covered_openFinally (h.valid sensitive hvalid) none
  . next hvalid =>
    rcases Page.valid_eq_true hvalid with ⟨rfl, -, -⟩
    apply covered_await
    exact h.modify (hasData_mono id (fun hpassphrase => absurd rfl hpassphrase) id id id)

theorem covered_openPacket (h : Covered options started start limit page) (packet : Bytes)
    : Covered options started start limit (openPacket ticket packet page) := by
  unfold openPacket
  split
  . next hvalid => exact covered_openFinally (h.valid sensitive hvalid) (some packet)
  . next hvalid =>
    rcases Page.valid_eq_true hvalid with ⟨rfl, -, -⟩
    exact covered_await (h.modify id) _ _

-- The content comes while the opening still holds the busy flag.
theorem covered_openContent (h : Covered options started start limit page)
    (hbusy : ticket.generation = page.session.generation → page.host.state.busy = true)
    (content : Shared.ContentInput)
    : Covered options started start limit (openContent ticket content page) := by
  unfold openContent
  split
  . next page' hvalid =>
    dsimp only
    rw [Page.foldl_emit]
    have hkept : Covered options started start limit { page' with
        trace := page'.trace ++ (fillFiles (some content)).map fun entry =>
          (page'.session.generation, entry) } :=
      (h.valid sensitive hvalid).same rfl rfl rfl rfl id
    exact covered_openFinally hkept none
  . next hvalid =>
    rcases Page.valid_eq_true hvalid with ⟨rfl, -, hgeneration⟩
    apply covered_openFinally
    apply Covered.emit
    have hopened : Covered options started start limit (setState (fun state => { state with
        content := some content
        remaining := state.remaining - 1
        phase := .opened
        status := "Decrypted locally. This retrieval has been counted." }) page) := by
      apply h.modify
      intro _
      exact hasData_iff.mpr (.inr (.inr (.inr (.inl (hbusy hgeneration)))))
    exact hopened.modify (hasData_mono (fun hid => absurd rfl hid) id id id id)

theorem covered_copyText (h : Covered options started start limit page)
    : Covered options started start limit (copyText page) := by
  unfold copyText
  split
  . next hexpire => exact h.expire sensitive hexpire
  . next hexpire =>
    rcases Page.expire_eq_false hexpire with ⟨rfl, -⟩
    split
    . exact h
    . exact covered_await (h.ticket sensitive) _ _

theorem covered_copied (h : Covered options started start limit page) (message : String)
    : Covered options started start limit (copied ticket message page) := by
  unfold copied
  split
  . next hvalid => exact h.valid sensitive hvalid
  . next hvalid =>
    rcases Page.valid_eq_true hvalid with ⟨rfl, -, -⟩
    exact h.modify id

theorem covered_save (h : Covered options started start limit page) (name : JsString) (data : Bytes)
    : Covered options started start limit (save name data page) :=
  ((h.modify id).emit _).emit _

theorem covered_download (h : Covered options started start limit page) (index : Nat)
    : Covered options started start limit (download index page) := by
  unfold download
  split
  . next hexpire => exact h.expire sensitive hexpire
  . next hexpire =>
    rcases Page.expire_eq_false hexpire with ⟨rfl, -⟩
    split
    . exact h
    . exact covered_save h _ _

theorem covered_downloadText (h : Covered options started start limit page)
    : Covered options started start limit (downloadText page) := by
  unfold downloadText
  split
  . next hexpire => exact h.expire sensitive hexpire
  . next hexpire =>
    rcases Page.expire_eq_false hexpire with ⟨rfl, -⟩
    split
    . exact h
    . exact covered_save h _ _

theorem covered_releaseUrl (h : Covered options started start limit page) (index : Nat)
    : Covered options started start limit (releaseUrl index page) := by
  unfold releaseUrl
  split
  . exact h
  . split
    . exact h
    . exact (h.emit _).modify id

theorem covered_settle
    (hopening : ∀ number continuation, (view page).Current number continuation
      → continuation.isOpen = true → page.host.state.busy = true)
    (hloads : Loads page) (h : Covered options started start limit page) (number : Nat)
    (result : Result)
    : Covered options started start limit (settle number result page) := by
  unfold settle
  split
  . exact h
  . next resume hresume =>
    rcases Option.bind_eq_some_iff.mp hresume with ⟨continuation, hwaiting, hresume⟩
    have hsettled : Covered options started start limit (page.modify fun reader =>
        { reader with promises := reader.promises.settle number }) := h.modify id
    unfold resume? at hresume
    split at hresume
    all_goals cases hresume
    . exact covered_loadLink hsettled ((hloads number _ hwaiting).2 rfl) _ _
    . exact covered_loadMetadata hsettled _
    . exact covered_loadHeader hsettled _ _
    . exact covered_loadFailed hsettled _
    . exact covered_loadFailed hsettled _
    . exact covered_loadFailed hsettled _
    . exact covered_openAccess hsettled _
    . exact covered_openPacket hsettled _
    . apply covered_openContent hsettled
      exact fun hgeneration => hopening number _ ⟨hwaiting, hgeneration⟩ rfl
    . exact covered_openFailed hsettled _ _
    . exact covered_openFailed hsettled _ _
    . exact covered_openFailed hsettled _ _
    . exact covered_copied hsettled _
    . exact covered_copied hsettled _

-- Whether the reader has loaded, when it has not before.
def Event.loads : Event → Bool
  | .load _ => true
  | _ => false

theorem covered_step (hcoherent : Coherent fresh (view page)) (hloads : Loads page)
    (h : Covered options started start limit page) {event : Event} (hplain : event.isPlain = true)
    (hlimit : event.isAction = true → start.now + 300000 ≤ limit)
    : Covered options (started || event.loads) start limit (step page event) := by
  have hemitted : Covered options (started || false) start limit (page.emit (.event event)) := by
    rw [Bool.or_false]
    exact h.emit _
  unfold step handle
  cases event with
  | tick elapsed => cases hplain
  | activity isTrusted => cases hplain
  | microtask index => cases hplain
  | passphrase value => cases hplain
  | timer => exact hemitted.dispatch sensitive (show SessionEvent.timer.isPlain = true from rfl) nofun
  | keep isTrusted =>
    exact hemitted.dispatch sensitive (show (SessionEvent.keep isTrusted).isPlain = true from rfl) hlimit
  | visibility hidden =>
    exact hemitted.dispatch sensitive (show (SessionEvent.visibility hidden).isPlain = true from rfl) nofun
  | pagehide => exact hemitted.dispatch sensitive (show SessionEvent.pagehide.isPlain = true from rfl) nofun
  | pageshow persisted =>
    exact hemitted.dispatch sensitive (show (SessionEvent.pageshow persisted).isPlain = true from rfl) nofun
  | clear => exact hemitted.dispatch sensitive (show SessionEvent.clear.isPlain = true from rfl) nofun
  | destroy => exact hemitted.dispatch sensitive (show SessionEvent.destroy.isPlain = true from rfl) nofun
  | urlTimer index => exact covered_releaseUrl hemitted index
  | load url => exact covered_load hemitted (hlimit rfl) url
  | openNote => exact covered_openNote hemitted
  | copyText => exact covered_copyText hemitted
  | download index => exact covered_download hemitted index
  | downloadText => exact covered_downloadText hemitted
  | settle number result =>
    have hopening : ∀ other continuation,
        (view (page.emit (.event (.settle number result)))).Current other continuation
          → continuation.isOpen = true → page.host.state.busy = true := hcoherent.opening
    exact covered_settle hopening hloads hemitted number result

end

end Web
