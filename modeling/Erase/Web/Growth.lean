import Erase.Web.SingleRequest

namespace Web

open Reader

-- The page has gone on from `start` without a consuming request.
def Grows (start : Trace) (page : ReaderPage) : Prop :=
  ∃ more : Trace, page.trace = start ++ more ∧ ∀ entry ∈ more, entry.2.isConsuming = false

section

variable {start : Trace} {page page' : ReaderPage} {ticket : Ticket}

theorem grows_refl (page : ReaderPage) : Grows page.trace page :=
  ⟨[], (List.append_nil _).symm, by simp⟩

theorem isConsuming_of_isMilestone {entry : Entry} (h : entry.isMilestone = false)
    : entry.isConsuming = false := by
  cases entry with
  | call number request => exact h
  | _ => rfl

namespace Grows

theorem same (h : Grows start page) (htrace : page'.trace = page.trace) : Grows start page' := by
  unfold Grows
  rw [htrace]
  exact h

theorem append (h : Grows start page) {more : Trace} (htrace : page'.trace = page.trace ++ more)
    (hmore : ∀ entry ∈ more, entry.2.isConsuming = false) : Grows start page' := by
  rcases h with ⟨earlier, hearlier, hquiet⟩
  refine ⟨earlier ++ more, ?_, List.forall_mem_append.mpr ⟨hquiet, hmore⟩⟩
  rw [htrace, hearlier, List.append_assoc]

theorem emit (h : Grows start page) {entry : Entry} (hentry : entry.isConsuming = false)
    : Grows start (page.emit entry) := by
  apply h.append rfl
  intro other hother
  rw [List.mem_singleton.mp hother]
  exact hentry

theorem foldl_emit (h : Grows start page) {entries : List Entry}
    (hentries : ∀ entry ∈ entries, entry.isConsuming = false)
    : Grows start (entries.foldl (fun page entry => page.emit entry) page) := by
  rw [Page.foldl_emit]
  apply h.append rfl
  intro other hother
  rcases List.mem_map.mp hother with ⟨entry, hentry, rfl⟩
  exact hentries entry hentry

theorem invariant (start : Trace) : options.Invariant (Grows start) where
  clear reason h := by
    apply h.append rfl
    intro other hother
    rcases List.mem_map.mp hother with ⟨entry, hentry, rfl⟩
    exact isConsuming_of_isMilestone (isMilestone_of_mem_reset reason _ hentry)
  ambient _ _ _ _ h := h
  schedule _ _ h := h
  warning _ h := h
  clock _ h := h

theorem valid (h : Grows start page) {isValid : Bool}
    (hvalid : page.valid options ticket = (isValid, page')) : Grows start page' :=
  (invariant start).valid h hvalid

theorem expire (h : Grows start page) {expired : Bool}
    (hexpire : page.expire options = (expired, page')) : Grows start page' :=
  (invariant start).expire h hexpire

theorem await (h : Grows start page) {request : Request} {continuation : Continuation}
    (hrequest : Entry.isConsuming (.call page.host.promises.next request) = false)
    : Grows start (Reader.await request continuation page) :=
  h.append rfl fun other hother => by
    rw [List.mem_singleton.mp hother]
    exact hrequest

theorem load (h : Grows start page) (url : JsString) : Grows start (Reader.load url page) := by
  have hloading : Grows start (setState (fun state => { state with
      phase := .loading, error := "", status := "Checking package metadata…" }) page) := h
  have htouched := (invariant start).touchAt hloading page.now
  exact ((invariant start).ticket htouched).await rfl

theorem loadFailed (h : Grows start page) (error : Failure)
    : Grows start (Reader.loadFailed ticket error page) := by
  unfold Reader.loadFailed
  split
  . next hvalid => exact h.valid hvalid
  . next hvalid =>
    have hdisposed := (h.valid hvalid).emit (show Entry.isConsuming .dispose = false from rfl)
    exact hdisposed

theorem loadLink (h : Grows start page) (id peekToken : JsString)
    : Grows start (Reader.loadLink ticket id peekToken page) := by
  unfold Reader.loadLink
  split
  . next hvalid => exact h.valid hvalid
  . next hvalid =>
    apply Grows.await
    . exact (h.valid hvalid).same rfl
    . rfl

theorem loadMetadata (h : Grows start page) (metadata : Metadata)
    : Grows start (Reader.loadMetadata ticket metadata page) := by
  unfold Reader.loadMetadata
  split
  . next hvalid => exact h.valid hvalid
  . next hvalid => exact (h.valid hvalid).await rfl

theorem loadHeader (h : Grows start page) (metadata : Metadata) (header : Shared.Header)
    : Grows start (Reader.loadHeader ticket metadata header page) := by
  unfold Reader.loadHeader
  split
  . next hvalid => exact h.valid hvalid
  . next page' hvalid =>
    have hcurrent := h.valid hvalid
    split
    . exact hcurrent.loadFailed _
    . have hloaded := hcurrent.emit (show Entry.isConsuming (.loaded page'.host.id) = false from rfl)
      exact hloaded

theorem openNote (h : Grows start page) : Grows start (Reader.openNote page) := by
  unfold Reader.openNote
  split
  . next hexpire => exact h.expire hexpire
  . next page' hexpire =>
    have hlive := h.expire hexpire
    split
    . exact hlive
    . split
      . exact hlive
      . have hbusy : Grows start (setState (fun state => { state with
            busy := true, error := "", status := "Deriving and verifying access locally…" }) page') := hlive
        exact ((invariant start).ticket hbusy).await rfl

theorem openFinally (h : Grows start page) (packet : Option Bytes)
    : Grows start (Reader.openFinally ticket packet page) := by
  have hrest : ∀ {page' : ReaderPage}, Grows start page'
      → Grows start (Reader.openFinally ticket none page') := by
    intro page' h
    unfold Reader.openFinally
    dsimp only
    split
    . next hvalid => exact h.valid hvalid
    . next hvalid => exact (h.valid hvalid).same rfl
  rcases openFinally_eq ticket packet with hsame | ⟨bytes, hsame⟩
  . rw [hsame]
    exact hrest h
  . rw [hsame]
    apply hrest
    exact h.emit rfl

theorem openFailed (h : Grows start page) (requested : Bool) (error : Failure)
    : Grows start (Reader.openFailed ticket requested error page) := by
  unfold Reader.openFailed
  split
  . next hvalid => exact (h.valid hvalid).openFinally none
  . next hvalid =>
    cases requested with
    | false =>
      apply openFinally
      exact (h.valid hvalid).same rfl
    | true =>
      have hdisposed := (h.valid hvalid).emit (show Entry.isConsuming .dispose = false from rfl)
      apply openFinally
      exact hdisposed.same rfl

theorem openPacket (h : Grows start page) (packet : Bytes)
    : Grows start (Reader.openPacket ticket packet page) := by
  unfold Reader.openPacket
  split
  . next hvalid => exact (h.valid hvalid).openFinally _
  . next hvalid =>
    apply Grows.await
    . exact (h.valid hvalid).same rfl
    . rfl

theorem openContent (h : Grows start page) (content : Shared.ContentInput)
    : Grows start (Reader.openContent ticket content page) := by
  unfold Reader.openContent
  split
  . next hvalid =>
    apply openFinally
    apply (h.valid hvalid).foldl_emit
    intro entry hentry
    rcases eq_fill_of_mem_fillFiles hentry with ⟨data, rfl⟩
    rfl
  . next hvalid =>
    have hdisposed := (h.valid hvalid).emit (show Entry.isConsuming .dispose = false from rfl)
    apply openFinally
    exact hdisposed.same rfl

theorem copyText (h : Grows start page) : Grows start (Reader.copyText page) := by
  unfold Reader.copyText
  split
  . next hexpire => exact h.expire hexpire
  . next hexpire =>
    split
    . exact h.expire hexpire
    . exact ((invariant start).ticket (h.expire hexpire)).await rfl

theorem copied (h : Grows start page) (message : String)
    : Grows start (Reader.copied ticket message page) := by
  unfold Reader.copied
  split
  . next hvalid => exact h.valid hvalid
  . next hvalid => exact (h.valid hvalid).same rfl

theorem save (h : Grows start page) (name : JsString) (data : Bytes)
    : Grows start (Reader.save name data page) := by
  have hcreated := h.emit (show Entry.isConsuming (.createObjectUrl page.host.urls.next data) = false from rfl)
  have hsaved := hcreated.emit (show Entry.isConsuming (.save page.host.urls.next name) = false from rfl)
  exact hsaved

theorem download (h : Grows start page) (index : Nat)
    : Grows start (Reader.download index page) := by
  unfold Reader.download
  split
  . next hexpire => exact h.expire hexpire
  . next hexpire =>
    split
    . exact h.expire hexpire
    . exact (h.expire hexpire).save _ _

theorem downloadText (h : Grows start page) : Grows start (Reader.downloadText page) := by
  unfold Reader.downloadText
  split
  . next hexpire => exact h.expire hexpire
  . next hexpire =>
    split
    . exact h.expire hexpire
    . exact (h.expire hexpire).save _ _

theorem releaseUrl (h : Grows start page) (index : Nat)
    : Grows start (Reader.releaseUrl index page) := by
  unfold Reader.releaseUrl
  split
  . exact h
  . next url due _ =>
    split
    . exact h
    . have hrevoked := h.emit (show Entry.isConsuming (.revokeObjectUrl url) = false from rfl)
      exact hrevoked

end Grows

-- The trace of the page after the event itself.
def recorded (page : ReaderPage) (event : Event) : Trace :=
  page.trace ++ [(page.session.generation, .event event)]

-- What one event adds to the trace. Only a settled preparation leads to a consuming request.
inductive Advances (page : ReaderPage) (event : Event) : Prop where
  | quiet (grows : Grows (recorded page event) (step page event))
  | opened (number : Nat) (ticket : Ticket) (readToken : JsString)
      (settles : event = .settle number (.access readToken))
      (waiting : page.host.promises.waiting number = some (.openAccess ticket))
      (trace : (step page event).trace = recorded page event
        ++ [(page.session.generation, .call page.host.promises.next (.openNote page.host.id readToken))])

theorem advances_settle (page : ReaderPage) (number : Nat) (result : Result)
    : Advances page (.settle number result) := by
  have hrecorded := grows_refl (page.emit (.event (.settle number result)))
  cases hresume : (page.host.promises.waiting number).bind fun continuation => resume? continuation result with
  | none =>
    apply Advances.quiet
    rw [step_settle_none hresume]
    exact hrecorded
  | some resume =>
    rcases Option.bind_eq_some_iff.mp hresume with ⟨continuation, hwaiting, hresume⟩
    have hstep := step_settle hwaiting hresume
    have hsettled : Grows (recorded page (.settle number result)) (settledPage number result page) :=
      hrecorded
    unfold resume? at hresume
    split at hresume
    all_goals cases hresume
    . exact .quiet (hstep ▸ hsettled.loadLink _ _)
    . exact .quiet (hstep ▸ hsettled.loadMetadata _)
    . exact .quiet (hstep ▸ hsettled.loadHeader _ _)
    . exact .quiet (hstep ▸ hsettled.loadFailed _)
    . exact .quiet (hstep ▸ hsettled.loadFailed _)
    . exact .quiet (hstep ▸ hsettled.loadFailed _)
    . next ticket readToken =>
      cases hvalid : (settledPage number (.access readToken) page).valid options ticket with
      | mk isValid page' =>
        cases isValid with
        | false =>
          apply Advances.quiet
          rw [hstep]
          unfold openAccess
          rw [hvalid]
          exact (hsettled.valid hvalid).openFinally none
        | true =>
          refine .opened number ticket readToken rfl hwaiting ?_
          rw [hstep]
          unfold openAccess
          rw [hvalid, ← (Page.valid_eq_true hvalid).1]
          rfl
    . exact .quiet (hstep ▸ hsettled.openPacket _)
    . exact .quiet (hstep ▸ hsettled.openContent _)
    . exact .quiet (hstep ▸ hsettled.openFailed false _)
    . exact .quiet (hstep ▸ hsettled.openFailed true _)
    . exact .quiet (hstep ▸ hsettled.openFailed true _)
    . exact .quiet (hstep ▸ hsettled.copied _)
    . exact .quiet (hstep ▸ hsettled.copied _)

theorem advances_step (page : ReaderPage) (event : Event) : Advances page event := by
  have hinvariant := Grows.invariant (recorded page event)
  have hrecorded : Grows (recorded page event) (page.emit (.event event)) := grows_refl _
  cases event with
  | tick elapsed => exact .quiet hrecorded
  | timer => exact .quiet (hinvariant.fire hrecorded)
  | urlTimer index => exact .quiet (hrecorded.releaseUrl index)
  | activity isTrusted => exact .quiet (hinvariant.activity hrecorded isTrusted)
  | microtask index => exact .quiet (hinvariant.microtask hrecorded index)
  | keep isTrusted => exact .quiet (hinvariant.keep hrecorded isTrusted)
  | visibility hidden => exact .quiet (hinvariant.visibility hrecorded hidden)
  | pagehide => exact .quiet (hinvariant.leave hrecorded)
  | pageshow persisted => exact .quiet (hinvariant.restore hrecorded persisted)
  | passphrase value => exact .quiet hrecorded
  | load url => exact .quiet (hrecorded.load url)
  | openNote => exact .quiet hrecorded.openNote
  | copyText => exact .quiet hrecorded.copyText
  | download index => exact .quiet (hrecorded.download index)
  | downloadText => exact .quiet hrecorded.downloadText
  | clear => exact .quiet (hinvariant.clear .manual hrecorded)
  | destroy => exact .quiet (hinvariant.destroy hrecorded)
  | settle number result => exact advances_settle page number result

end

end Web
