import Erase.Web.Controller
import Erase.Web.Reader

namespace Web

namespace Reader

-- What a late result leaves to overwrite.
def fills : Continuation → Result → List Entry
  | .openPacket _, .packet packet => if packet = [] then [] else [.fill packet]
  | .openContent _, .content content => fillFiles (some content)
  | _, _ => []

def settlement? : Event → Option (Nat × Result)
  | .settle number result => some (number, result)
  | _ => none

def Entry.isCommand : Entry → Bool
  | .event _ => false
  | .fill _ => false
  | _ => true

def controller : Controller Reader Entry Continuation Result Event where
  options := options
  promises reader := reader.promises
  withPromises promises reader := { reader with promises }
  ticket := Continuation.ticket
  resume? := resume?
  fills := fills
  settlement? := settlement?
  handle := handle
  event := .event
  isCommand := Entry.isCommand

theorem apart : controller.Apart where
  promises_withPromises _ _ := rfl
  withPromises_withPromises _ _ _ := rfl
  withPromises_promises _ := rfl
  hasData _ _ := rfl
  hideImmediately _ _ := rfl
  warning _ _ _ := rfl
  clock _ _ _ := rfl
  clear _ _ _ := rfl

theorem settle_eq (number : Nat) (result : Result) (page : ReaderPage)
    : settle number result page = controller.settle number result page := by
  unfold settle Controller.settle controller
  dsimp only
  split
  . next hnone => rw [hnone]
  . next hsome =>
    rw [hsome]
    rfl

section

variable {next generation : Nat} {page page' : ReaderPage} {ticket : Ticket}

theorem issued_await (h : controller.Issued next generation page) {request : Request}
    {continuation : Continuation} (hticket : continuation.ticket.generation = page.session.generation)
    : controller.Issued next generation (await request continuation page) :=
  apart.issued_await h (.call · request) hticket

theorem issued_load (h : controller.Issued next generation page) (url : JsString)
    : controller.Issued next generation (Reader.load url page) := by
  have hinvariant := apart.issued_invariant next generation
  have hloading : controller.Issued next generation (setState (fun state => { state with
      phase := .loading, error := "", status := "Checking package metadata…" }) page) := h
  have htouched := hinvariant.touchAt hloading page.now
  exact issued_await (hinvariant.ticket htouched) rfl

theorem issued_loadFailed (h : controller.Issued next generation page) (error : Failure)
    : controller.Issued next generation (loadFailed ticket error page) := by
  unfold loadFailed
  split
  . next hvalid => exact (apart.issued_invariant next generation).valid h hvalid
  . next hvalid =>
    rcases Page.valid_eq_true hvalid with ⟨rfl, -, -⟩
    exact h

theorem issued_loadLink (h : controller.Issued next generation page) (id peekToken : JsString)
    : controller.Issued next generation (loadLink ticket id peekToken page) := by
  unfold loadLink
  split
  . next hvalid => exact (apart.issued_invariant next generation).valid h hvalid
  . next hvalid =>
    rcases Page.valid_eq_true hvalid with ⟨rfl, -, hgeneration⟩
    exact Issued.suspend h hgeneration.le

theorem issued_loadMetadata (h : controller.Issued next generation page) (metadata : Metadata)
    : controller.Issued next generation (loadMetadata ticket metadata page) := by
  unfold loadMetadata
  split
  . next hvalid => exact (apart.issued_invariant next generation).valid h hvalid
  . next hvalid =>
    rcases Page.valid_eq_true hvalid with ⟨rfl, -, hgeneration⟩
    exact issued_await h hgeneration

theorem issued_loadHeader (h : controller.Issued next generation page) (metadata : Metadata)
    (header : Shared.Header)
    : controller.Issued next generation (loadHeader ticket metadata header page) := by
  unfold loadHeader
  split
  . next hvalid => exact (apart.issued_invariant next generation).valid h hvalid
  . next hvalid =>
    rcases Page.valid_eq_true hvalid with ⟨rfl, -, -⟩
    split
    . exact issued_loadFailed h _
    . exact h

theorem issued_openNote (h : controller.Issued next generation page)
    : controller.Issued next generation (openNote page) := by
  unfold openNote
  split
  . next hexpire => exact (apart.issued_invariant next generation).expire h hexpire
  . next hexpire =>
    rcases Page.expire_eq_false hexpire with ⟨rfl, -⟩
    split
    . exact h
    . split
      . exact h
      . have hbusy : controller.Issued next generation (setState (fun state => { state with
            busy := true, error := "", status := "Deriving and verifying access locally…" }) page) := h
        exact issued_await ((apart.issued_invariant next generation).ticket hbusy) rfl

theorem issued_openFinally (h : controller.Issued next generation page) (packet : Option Bytes)
    : controller.Issued next generation (openFinally ticket packet page) := by
  have hrest : ∀ page' : ReaderPage, controller.Issued next generation page'
      → controller.Issued next generation (openFinally ticket none page') := by
    intro page' h
    unfold openFinally
    dsimp only
    split
    . next hvalid => exact (apart.issued_invariant next generation).valid h hvalid
    . next hvalid =>
      rcases Page.valid_eq_true hvalid with ⟨rfl, -, -⟩
      exact h
  rcases openFinally_eq ticket packet with hsame | ⟨bytes, hsame⟩
  . rw [hsame]
    exact hrest page h
  . rw [hsame]
    exact hrest _ h

theorem issued_openFailed (h : controller.Issued next generation page) (requested : Bool)
    (error : Failure) : controller.Issued next generation (openFailed ticket requested error page) := by
  unfold openFailed
  split
  . next hvalid => exact issued_openFinally ((apart.issued_invariant next generation).valid h hvalid) none
  . next hvalid =>
    rcases Page.valid_eq_true hvalid with ⟨rfl, -, -⟩
    apply issued_openFinally
    cases requested with
    | false => exact h
    | true => exact h

theorem issued_openAccess (h : controller.Issued next generation page) (readToken : JsString)
    : controller.Issued next generation (openAccess ticket readToken page) := by
  unfold openAccess
  split
  . next hvalid => exact issued_openFinally ((apart.issued_invariant next generation).valid h hvalid) none
  . next hvalid =>
    rcases Page.valid_eq_true hvalid with ⟨rfl, -, hgeneration⟩
    apply issued_await
    . exact h
    . exact hgeneration

theorem issued_openPacket (h : controller.Issued next generation page) (packet : Bytes)
    : controller.Issued next generation (openPacket ticket packet page) := by
  unfold openPacket
  split
  . next hvalid => exact issued_openFinally ((apart.issued_invariant next generation).valid h hvalid) _
  . next hvalid =>
    rcases Page.valid_eq_true hvalid with ⟨rfl, -, hgeneration⟩
    apply issued_await
    . exact h
    . exact hgeneration

theorem issued_openContent (h : controller.Issued next generation page)
    (content : Shared.ContentInput)
    : controller.Issued next generation (openContent ticket content page) := by
  unfold openContent
  split
  . next hvalid =>
    have hinvalid := (apart.issued_invariant next generation).valid h hvalid
    dsimp only
    rw [Page.foldl_emit]
    apply issued_openFinally
    exact hinvalid
  . next hvalid =>
    rcases Page.valid_eq_true hvalid with ⟨rfl, -, -⟩
    apply issued_openFinally
    exact h

theorem issued_copyText (h : controller.Issued next generation page)
    : controller.Issued next generation (copyText page) := by
  unfold copyText
  split
  . next hexpire => exact (apart.issued_invariant next generation).expire h hexpire
  . next hexpire =>
    rcases Page.expire_eq_false hexpire with ⟨rfl, -⟩
    split
    . exact h
    . exact issued_await ((apart.issued_invariant next generation).ticket h) rfl

theorem copied_eq (message : String) (page : ReaderPage)
    : copied ticket message page
        = page.proceed options ticket (setState fun state => { state with copied := message }) := by
  unfold copied Page.proceed
  rcases page.valid options ticket with ⟨_ | _, page'⟩
  . rfl
  . rfl

theorem issued_copied (h : controller.Issued next generation page) (message : String)
    : controller.Issued next generation (copied ticket message page) := by
  rw [copied_eq]
  apply (apart.issued_invariant next generation).proceed h
  exact fun _ => h

theorem issued_download (h : controller.Issued next generation page) (index : Nat)
    : controller.Issued next generation (download index page) := by
  unfold download
  split
  . next hexpire => exact (apart.issued_invariant next generation).expire h hexpire
  . next hexpire =>
    rcases Page.expire_eq_false hexpire with ⟨rfl, -⟩
    split
    . exact h
    . exact h

theorem issued_downloadText (h : controller.Issued next generation page)
    : controller.Issued next generation (downloadText page) := by
  unfold downloadText
  split
  . next hexpire => exact (apart.issued_invariant next generation).expire h hexpire
  . next hexpire =>
    rcases Page.expire_eq_false hexpire with ⟨rfl, -⟩
    split
    . exact h
    . exact h

theorem issued_releaseUrl (h : controller.Issued next generation page) (index : Nat)
    : controller.Issued next generation (releaseUrl index page) := by
  unfold releaseUrl
  split
  . exact h
  . split
    . exact h
    . exact h

theorem issued_resume {continuation : Continuation} {result : Result} {resume : ReaderPage → ReaderPage}
    (hresume : resume? continuation result = some resume) (hissued : controller.Issued next generation page)
    : controller.Issued next generation (resume page) := by
  unfold resume? at hresume
  split at hresume
  all_goals cases hresume
  . exact issued_loadLink hissued _ _
  . exact issued_loadMetadata hissued _
  . exact issued_loadHeader hissued _ _
  . exact issued_loadFailed hissued _
  . exact issued_loadFailed hissued _
  . exact issued_loadFailed hissued _
  . exact issued_openAccess hissued _
  . exact issued_openPacket hissued _
  . exact issued_openContent hissued _
  . exact issued_openFailed hissued _ _
  . exact issued_openFailed hissued _ _
  . exact issued_openFailed hissued _ _
  . exact issued_copied hissued _
  . exact issued_copied hissued _

theorem issued_handle (h : controller.Issued next generation page) (event : Event)
    : controller.Issued next generation (handle event page) := by
  have hinvariant := apart.issued_invariant next generation
  unfold handle
  cases event with
  | tick elapsed => exact h
  | timer => exact hinvariant.fire h
  | urlTimer index => exact issued_releaseUrl h index
  | activity isTrusted => exact hinvariant.activity h isTrusted
  | microtask index => exact hinvariant.microtask h index
  | keep isTrusted => exact hinvariant.keep h isTrusted
  | visibility hidden => exact hinvariant.visibility h hidden
  | pagehide => exact hinvariant.leave h
  | pageshow persisted => exact hinvariant.restore h persisted
  | passphrase value => exact h
  | load url => exact issued_load h url
  | openNote => exact issued_openNote h
  | copyText => exact issued_copyText h
  | download index => exact issued_download h index
  | downloadText => exact issued_downloadText h
  | clear => exact hinvariant.clear _ h
  | destroy => exact hinvariant.destroy h
  | settle number result =>
    dsimp only
    rw [settle_eq]
    exact apart.issued_settle h number result issued_resume

end

section

variable {late : Nat → Bool} {waiting : Nat → Option Continuation} {earlier : List (Nat × Entry)}
variable {page page' : ReaderPage} {ticket : Ticket}

theorem frame (late : Nat → Bool) (waiting : Nat → Option Continuation)
    : options.Frame (controller.owing late waiting) :=
  apart.frame late waiting

theorem await_carry (h : controller.Bounded late page) (request : Request) (continuation : Continuation)
    : await request continuation (page.carry (controller.owing late waiting) earlier)
        = (await request continuation page).carry (controller.owing late waiting) earlier :=
  apart.await_carry h (.call · request) continuation

theorem setState_carry (f : ReaderState → ReaderState) (page : ReaderPage)
    : setState f (page.carry (controller.owing late waiting) earlier)
        = (setState f page).carry (controller.owing late waiting) earlier := rfl

theorem load_carry (h : controller.Bounded late page) (url : JsString)
    : Reader.load url (page.carry (controller.owing late waiting) earlier)
        = (Reader.load url page).carry (controller.owing late waiting) earlier := by
  have hframe := frame late waiting
  have hinvariant := apart.bounded_invariant late
  unfold Reader.load
  dsimp only
  rw [setState_carry, hframe.touch_carry, hframe.ticket_carry]
  apply await_carry
  apply hinvariant.ticket
  apply hinvariant.touchAt
  exact h

theorem loadFailed_carry (page : ReaderPage) (error : Failure)
    : loadFailed ticket error (page.carry (controller.owing late waiting) earlier)
        = (loadFailed ticket error page).carry (controller.owing late waiting) earlier := by
  unfold loadFailed
  rw [(frame late waiting).valid_carry]
  rcases page.valid options ticket with ⟨_ | _, page'⟩
  . rfl
  . dsimp only
    rw [Page.carry_emit]
    rfl

theorem loadLink_carry (h : controller.Bounded late page) (id peekToken : JsString)
    : loadLink ticket id peekToken (page.carry (controller.owing late waiting) earlier)
        = (loadLink ticket id peekToken page).carry (controller.owing late waiting) earlier := by
  unfold loadLink
  rw [(frame late waiting).valid_carry]
  rcases hvalid : page.valid options ticket with ⟨_ | _, page'⟩
  . rfl
  . have hlive := (apart.bounded_invariant late).valid h hvalid
    have hloaded : controller.Bounded late (page'.modify fun reader => { reader with id }) := hlive
    exact await_carry hloaded _ _

theorem loadMetadata_carry (h : controller.Bounded late page) (metadata : Metadata)
    : loadMetadata ticket metadata (page.carry (controller.owing late waiting) earlier)
        = (loadMetadata ticket metadata page).carry (controller.owing late waiting) earlier := by
  unfold loadMetadata
  rw [(frame late waiting).valid_carry]
  rcases hvalid : page.valid options ticket with ⟨_ | _, page'⟩
  . rfl
  . exact await_carry ((apart.bounded_invariant late).valid h hvalid) _ _

theorem loadHeader_carry (page : ReaderPage) (metadata : Metadata) (header : Shared.Header)
    : loadHeader ticket metadata header (page.carry (controller.owing late waiting) earlier)
        = (loadHeader ticket metadata header page).carry (controller.owing late waiting) earlier := by
  unfold loadHeader
  rw [(frame late waiting).valid_carry]
  rcases page.valid options ticket with ⟨_ | _, page'⟩
  . rfl
  . dsimp only
    rw [loadFailed_carry, apply_ite (Page.carry (controller.owing late waiting) earlier),
      ← Page.carry_emit]
    rfl

theorem openNote_carry (h : controller.Bounded late page)
    : openNote (page.carry (controller.owing late waiting) earlier)
        = (openNote page).carry (controller.owing late waiting) earlier := by
  unfold openNote
  rw [(frame late waiting).expire_carry]
  rcases hexpire : page.expire options with ⟨_ | _, page'⟩
  . dsimp only
    rw [apply_ite (Page.carry (controller.owing late waiting) earlier),
      apply_ite (Page.carry (controller.owing late waiting) earlier), setState_carry, setState_carry,
      (frame late waiting).ticket_carry, ← await_carry]
    . rfl
    . have hlive := (apart.bounded_invariant late).expire h hexpire
      apply (apart.bounded_invariant late).ticket
      exact hlive
  . rfl

theorem openFinally_carry (page : ReaderPage) (packet : Option Bytes)
    : openFinally ticket packet (page.carry (controller.owing late waiting) earlier)
        = (openFinally ticket packet page).carry (controller.owing late waiting) earlier := by
  have hnone : ∀ page : ReaderPage,
      openFinally ticket none (page.carry (controller.owing late waiting) earlier)
        = (openFinally ticket none page).carry (controller.owing late waiting) earlier := by
    intro page
    unfold openFinally
    dsimp only
    rw [(frame late waiting).valid_carry]
    rcases page.valid options ticket with ⟨_ | _, page'⟩
    . rfl
    . rfl
  rcases openFinally_eq ticket packet with hsame | ⟨bytes, hsame⟩
  . rw [hsame, hsame, hnone]
  . rw [hsame, hsame, Page.carry_emit, hnone]

theorem openFailed_carry (page : ReaderPage) (requested : Bool) (error : Failure)
    : openFailed ticket requested error (page.carry (controller.owing late waiting) earlier)
        = (openFailed ticket requested error page).carry (controller.owing late waiting) earlier := by
  unfold openFailed
  rw [(frame late waiting).valid_carry]
  rcases page.valid options ticket with ⟨_ | _, page'⟩
  . exact openFinally_carry page' none
  . dsimp only
    rw [setState_carry, Page.carry_emit, ← openFinally_carry]
    cases requested with
    | false => rfl
    | true => rfl

theorem openAccess_carry (h : controller.Bounded late page) (readToken : JsString)
    : openAccess ticket readToken (page.carry (controller.owing late waiting) earlier)
        = (openAccess ticket readToken page).carry (controller.owing late waiting) earlier := by
  unfold openAccess
  rw [(frame late waiting).valid_carry]
  rcases hvalid : page.valid options ticket with ⟨_ | _, page'⟩
  . exact openFinally_carry page' none
  . have hlive := (apart.bounded_invariant late).valid h hvalid
    dsimp only
    rw [setState_carry]
    apply await_carry
    exact hlive

theorem openPacket_carry (h : controller.Bounded late page) (packet : Bytes)
    : openPacket ticket packet (page.carry (controller.owing late waiting) earlier)
        = (openPacket ticket packet page).carry (controller.owing late waiting) earlier := by
  unfold openPacket
  rw [(frame late waiting).valid_carry]
  rcases hvalid : page.valid options ticket with ⟨_ | _, page'⟩
  . exact openFinally_carry page' _
  . have hlive := (apart.bounded_invariant late).valid h hvalid
    dsimp only
    rw [setState_carry]
    apply await_carry
    exact hlive

theorem openContent_carry (page : ReaderPage) (content : Shared.ContentInput)
    : openContent ticket content (page.carry (controller.owing late waiting) earlier)
        = (openContent ticket content page).carry (controller.owing late waiting) earlier := by
  unfold openContent
  rw [(frame late waiting).valid_carry]
  rcases page.valid options ticket with ⟨_ | _, page'⟩
  . dsimp only
    rw [← openFinally_carry, Page.foldl_emit, Page.foldl_emit]
    unfold Page.carry
    rw [List.append_assoc]
  . dsimp only
    rw [← openFinally_carry, ← Page.carry_emit]
    rfl

theorem copyText_carry (h : controller.Bounded late page)
    : copyText (page.carry (controller.owing late waiting) earlier)
        = (copyText page).carry (controller.owing late waiting) earlier := by
  unfold copyText
  rw [(frame late waiting).expire_carry]
  rcases hexpire : page.expire options with ⟨_ | _, page'⟩
  . have hlive := (apart.bounded_invariant late).expire h hexpire
    have htext : (page'.carry (controller.owing late waiting) earlier).host.text? = page'.host.text? := rfl
    dsimp only
    rw [htext, (frame late waiting).ticket_carry]
    cases page'.host.text? with
    | none => rfl
    | some text => exact await_carry ((apart.bounded_invariant late).ticket hlive) _ _
  . rfl

theorem copied_carry (page : ReaderPage) (message : String)
    : copied ticket message (page.carry (controller.owing late waiting) earlier)
        = (copied ticket message page).carry (controller.owing late waiting) earlier := by
  rw [copied_eq, copied_eq]
  apply (frame late waiting).proceed_carry
  rfl

theorem save_carry (page : ReaderPage) (name : JsString) (data : Bytes)
    : save name data (page.carry (controller.owing late waiting) earlier)
        = (save name data page).carry (controller.owing late waiting) earlier := by
  unfold save
  dsimp only
  rw [← Page.carry_emit, ← Page.carry_emit]
  rfl

theorem download_carry (page : ReaderPage) (index : Nat)
    : download index (page.carry (controller.owing late waiting) earlier)
        = (download index page).carry (controller.owing late waiting) earlier := by
  unfold download
  rw [(frame late waiting).expire_carry]
  rcases page.expire options with ⟨_ | _, page'⟩
  . have hcontent : (page'.carry (controller.owing late waiting) earlier).host.state.content
        = page'.host.state.content := rfl
    dsimp only
    rw [hcontent]
    cases page'.host.state.content.bind fun content => content.files[index]? with
    | none => rfl
    | some file => exact save_carry page' _ _
  . rfl

theorem downloadText_carry (page : ReaderPage)
    : downloadText (page.carry (controller.owing late waiting) earlier)
        = (downloadText page).carry (controller.owing late waiting) earlier := by
  unfold downloadText
  rw [(frame late waiting).expire_carry]
  rcases page.expire options with ⟨_ | _, page'⟩
  . have htext : (page'.carry (controller.owing late waiting) earlier).host.text? = page'.host.text? := rfl
    dsimp only
    rw [htext]
    cases page'.host.text? with
    | none => rfl
    | some text => exact save_carry page' _ _
  . rfl

theorem releaseUrl_carry (page : ReaderPage) (index : Nat)
    : releaseUrl index (page.carry (controller.owing late waiting) earlier)
        = (releaseUrl index page).carry (controller.owing late waiting) earlier := by
  have hurls : (page.carry (controller.owing late waiting) earlier).host.urls = page.host.urls := rfl
  unfold releaseUrl
  rw [hurls]
  cases page.host.urls.timers[index]? with
  | none => rfl
  | some timer =>
    dsimp only
    rw [apply_ite (Page.carry (controller.owing late waiting) earlier), Page.carry_emit]
    rfl

theorem resume_carry {continuation : Continuation} {result : Result} {resume : ReaderPage → ReaderPage}
    (hresume : resume? continuation result = some resume) (hbounded : controller.Bounded late page)
    : resume (page.carry (controller.owing late waiting) earlier)
        = (resume page).carry (controller.owing late waiting) earlier := by
  unfold resume? at hresume
  split at hresume
  all_goals cases hresume
  . exact loadLink_carry hbounded _ _
  . exact loadMetadata_carry hbounded _
  . exact loadHeader_carry _ _ _
  . exact loadFailed_carry _ _
  . exact loadFailed_carry _ _
  . exact loadFailed_carry _ _
  . exact openAccess_carry hbounded _
  . exact openPacket_carry hbounded _
  . exact openContent_carry _ _
  . exact openFailed_carry _ _ _
  . exact openFailed_carry _ _ _
  . exact openFailed_carry _ _ _
  . exact copied_carry _ _
  . exact copied_carry _ _

theorem handle_carry (h : controller.Bounded late page) {event : Event}
    (hevent : controller.isLate late event = false)
    : handle event (page.carry (controller.owing late waiting) earlier)
        = (handle event page).carry (controller.owing late waiting) earlier := by
  have hframe := frame late waiting
  unfold handle
  cases event with
  | tick elapsed => rfl
  | timer => exact hframe.fire_carry page
  | urlTimer index => exact releaseUrl_carry page index
  | activity isTrusted => exact hframe.activity_carry page isTrusted
  | microtask index => exact hframe.microtask_carry page index
  | keep isTrusted => exact hframe.keep_carry page isTrusted
  | visibility hidden => exact hframe.visibility_carry page hidden
  | pagehide => exact hframe.leave_carry page
  | pageshow persisted => exact hframe.restore_carry page persisted
  | passphrase value => rfl
  | load url => exact load_carry h url
  | openNote => exact openNote_carry h
  | copyText => exact copyText_carry h
  | download index => exact download_carry page index
  | downloadText => exact downloadText_carry page
  | clear => exact hframe.clear_carry page _
  | destroy => exact hframe.destroy_carry page
  | settle number result =>
    dsimp only
    rw [settle_eq, settle_eq]
    exact apart.settle_carry h hevent result resume_carry

theorem openFinally_none (hstale : ticket.generation ≠ page.session.generation)
    : openFinally ticket none page = page := by
  unfold openFinally
  dsimp only
  rw [Page.valid_of_stale hstale]

theorem openFinally_some (hstale : ticket.generation ≠ page.session.generation) (packet : Bytes)
    : openFinally ticket (some packet) page
        = (if packet = [] then [] else [Entry.fill packet]).foldl
            (fun page entry => page.emit entry) page := by
  have hvalid : (page.emit (.fill packet)).valid options ticket = (false, page.emit (.fill packet)) :=
    Page.valid_of_stale hstale
  unfold openFinally
  dsimp only
  by_cases hpacket : packet = []
  . rw [if_pos hpacket, if_pos hpacket, Page.valid_of_stale hstale]
    rfl
  . rw [if_neg hpacket, if_neg hpacket, hvalid]
    rfl

theorem resume_invalid {continuation : Continuation} {result : Result}
    {resume : ReaderPage → ReaderPage} (hresume : resume? continuation result = some resume)
    (hvalid : page.valid options continuation.ticket = (false, page'))
    (hstale : continuation.ticket.generation ≠ page'.session.generation)
    : resume page = (fills continuation result).foldl (fun page entry => page.emit entry) page' := by
  unfold resume? at hresume
  split at hresume
  all_goals cases hresume
  all_goals dsimp only [Continuation.ticket] at hvalid hstale
  . simp only [loadLink, hvalid, fills, List.foldl_nil]
  . simp only [loadMetadata, hvalid, fills, List.foldl_nil]
  . simp only [loadHeader, hvalid, fills, List.foldl_nil]
  . simp only [loadFailed, hvalid, fills, List.foldl_nil]
  . simp only [loadFailed, hvalid, fills, List.foldl_nil]
  . simp only [loadFailed, hvalid, fills, List.foldl_nil]
  . simp only [openAccess, hvalid, openFinally_none hstale, fills, List.foldl_nil]
  . simp only [openPacket, hvalid, openFinally_some hstale, fills]
  . simp only [openContent, hvalid, fills]
    apply openFinally_none
    rw [Page.foldl_emit]
    exact hstale
  . simp only [openFailed, hvalid, openFinally_none hstale, fills, List.foldl_nil]
  . simp only [openFailed, hvalid, openFinally_none hstale, fills, List.foldl_nil]
  . simp only [openFailed, hvalid, openFinally_none hstale, fills, List.foldl_nil]
  . simp only [copied, hvalid, fills, List.foldl_nil]
  . simp only [copied, hvalid, fills, List.foldl_nil]

end

theorem isCommand_fill {continuation : Continuation} {result : Result} {entry : Entry}
    (h : entry ∈ fills continuation result) : Entry.isCommand entry = false := by
  unfold fills at h
  split at h
  . split at h
    . cases h
    . rw [List.mem_singleton.mp h]
      rfl
  . rcases List.mem_map.mp h with ⟨file, -, rfl⟩
    rfl
  . cases h

theorem lawful : controller.Lawful where
  toApart := apart
  handle_settle := by
    intro event number result page hevent
    cases event with
    | settle number' result' =>
      cases hevent
      exact settle_eq number result page
    | _ => cases hevent
  resume_invalid := resume_invalid
  handle_carry h hevent := handle_carry h hevent
  issued event h := issued_handle h event
  isCommand_event _ := rfl
  isCommand_fill := isCommand_fill

end Reader

end Web
