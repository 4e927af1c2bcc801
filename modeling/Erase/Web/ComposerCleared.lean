import Erase.Web.Composer
import Erase.Web.Controller

namespace Web

namespace Composer

def Continuation.ticket : Continuation → Ticket
  | .init ticket => ticket
  | .submitSealed ticket => ticket
  | .submitChallenge ticket _ => ticket
  | .submitProof ticket _ _ => ticket
  | .submitReceipt ticket _ _ => ticket
  | .copyLink ticket => ticket
  | .revoke ticket => ticket

-- What a late result leaves to overwrite.
def fills : Continuation → Result → List Entry
  | .submitSealed _, .sealed sealed => [.fill sealed.packet]
  | .submitChallenge _ sealed, .challenge _ => [.fill sealed.packet]
  | .submitChallenge _ sealed, .rejected _ => [.fill sealed.packet]
  | .submitProof _ _ _, .proof _ packet => [.fill packet]
  | .submitReceipt _ _ packet, .receipt _ => [.fill packet]
  | .submitReceipt _ _ packet, .rejected _ => [.fill packet]
  | _, _ => []

def settlement? : Event → Option (Nat × Result)
  | .settle number result => some (number, result)
  | _ => none

def Entry.isCommand : Entry → Bool
  | .event _ => false
  | .fill _ => false
  | _ => true

def controller : Controller Composer Entry Continuation Result Event where
  options := options
  promises composer := composer.promises
  withPromises promises composer := { composer with promises }
  ticket := Continuation.ticket
  resume? := resume?
  fills := fills
  settlement? := settlement?
  handle := handle
  event := .event
  isCommand := Entry.isCommand

theorem apart : controller.Apart where
  promises_withPromises _ _ := rfl
  withPromises_withPromises _ _ _ := rfl
  withPromises_promises _ := rfl
  hasData _ _ := rfl
  hideImmediately _ _ := rfl
  warning _ _ _ := rfl
  clock _ _ _ := rfl
  clear _ _ _ := rfl

theorem settle_eq (number : Nat) (result : Result) (page : ComposerPage)
    : settle number result page = controller.settle number result page := by
  unfold settle Controller.settle controller
  dsimp only
  split
  . next hnone => rw [hnone]
  . next hsome =>
    rw [hsome]
    rfl

section

variable {next generation : Nat} {page page' : ComposerPage} {ticket : Ticket}

theorem issued_await (h : controller.Issued next generation page) {request : Request}
    {continuation : Continuation} (hticket : continuation.ticket.generation = page.session.generation)
    : controller.Issued next generation (await request continuation page) :=
  apart.issued_await h (.call · request) hticket

theorem issued_init (h : controller.Issued next generation page)
    : controller.Issued next generation (init page) := by
  apply issued_await
  . exact (apart.issued_invariant next generation).ticket h
  . rfl

theorem issued_configured (h : controller.Issued next generation page) (config : PublicConfig)
    : controller.Issued next generation (configured ticket config page) := by
  unfold configured
  split
  . next hvalid => exact (apart.issued_invariant next generation).valid h hvalid
  . next hvalid =>
    rcases Page.valid_eq_true hvalid with ⟨rfl, -, -⟩
    exact h

theorem issued_initFailed (h : controller.Issued next generation page) (error : Failure)
    : controller.Issued next generation (initFailed ticket error page) := by
  unfold initFailed
  split
  . next hvalid => exact (apart.issued_invariant next generation).valid h hvalid
  . next hvalid =>
    rcases Page.valid_eq_true hvalid with ⟨rfl, -, -⟩
    exact h

theorem issued_edit (h : controller.Issued next generation page)
    : controller.Issued next generation (edit page) := by
  unfold edit
  split
  . exact h
  . exact h

theorem issued_addFiles (h : controller.Issued next generation page) (files : List LocalFile)
    : controller.Issued next generation (addFiles files page) := by
  unfold addFiles
  split
  . exact h
  . split
    . next hexpire => exact (apart.issued_invariant next generation).expire h hexpire
    . next hexpire =>
      rcases Page.expire_eq_false hexpire with ⟨rfl, -⟩
      dsimp only
      split
      . exact h
      . apply (apart.issued_invariant next generation).touchAt
        exact h

theorem issued_removeFile (h : controller.Issued next generation page) (index : Nat)
    : controller.Issued next generation (removeFile index page) := by
  unfold removeFile
  split
  . exact h
  . exact h

theorem issued_submit (h : controller.Issued next generation page)
    : controller.Issued next generation (submit page) := by
  unfold submit
  split
  . exact h
  . split
    . next hexpire => exact (apart.issued_invariant next generation).expire h hexpire
    . next hexpire =>
      rcases Page.expire_eq_false hexpire with ⟨rfl, -⟩
      split
      . exact h
      . split
        . exact h
        . apply issued_await
          . apply (apart.issued_invariant next generation).ticket
            apply (apart.issued_invariant next generation).touchAt
            exact h
          . rfl

theorem issued_submitFinally (h : controller.Issued next generation page) (packet : Option Bytes)
    : controller.Issued next generation (submitFinally ticket packet page) := by
  have hrest : ∀ page' : ComposerPage, controller.Issued next generation page'
      → controller.Issued next generation (submitFinally ticket none page') := by
    intro page' h
    unfold submitFinally
    dsimp only
    split
    . next hvalid => exact (apart.issued_invariant next generation).valid h hvalid
    . next hvalid =>
      rcases Page.valid_eq_true hvalid with ⟨rfl, -, -⟩
      exact h
  cases packet with
  | none => exact hrest page h
  | some bytes =>
    rw [submitFinally_fill]
    exact hrest _ h

theorem issued_submitFailed (h : controller.Issued next generation page) (packet : Option Bytes)
    (error : Failure) : controller.Issued next generation (submitFailed ticket packet error page) := by
  unfold submitFailed
  split
  . next hvalid => exact issued_submitFinally ((apart.issued_invariant next generation).valid h hvalid) _
  . next hvalid =>
    rcases Page.valid_eq_true hvalid with ⟨rfl, -, -⟩
    apply issued_submitFinally
    exact h

theorem issued_submitSealed (h : controller.Issued next generation page) (sealed : Sealed)
    : controller.Issued next generation (submitSealed ticket sealed page) := by
  unfold submitSealed
  split
  . next hvalid => exact issued_submitFinally ((apart.issued_invariant next generation).valid h hvalid) _
  . next hvalid =>
    rcases Page.valid_eq_true hvalid with ⟨rfl, -, hgeneration⟩
    apply issued_await
    . exact h
    . exact hgeneration

theorem issued_submitChallenge (h : controller.Issued next generation page) (sealed : Sealed)
    (challenge : Challenge)
    : controller.Issued next generation (submitChallenge ticket sealed challenge page) := by
  unfold submitChallenge
  split
  . next hvalid => exact issued_submitFinally ((apart.issued_invariant next generation).valid h hvalid) _
  . next hvalid =>
    rcases Page.valid_eq_true hvalid with ⟨rfl, -, hgeneration⟩
    exact issued_await h hgeneration

theorem issued_submitProof (h : controller.Issued next generation page) (sealed : Sealed)
    (challenge : Challenge) (nonce : JsString) (packet : Bytes)
    : controller.Issued next generation (submitProof ticket sealed challenge nonce packet page) := by
  unfold submitProof
  split
  . next hvalid => exact issued_submitFinally ((apart.issued_invariant next generation).valid h hvalid) _
  . next hvalid =>
    rcases Page.valid_eq_true hvalid with ⟨rfl, -, hgeneration⟩
    apply issued_await
    . exact h
    . exact hgeneration

theorem issued_submitReceipt (h : controller.Issued next generation page) (sealed : Sealed)
    (packet : Bytes) (receipt : Receipt)
    : controller.Issued next generation (submitReceipt ticket sealed packet receipt page) := by
  unfold submitReceipt
  split
  . next hvalid => exact issued_submitFinally ((apart.issued_invariant next generation).valid h hvalid) _
  . next hvalid =>
    rcases Page.valid_eq_true hvalid with ⟨rfl, -, -⟩
    split
    . exact issued_submitFailed h _ _
    . apply issued_submitFinally
      exact h

theorem issued_copyLink (h : controller.Issued next generation page)
    : controller.Issued next generation (copyLink page) := by
  unfold copyLink
  split
  . next hexpire => exact (apart.issued_invariant next generation).expire h hexpire
  . next hexpire =>
    rcases Page.expire_eq_false hexpire with ⟨rfl, -⟩
    split
    . exact h
    . exact issued_await ((apart.issued_invariant next generation).ticket h) rfl

theorem copied_eq (message : String) (page : ComposerPage)
    : copied ticket message page
        = page.proceed options ticket (setState fun state => { state with copied := message }) := by
  unfold copied Page.proceed
  rcases page.valid options ticket with ⟨_ | _, page'⟩
  . rfl
  . rfl

theorem issued_copied (h : controller.Issued next generation page) (message : String)
    : controller.Issued next generation (copied ticket message page) := by
  rw [copied_eq]
  apply (apart.issued_invariant next generation).proceed h
  exact fun _ => h

theorem issued_revoke (h : controller.Issued next generation page)
    : controller.Issued next generation (revoke page) := by
  unfold revoke
  split
  . next hexpire => exact (apart.issued_invariant next generation).expire h hexpire
  . next hexpire =>
    rcases Page.expire_eq_false hexpire with ⟨rfl, -⟩
    split
    . exact h
    . split
      . exact h
      . have hticketed := (apart.issued_invariant next generation).ticket h
        apply issued_await
        . exact hticketed
        . rfl

theorem issued_revokeFinally (h : controller.Issued next generation page)
    : controller.Issued next generation (revokeFinally ticket page) := by
  unfold revokeFinally
  split
  . next hvalid => exact (apart.issued_invariant next generation).valid h hvalid
  . next hvalid =>
    rcases Page.valid_eq_true hvalid with ⟨rfl, -, -⟩
    exact h

theorem issued_revoked (h : controller.Issued next generation page)
    : controller.Issued next generation (revoked ticket page) := by
  unfold revoked
  split
  . next hvalid => exact issued_revokeFinally ((apart.issued_invariant next generation).valid h hvalid)
  . next hvalid =>
    rcases Page.valid_eq_true hvalid with ⟨rfl, -, -⟩
    apply issued_revokeFinally
    exact h

theorem issued_revokeFailed (h : controller.Issued next generation page) (error : Failure)
    : controller.Issued next generation (revokeFailed ticket error page) := by
  unfold revokeFailed
  split
  . next hvalid => exact issued_revokeFinally ((apart.issued_invariant next generation).valid h hvalid)
  . next hvalid =>
    rcases Page.valid_eq_true hvalid with ⟨rfl, -, -⟩
    apply issued_revokeFinally
    exact h

theorem issued_resume {continuation : Continuation} {result : Result} {resume : ComposerPage → ComposerPage}
    (hresume : resume? continuation result = some resume) (hissued : controller.Issued next generation page)
    : controller.Issued next generation (resume page) := by
  unfold resume? at hresume
  split at hresume
  all_goals cases hresume
  . exact issued_configured hissued _
  . exact issued_initFailed hissued _
  . exact issued_submitSealed hissued _
  . exact issued_submitFailed hissued _ _
  . exact issued_submitChallenge hissued _ _
  . exact issued_submitFailed hissued _ _
  . exact issued_submitProof hissued _ _ _ _
  . exact issued_submitFailed hissued _ _
  . exact issued_submitReceipt hissued _ _ _
  . exact issued_submitFailed hissued _ _
  . exact issued_copied hissued _
  . exact issued_copied hissued _
  . exact issued_revoked hissued
  . exact issued_revokeFailed hissued _

theorem issued_handle (h : controller.Issued next generation page) (event : Event)
    : controller.Issued next generation (handle event page) := by
  unfold handle
  cases event with
  | session event => exact (apart.issued_invariant next generation).dispatch h event
  | init => exact issued_init h
  | edit => exact issued_edit h
  | addFiles files => exact issued_addFiles h files
  | removeFile index => exact issued_removeFile h index
  | submit => exact issued_submit h
  | copyLink => exact issued_copyLink h
  | revoke => exact issued_revoke h
  | settle number result =>
    dsimp only
    rw [settle_eq]
    exact apart.issued_settle h number result issued_resume
  | _ => exact h

end

section

variable {late : Nat → Bool} {waiting : Nat → Option Continuation} {earlier : List (Nat × Entry)}
variable {page page' : ComposerPage} {ticket : Ticket}

theorem frame (late : Nat → Bool) (waiting : Nat → Option Continuation)
    : options.Frame (controller.owing late waiting) :=
  apart.frame late waiting

theorem await_carry (h : controller.Bounded late page) (request : Request) (continuation : Continuation)
    : await request continuation (page.carry (controller.owing late waiting) earlier)
        = (await request continuation page).carry (controller.owing late waiting) earlier :=
  apart.await_carry h (.call · request) continuation

theorem setState_carry (f : ComposerState → ComposerState) (page : ComposerPage)
    : setState f (page.carry (controller.owing late waiting) earlier)
        = (setState f page).carry (controller.owing late waiting) earlier := rfl

theorem init_carry (h : controller.Bounded late page)
    : init (page.carry (controller.owing late waiting) earlier)
        = (init page).carry (controller.owing late waiting) earlier := by
  have hticketed := (apart.bounded_invariant late).ticket h
  unfold init
  dsimp only
  rw [(frame late waiting).ticket_carry, setState_carry]
  apply await_carry
  exact hticketed

theorem configured_carry (page : ComposerPage) (config : PublicConfig)
    : configured ticket config (page.carry (controller.owing late waiting) earlier)
        = (configured ticket config page).carry (controller.owing late waiting) earlier := by
  unfold configured
  rw [(frame late waiting).valid_carry]
  rcases page.valid options ticket with ⟨_ | _, page'⟩
  . rfl
  . rfl

theorem initFailed_carry (page : ComposerPage) (error : Failure)
    : initFailed ticket error (page.carry (controller.owing late waiting) earlier)
        = (initFailed ticket error page).carry (controller.owing late waiting) earlier := by
  unfold initFailed
  rw [(frame late waiting).valid_carry]
  rcases page.valid options ticket with ⟨_ | _, page'⟩
  . rfl
  . rfl

theorem edit_carry (page : ComposerPage)
    : edit (page.carry (controller.owing late waiting) earlier)
        = (edit page).carry (controller.owing late waiting) earlier := by
  unfold edit
  rw [apply_ite (Page.carry (controller.owing late waiting) earlier)]
  rfl

theorem addFiles_carry (page : ComposerPage) (files : List LocalFile)
    : addFiles files (page.carry (controller.owing late waiting) earlier)
        = (addFiles files page).carry (controller.owing late waiting) earlier := by
  unfold addFiles
  rw [(frame late waiting).expire_carry, apply_ite (Page.carry (controller.owing late waiting) earlier)]
  rcases page.expire options with ⟨_ | _, page'⟩
  . dsimp only
    rw [setState_carry, setState_carry, (frame late waiting).touch_carry,
      apply_ite (Page.carry (controller.owing late waiting) earlier)]
    rfl
  . rfl

theorem removeFile_carry (page : ComposerPage) (index : Nat)
    : removeFile index (page.carry (controller.owing late waiting) earlier)
        = (removeFile index page).carry (controller.owing late waiting) earlier := by
  unfold removeFile
  rw [apply_ite (Page.carry (controller.owing late waiting) earlier)]
  rfl

theorem submit_carry (h : controller.Bounded late page)
    : submit (page.carry (controller.owing late waiting) earlier)
        = (submit page).carry (controller.owing late waiting) earlier := by
  have hframe := frame late waiting
  unfold submit
  rw [hframe.expire_carry, apply_ite (Page.carry (controller.owing late waiting) earlier)]
  rcases hexpire : page.expire options with ⟨_ | _, page'⟩
  . have hlive := (apart.bounded_invariant late).expire h hexpire
    have hconfig : (page'.carry (controller.owing late waiting) earlier).host.state.config
        = page'.host.state.config := rfl
    dsimp only
    rw [hconfig]
    cases page'.host.state.config with
    | none => rfl
    | some limits =>
      dsimp only
      rw [setState_carry, setState_carry, hframe.touch_carry, hframe.ticket_carry, await_carry,
        apply_ite (Page.carry (controller.owing late waiting) earlier)]
      . rfl
      . apply (apart.bounded_invariant late).ticket
        apply (apart.bounded_invariant late).touchAt
        exact hlive
  . rfl

theorem submitFinally_carry (page : ComposerPage) (packet : Option Bytes)
    : submitFinally ticket packet (page.carry (controller.owing late waiting) earlier)
        = (submitFinally ticket packet page).carry (controller.owing late waiting) earlier := by
  have hnone : ∀ page : ComposerPage,
      submitFinally ticket none (page.carry (controller.owing late waiting) earlier)
        = (submitFinally ticket none page).carry (controller.owing late waiting) earlier := by
    intro page
    unfold submitFinally
    dsimp only
    rw [(frame late waiting).valid_carry]
    rcases page.valid options ticket with ⟨_ | _, page'⟩
    . rfl
    . rfl
  cases packet with
  | none => exact hnone page
  | some bytes => rw [submitFinally_fill, submitFinally_fill, Page.carry_emit, hnone]

theorem submitFailed_carry (page : ComposerPage) (packet : Option Bytes) (error : Failure)
    : submitFailed ticket packet error (page.carry (controller.owing late waiting) earlier)
        = (submitFailed ticket packet error page).carry (controller.owing late waiting) earlier := by
  unfold submitFailed
  rw [(frame late waiting).valid_carry]
  rcases page.valid options ticket with ⟨_ | _, page'⟩
  . exact submitFinally_carry page' packet
  . dsimp only
    rw [setState_carry, Page.carry_emit, submitFinally_carry]

theorem submitSealed_carry (h : controller.Bounded late page) (sealed : Sealed)
    : submitSealed ticket sealed (page.carry (controller.owing late waiting) earlier)
        = (submitSealed ticket sealed page).carry (controller.owing late waiting) earlier := by
  unfold submitSealed
  rw [(frame late waiting).valid_carry]
  rcases hvalid : page.valid options ticket with ⟨_ | _, page'⟩
  . exact submitFinally_carry page' _
  . have hlive := (apart.bounded_invariant late).valid h hvalid
    dsimp only
    rw [setState_carry]
    apply await_carry
    exact hlive

theorem submitChallenge_carry (h : controller.Bounded late page) (sealed : Sealed) (challenge : Challenge)
    : submitChallenge ticket sealed challenge (page.carry (controller.owing late waiting) earlier)
        = (submitChallenge ticket sealed challenge page).carry
            (controller.owing late waiting) earlier := by
  unfold submitChallenge
  rw [(frame late waiting).valid_carry]
  rcases hvalid : page.valid options ticket with ⟨_ | _, page'⟩
  . exact submitFinally_carry page' _
  . exact await_carry ((apart.bounded_invariant late).valid h hvalid) _ _

theorem submitProof_carry (h : controller.Bounded late page) (sealed : Sealed) (challenge : Challenge)
    (nonce : JsString) (packet : Bytes)
    : submitProof ticket sealed challenge nonce packet (page.carry (controller.owing late waiting) earlier)
        = (submitProof ticket sealed challenge nonce packet page).carry
            (controller.owing late waiting) earlier := by
  unfold submitProof
  rw [(frame late waiting).valid_carry]
  rcases hvalid : page.valid options ticket with ⟨_ | _, page'⟩
  . exact submitFinally_carry page' _
  . have hlive := (apart.bounded_invariant late).valid h hvalid
    dsimp only
    rw [setState_carry]
    apply await_carry
    exact hlive

theorem submitReceipt_carry (page : ComposerPage) (sealed : Sealed) (packet : Bytes)
    (receipt : Receipt)
    : submitReceipt ticket sealed packet receipt (page.carry (controller.owing late waiting) earlier)
        = (submitReceipt ticket sealed packet receipt page).carry
            (controller.owing late waiting) earlier := by
  unfold submitReceipt
  rw [(frame late waiting).valid_carry]
  rcases page.valid options ticket with ⟨_ | _, page'⟩
  . exact submitFinally_carry page' _
  . dsimp only
    rw [submitFailed_carry, apply_ite (Page.carry (controller.owing late waiting) earlier),
      ← submitFinally_carry, ← Page.carry_emit]
    rfl

theorem copyLink_carry (h : controller.Bounded late page)
    : copyLink (page.carry (controller.owing late waiting) earlier)
        = (copyLink page).carry (controller.owing late waiting) earlier := by
  unfold copyLink
  rw [(frame late waiting).expire_carry]
  rcases hexpire : page.expire options with ⟨_ | _, page'⟩
  . have hlive := (apart.bounded_invariant late).expire h hexpire
    have hticketed : controller.Bounded late (page'.ticket options).2 :=
      (apart.bounded_invariant late).ticket hlive
    dsimp only
    rw [(frame late waiting).ticket_carry, apply_ite (Page.carry (controller.owing late waiting) earlier),
      ← await_carry hticketed]
    rfl
  . rfl

theorem copied_carry (page : ComposerPage) (message : String)
    : copied ticket message (page.carry (controller.owing late waiting) earlier)
        = (copied ticket message page).carry (controller.owing late waiting) earlier := by
  rw [copied_eq, copied_eq]
  apply (frame late waiting).proceed_carry
  rfl

theorem revoke_carry (h : controller.Bounded late page)
    : revoke (page.carry (controller.owing late waiting) earlier)
        = (revoke page).carry (controller.owing late waiting) earlier := by
  unfold revoke
  rw [(frame late waiting).expire_carry]
  rcases hexpire : page.expire options with ⟨_ | _, page'⟩
  . have hlive := (apart.bounded_invariant late).expire h hexpire
    have hreceipt : (page'.carry (controller.owing late waiting) earlier).host.receipt
        = page'.host.receipt := rfl
    dsimp only
    rw [hreceipt]
    cases page'.host.receipt with
    | none => rfl
    | some receipt =>
      dsimp only
      rw [(frame late waiting).ticket_carry, setState_carry,
        apply_ite (Page.carry (controller.owing late waiting) earlier), ← await_carry]
      . rfl
      . have hticketed := (apart.bounded_invariant late).ticket hlive
        exact hticketed
  . rfl

theorem revokeFinally_carry (page : ComposerPage)
    : revokeFinally ticket (page.carry (controller.owing late waiting) earlier)
        = (revokeFinally ticket page).carry (controller.owing late waiting) earlier := by
  unfold revokeFinally
  rw [(frame late waiting).valid_carry]
  rcases page.valid options ticket with ⟨_ | _, page'⟩
  . rfl
  . rfl

theorem revoked_carry (page : ComposerPage)
    : revoked ticket (page.carry (controller.owing late waiting) earlier)
        = (revoked ticket page).carry (controller.owing late waiting) earlier := by
  unfold revoked
  rw [(frame late waiting).valid_carry]
  rcases page.valid options ticket with ⟨_ | _, page'⟩
  . exact revokeFinally_carry page'
  . dsimp only
    rw [← revokeFinally_carry]
    rfl

theorem revokeFailed_carry (page : ComposerPage) (error : Failure)
    : revokeFailed ticket error (page.carry (controller.owing late waiting) earlier)
        = (revokeFailed ticket error page).carry (controller.owing late waiting) earlier := by
  unfold revokeFailed
  rw [(frame late waiting).valid_carry]
  rcases page.valid options ticket with ⟨_ | _, page'⟩
  . exact revokeFinally_carry page'
  . dsimp only
    rw [← revokeFinally_carry]
    rfl

theorem resume_carry {continuation : Continuation} {result : Result} {resume : ComposerPage → ComposerPage}
    (hresume : resume? continuation result = some resume) (hbounded : controller.Bounded late page)
    : resume (page.carry (controller.owing late waiting) earlier)
        = (resume page).carry (controller.owing late waiting) earlier := by
  unfold resume? at hresume
  split at hresume
  all_goals cases hresume
  . exact configured_carry _ _
  . exact initFailed_carry _ _
  . exact submitSealed_carry hbounded _
  . exact submitFailed_carry _ _ _
  . exact submitChallenge_carry hbounded _ _
  . exact submitFailed_carry _ _ _
  . exact submitProof_carry hbounded _ _ _ _
  . exact submitFailed_carry _ _ _
  . exact submitReceipt_carry _ _ _ _
  . exact submitFailed_carry _ _ _
  . exact copied_carry _ _
  . exact copied_carry _ _
  . exact revoked_carry _
  . exact revokeFailed_carry _ _

theorem handle_carry (h : controller.Bounded late page) {event : Event}
    (hevent : controller.isLate late event = false)
    : handle event (page.carry (controller.owing late waiting) earlier)
        = (handle event page).carry (controller.owing late waiting) earlier := by
  unfold handle
  cases event with
  | session event => exact (frame late waiting).dispatch_carry page event
  | init => exact init_carry h
  | edit => exact edit_carry page
  | addFiles files => exact addFiles_carry page files
  | removeFile index => exact removeFile_carry page index
  | submit => exact submit_carry h
  | copyLink => exact copyLink_carry h
  | revoke => exact revoke_carry h
  | settle number result =>
    dsimp only
    rw [settle_eq, settle_eq]
    exact apart.settle_carry h hevent result resume_carry
  | _ => rfl

theorem submitFinally_none (hstale : ticket.generation ≠ page.session.generation)
    : submitFinally ticket none page = page := by
  unfold submitFinally
  dsimp only
  rw [Page.valid_of_stale hstale]

theorem submitFinally_some (hstale : ticket.generation ≠ page.session.generation) (packet : Bytes)
    : submitFinally ticket (some packet) page = page.emit (.fill packet) := by
  have hvalid : (page.emit (.fill packet)).valid options ticket = (false, page.emit (.fill packet)) :=
    Page.valid_of_stale hstale
  unfold submitFinally
  dsimp only
  rw [hvalid]

theorem revokeFinally_stale (hstale : ticket.generation ≠ page.session.generation)
    : revokeFinally ticket page = page := by
  unfold revokeFinally
  rw [Page.valid_of_stale hstale]

theorem resume_invalid {continuation : Continuation} {result : Result}
    {resume : ComposerPage → ComposerPage} (hresume : resume? continuation result = some resume)
    (hvalid : page.valid options continuation.ticket = (false, page'))
    (hstale : continuation.ticket.generation ≠ page'.session.generation)
    : resume page = (fills continuation result).foldl (fun page entry => page.emit entry) page' := by
  unfold resume? at hresume
  split at hresume
  all_goals cases hresume
  all_goals dsimp only [Continuation.ticket] at hvalid hstale
  . simp only [configured, hvalid, fills, List.foldl_nil]
  . simp only [initFailed, hvalid, fills, List.foldl_nil]
  . simp only [submitSealed, hvalid, submitFinally_some hstale, fills, List.foldl_cons, List.foldl_nil]
  . simp only [submitFailed, hvalid, submitFinally_none hstale, fills, List.foldl_nil]
  . simp only [submitChallenge, hvalid, submitFinally_some hstale, fills, List.foldl_cons, List.foldl_nil]
  . simp only [submitFailed, hvalid, submitFinally_some hstale, fills, List.foldl_cons, List.foldl_nil]
  . simp only [submitProof, hvalid, submitFinally_some hstale, fills, List.foldl_cons, List.foldl_nil]
  . simp only [submitFailed, hvalid, submitFinally_none hstale, fills, List.foldl_nil]
  . simp only [submitReceipt, hvalid, submitFinally_some hstale, fills, List.foldl_cons, List.foldl_nil]
  . simp only [submitFailed, hvalid, submitFinally_some hstale, fills, List.foldl_cons, List.foldl_nil]
  . simp only [copied, hvalid, fills, List.foldl_nil]
  . simp only [copied, hvalid, fills, List.foldl_nil]
  . simp only [revoked, hvalid, revokeFinally_stale hstale, fills, List.foldl_nil]
  . simp only [revokeFailed, hvalid, revokeFinally_stale hstale, fills, List.foldl_nil]

end

theorem isCommand_fill {continuation : Continuation} {result : Result} {entry : Entry}
    (h : entry ∈ fills continuation result) : entry.isCommand = false := by
  unfold fills at h
  split at h
  all_goals first
    | rw [List.mem_singleton.mp h]
      rfl
    | cases h

theorem lawful : controller.Lawful where
  toApart := apart
  handle_settle := by
    intro event number result page hevent
    cases event with
    | settle number' result' =>
      cases hevent
      exact settle_eq number result page
    | _ => cases hevent
  resume_invalid := resume_invalid
  handle_carry h hevent := handle_carry h hevent
  issued event h := issued_handle h event
  isCommand_event _ := rfl
  isCommand_fill := isCommand_fill

end Composer

end Web
