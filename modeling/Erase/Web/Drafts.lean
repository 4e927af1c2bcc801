import Erase.Web.Capability

/-!
What becomes of the drafts of a composer: a submission that succeeds takes them away, one that fails
leaves them.
-/

namespace Web

namespace Composer

-- What the sender has typed and chosen.
def drafts (state : ComposerState) : JsString × List LocalFile × JsString :=
  (state.text, state.files, state.passphrase)

def editsDrafts (page : ComposerPage) : Event → Bool
  | .text _ => true
  | .passphrase _ => true
  | .addFiles _ => !page.host.state.busy
  | .removeFile _ => !page.host.state.busy
  | _ => false

-- The answer to the upload of a submission arrives, and the submission ends with a link.
def Succeeds (page : ComposerPage) (event : Event) : Prop :=
  ∃ number ticket sealed packet receipt, event = .settle number (.receipt receipt)
    ∧ page.host.promises.waiting number = some (.submitReceipt ticket sealed packet)
    ∧ ticket.generation = page.session.generation ∧ page.Live ∧ receipt.id = sealed.id

-- A call of a submission is rejected, or its upload answered for another package.
def Fails (page : ComposerPage) (event : Event) : Prop :=
  ∃ number continuation result, event = .settle number result
    ∧ page.host.promises.waiting number = some continuation ∧ continuation.isSubmission = true
    ∧ continuation.ticket.generation = page.session.generation ∧ page.Live
    ∧ ((∃ error, result = .rejected error)
      ∨ ∃ ticket sealed packet receipt, continuation = .submitReceipt ticket sealed packet
        ∧ result = .receipt receipt ∧ receipt.id ≠ sealed.id)

-- The drafts are those of `generation`, as long as it lasts.
structure Retains (generation : Nat) (draft : JsString × List LocalFile × JsString)
    (page : ComposerPage)
    : Prop where
  later : generation ≤ page.session.generation
  kept : page.session.generation = generation → drafts page.host.state = draft

section

variable {origin : JsString} {page page' : ComposerPage} {ticket : Ticket} {event : Event}
variable {generation : Nat} {draft : JsString × List LocalFile × JsString}
variable {f : ComposerState → ComposerState}

theorem Retains.same (h : Retains generation draft page)
    (hgeneration : page'.session.generation = page.session.generation)
    (hdrafts : drafts page'.host.state = drafts page.host.state) : Retains generation draft page' where
  later := by
    rw [hgeneration]
    exact h.later
  kept := by
    rw [hgeneration, hdrafts]
    exact h.kept

theorem Retains.setState (h : Retains generation draft page)
    (hdrafts : drafts (f page.host.state) = drafts page.host.state)
    : Retains generation draft (setState f page) := h.same rfl hdrafts

theorem retains_invariant (generation : Nat) (draft : JsString × List LocalFile × JsString)
    : options.Invariant (Retains generation draft) where
  clear _ h := {
    later := Nat.le_succ_of_le h.later
    kept := fun hsame => absurd hsame (Nat.ne_of_gt (Nat.lt_succ_of_le h.later)) }
  ambient _ _ _ _ h := h.same rfl rfl
  schedule _ _ h := h.same rfl rfl
  warning _ h := h.same rfl rfl
  clock _ h := h.same rfl rfl

theorem Retains.ifValid (h : Retains generation draft page)
    (hdrafts : ∀ state, drafts (f state) = drafts state)
    : Retains generation draft (match page.valid options ticket with
      | (false, page) => page
      | (true, page) => Composer.setState f page) := by
  split
  . next hvalid => exact (retains_invariant _ _).valid h hvalid
  . next hvalid => exact ((retains_invariant _ _).valid h hvalid).setState (hdrafts _)

theorem Retains.submitFinally (h : Retains generation draft page) (packet : Option Bytes)
    : Retains generation draft (submitFinally ticket packet page) := by
  cases packet with
  | none => exact h.ifValid (fun _ => rfl)
  | some bytes =>
    have hfilled : Retains generation draft (page.emit (.fill bytes)) := h.same rfl rfl
    exact hfilled.ifValid (fun _ => rfl)

theorem Retains.submitFailed (h : Retains generation draft page) (packet : Option Bytes)
    (error : Failure) : Retains generation draft (submitFailed ticket packet error page) := by
  unfold Composer.submitFailed
  split
  . next hvalid => exact ((retains_invariant _ _).valid h hvalid).submitFinally packet
  . next hvalid =>
    apply Retains.submitFinally
    exact ((retains_invariant _ _).valid h hvalid).same rfl rfl

theorem Retains.submitSealed (h : Retains generation draft page) (sealed : Sealed)
    : Retains generation draft (submitSealed ticket sealed page) := by
  unfold Composer.submitSealed
  split
  . next hvalid => exact ((retains_invariant _ _).valid h hvalid).submitFinally _
  . next hvalid => exact ((retains_invariant _ _).valid h hvalid).same rfl rfl

theorem Retains.submitChallenge (h : Retains generation draft page) (sealed : Sealed)
    (challenge : Challenge)
    : Retains generation draft (submitChallenge ticket sealed challenge page) := by
  unfold Composer.submitChallenge
  split
  . next hvalid => exact ((retains_invariant _ _).valid h hvalid).submitFinally _
  . next hvalid => exact ((retains_invariant _ _).valid h hvalid).same rfl rfl

theorem Retains.submitProof (h : Retains generation draft page) (sealed : Sealed)
    (challenge : Challenge)
    (nonce : JsString) (packet : Bytes)
    : Retains generation draft (submitProof ticket sealed challenge nonce packet page) := by
  unfold Composer.submitProof
  split
  . next hvalid => exact ((retains_invariant _ _).valid h hvalid).submitFinally _
  . next hvalid => exact ((retains_invariant _ _).valid h hvalid).same rfl rfl

theorem Retains.submitReceipt (h : Retains generation draft page) (sealed : Sealed) (packet : Bytes)
    (receipt : Receipt) (hother : ticket.generation = page.session.generation → page.Live
      → receipt.id ≠ sealed.id)
    : Retains generation draft (submitReceipt ticket sealed packet receipt page) := by
  unfold Composer.submitReceipt
  split
  . next hvalid => exact ((retains_invariant _ _).valid h hvalid).submitFinally _
  . next hvalid =>
    rcases Page.valid_eq_true hvalid with ⟨rfl, hlive, hgeneration⟩
    rw [if_pos (hother hgeneration hlive)]
    exact h.submitFailed _ _

theorem Retains.revokeFinally (h : Retains generation draft page)
    : Retains generation draft (revokeFinally ticket page) := h.ifValid (fun _ => rfl)

theorem Retains.revoked (h : Retains generation draft page)
    : Retains generation draft (revoked ticket page) := by
  unfold Composer.revoked
  split
  . next hvalid => exact ((retains_invariant _ _).valid h hvalid).revokeFinally
  . next hvalid =>
    apply Retains.revokeFinally
    exact ((retains_invariant _ _).valid h hvalid).same rfl rfl

theorem Retains.revokeFailed (h : Retains generation draft page) (error : Failure)
    : Retains generation draft (revokeFailed ticket error page) := by
  unfold Composer.revokeFailed
  split
  . next hvalid => exact ((retains_invariant _ _).valid h hvalid).revokeFinally
  . next hvalid =>
    apply Retains.revokeFinally
    exact ((retains_invariant _ _).valid h hvalid).same rfl rfl

theorem Retains.submit (h : Retains generation draft page)
    : Retains generation draft (submit page) := by
  unfold Composer.submit
  split
  . exact h
  . split
    . next hexpire => exact (retains_invariant _ _).expire h hexpire
    . next hexpire =>
      rcases Page.expire_eq_false hexpire with ⟨rfl, -⟩
      split
      . exact h
      . split
        . exact h.setState rfl
        . have hstarted := h.setState (f := fun state => { state with
            busy := true, stage := .encrypt, error := "", copied := ""
            status := "Encrypting content locally…" }) rfl
          have htouched := (retains_invariant _ _).touchAt hstarted page.now
          exact ((retains_invariant _ _).ticket htouched).same rfl rfl

theorem Retains.copyLink (h : Retains generation draft page)
    : Retains generation draft (copyLink page) := by
  unfold Composer.copyLink
  split
  . next hexpire => exact (retains_invariant _ _).expire h hexpire
  . next hexpire =>
    have hlive := (retains_invariant _ _).expire h hexpire
    split
    . exact hlive
    . exact ((retains_invariant _ _).ticket hlive).same rfl rfl

theorem Retains.revoke (h : Retains generation draft page)
    : Retains generation draft (revoke page) := by
  unfold Composer.revoke
  split
  . next hexpire => exact (retains_invariant _ _).expire h hexpire
  . next hexpire =>
    have hlive := (retains_invariant _ _).expire h hexpire
    split
    . exact hlive
    . split
      . exact hlive
      . exact ((retains_invariant _ _).ticket hlive).same rfl rfl

theorem Retains.settle (h : Retains generation draft page) {number : Nat} {result : Result}
    (hother : ¬Succeeds page (.settle number result))
    : Retains generation draft (settle number result page) := by
  unfold Composer.settle
  split
  . exact h
  . next resume hresume =>
    rcases Option.bind_eq_some_iff.mp hresume with ⟨continuation, hwaiting, hresume⟩
    have hsettled : Retains generation draft (page.modify fun composer =>
        { composer with promises := composer.promises.settle number }) := h.same rfl rfl
    unfold resume? at hresume
    split at hresume
    all_goals cases hresume
    . exact hsettled.ifValid (fun _ => rfl)
    . exact hsettled.ifValid (fun _ => rfl)
    . exact hsettled.submitSealed _
    . exact hsettled.submitFailed _ _
    . exact hsettled.submitChallenge _ _
    . exact hsettled.submitFailed _ _
    . exact hsettled.submitProof _ _ _ _
    . exact hsettled.submitFailed _ _
    . apply hsettled.submitReceipt
      intro hgeneration hlive hid
      exact hother ⟨number, _, _, _, _, rfl, hwaiting, hgeneration, hlive, hid⟩
    . exact hsettled.submitFailed _ _
    . exact hsettled.ifValid (fun _ => rfl)
    . exact hsettled.ifValid (fun _ => rfl)
    . exact hsettled.revoked
    . exact hsettled.revokeFailed _

-- Only the sender, a success and a clear change the drafts.
theorem Retains.step (h : Retains generation draft page) (hedits : editsDrafts page event = false)
    (hother : ¬Succeeds page event) : Retains generation draft (Composer.step page event) := by
  have hemitted : Retains generation draft (page.emit (.event event)) := h.same rfl rfl
  unfold Composer.step handle
  cases event with
  | session event => exact (retains_invariant _ _).dispatch hemitted event
  | init => exact ((retains_invariant _ _).ticket hemitted).same rfl rfl
  | edit =>
    dsimp only
    unfold Composer.edit
    split
    . exact hemitted
    . exact hemitted.setState rfl
  | addFiles files =>
    have hbusy : (page.emit (.event (.addFiles files))).host.state.busy = true := by
      simpa [editsDrafts, Page.emit] using hedits
    dsimp only
    unfold Composer.addFiles
    rw [if_pos hbusy]
    exact hemitted
  | removeFile index =>
    have hbusy : (page.emit (.event (.removeFile index))).host.state.busy = true := by
      simpa [editsDrafts, Page.emit] using hedits
    dsimp only
    unfold Composer.removeFile
    rw [if_pos hbusy]
    exact hemitted
  | submit => exact hemitted.submit
  | copyLink => exact hemitted.copyLink
  | revoke => exact hemitted.revoke
  | settle number result => exact hemitted.settle hother
  | text value => cases hedits
  | passphrase value => cases hedits
  | _ => exact hemitted.same rfl rfl

-- The page on which the continuation of a settled promise runs.
def settledPage (number : Nat) (result : Result) (page : ComposerPage) : ComposerPage :=
  (page.emit (.event (.settle number result))).modify fun composer =>
    { composer with promises := composer.promises.settle number }

theorem step_settle {number : Nat} {continuation : Continuation} {result : Result}
    {resume : ComposerPage → ComposerPage}
    (hwaiting : page.host.promises.waiting number = some continuation)
    (hresume : resume? continuation result = some resume)
    : step page (.settle number result) = resume (settledPage number result page) := by
  have hbound : ((page.emit (.event (.settle number result))).host.promises.waiting number).bind
      (fun continuation => resume? continuation result) = some resume :=
    Option.bind_eq_some_iff.mpr ⟨continuation, hwaiting, hresume⟩
  change settle number result (page.emit (.event (.settle number result))) = _
  unfold settle
  rw [hbound]
  rfl

theorem submitReceipt_eq {sealed : Sealed} {receipt : Receipt}
    (hgeneration : ticket.generation = page.session.generation)
    (hsignal : ticket.signal = page.session.controller) (hlive : page.Live)
    (hid : receipt.id = sealed.id)
    (packet : Bytes)
    : (submitReceipt ticket sealed packet receipt page).host.state = { page.host.state with
        link := shareLink page.host.origin sealed
        expiresAt := receipt.expiresAt
        canRevoke := true
        createdViews := page.host.state.views
        text := []
        files := []
        passphrase := []
        stage := .share
        status := "Package created. Local draft cleared."
        busy := false } := by
  unfold submitReceipt
  rw [Page.valid_of_live hgeneration hsignal hlive]
  dsimp only
  rw [if_neg (not_not.mpr hid)]
  unfold submitFinally
  dsimp only
  rw [Page.valid_of_live]
  . rfl
  . exact hgeneration
  . exact hsignal
  . exact hlive

theorem state_of_succeeds (h : Coherent origin page) (hsucceeds : Succeeds page event)
    : drafts (step page event).host.state = ([], [], []) ∧ (step page event).host.state.busy = false := by
  rcases hsucceeds with
    ⟨number, ticket, sealed, packet, receipt, rfl, hwaiting, hgeneration, hlive, hid⟩
  have hsignal : ticket.signal = page.session.controller := by
    rw [show ticket.signal = ticket.generation from h.tickets hwaiting, hgeneration]
    exact h.session.symm
  rw [step_settle hwaiting rfl, submitReceipt_eq]
  . exact ⟨rfl, rfl⟩
  . exact hgeneration
  . exact hsignal
  . exact hlive
  . exact hid

theorem not_succeeds_of_fails (h : Fails page event) : ¬Succeeds page event := by
  rcases h with ⟨number, continuation, result, rfl, hwaiting, -, -, -, hfailed⟩
  rintro ⟨number', ticket, sealed, packet, receipt, hevent, hwaiting', -, -, hid⟩
  cases hevent
  cases hwaiting.symm.trans hwaiting'
  rcases hfailed with ⟨error, hrejected⟩ | ⟨ticket', sealed', packet', receipt', hsame, hreceipt, hother⟩
  . cases hrejected
  . cases hsame
    cases hreceipt
    exact hother hid

-- A submission in flight keeps the drafts until it succeeds.
theorem Retains.run (hcoherent : Coherent origin page) (h : Retains generation draft page)
    {during : List Event}
    (hbusy : Runs.Along Composer.step (fun page _ => page.host.state.busy = true) page (during ++ [event]))
    (hedits : ∀ typed ∈ during, ∀ value, typed ≠ .text value ∧ typed ≠ .passphrase value)
    (hfails : Fails (Composer.run page during) event)
    : Retains generation draft (Composer.run page (during ++ [event])) := by
  induction during generalizing page with
  | nil =>
    have hother := not_succeeds_of_fails hfails
    rcases hfails with ⟨number, continuation, result, rfl, -⟩
    exact h.step rfl hother
  | cons first during ih =>
    rcases hbusy with ⟨hnow, hlater⟩
    have hnext : (Composer.step page first).host.state.busy = true := by
      cases during with
      | nil => exact hlater.1
      | cons second during => exact hlater.1
    have hfirst := hedits first List.mem_cons_self
    have hretained : Retains generation draft (Composer.step page first) := by
      apply h.step
      . unfold editsDrafts
        split
        . exact absurd rfl (hfirst _).1
        . exact absurd rfl (hfirst _).2
        . rw [hnow]
          rfl
        . rw [hnow]
          rfl
        . rfl
      . intro hsucceeds
        cases hnext.symm.trans (state_of_succeeds hcoherent hsucceeds).2
    apply ih (hcoherent.step first) hretained hlater
    . exact fun typed hmem => hedits typed (List.mem_cons_of_mem first hmem)
    . exact hfails

end

-- The link of a package and the means to revoke it are shown and hidden together.
def Linked (origin : JsString) (page : ComposerPage) : Prop :=
  (page.host.receipt.isSome = true ↔ page.host.state.canRevoke = true)
    ∧ (page.host.receipt.isSome = true ↔ page.host.state.link ≠ [])
    ∧ ∀ id token, page.host.receipt = some (id, token) → ∃ sealed, Seals page.trace sealed
      ∧ sealed.id = id ∧ sealed.revokeToken = token
      ∧ page.host.state.link
        = origin ++ JsString.ofString "/view#1." ++ id ++ JsString.ofString "." ++ sealed.secret

-- The flag is up exactly while one operation of the present session is under way.
def Guarded (page : ComposerPage) : Prop :=
  (page.host.state.busy = true ↔ ∃ number, Operating page number)
    ∧ ∀ number other, Operating page number → Operating page other → number = other

theorem Coherent.presented {origin : JsString} {page : ComposerPage} (h : Coherent origin page)
    : Linked origin page := by
  refine ⟨by rw [h.canRevoke], ?_, ?_⟩
  . cases hreceipt : page.host.receipt with
    | none => simp [h.unlinked hreceipt]
    | some receipt =>
      rcases h.linked hreceipt with ⟨sealed, -, -, -, hlink⟩
      have hpath : JsString.ofString "/view#1." ≠ [] := by decide
      simp [hlink, shareLink, hpath]
  . intro id token hreceipt
    rcases h.linked hreceipt with ⟨sealed, hseals, rfl, htoken, hlink⟩
    exact ⟨sealed, hseals, rfl, htoken, hlink⟩

theorem composer_coherent (origin : JsString) (now : Nat) (events : List Event)
    : Linked origin (run (mount origin now) events)
      ∧ Guarded (run (mount origin now) events)
      ∧ (∀ event, Succeeds (run (mount origin now) events) event
        → drafts (step (run (mount origin now) events) event).host.state = ([], [], []))
      ∧ ∀ (during : List Event) (event : Event),
        Runs.Along step (fun page _ => page.host.state.busy = true)
            (step (run (mount origin now) events) .submit) (during ++ [event])
          → (∀ typed ∈ during, ∀ value, typed ≠ .text value ∧ typed ≠ .passphrase value)
          → Fails (run (step (run (mount origin now) events) .submit) during) event
          → (run (mount origin now) (events ++ .submit :: during ++ [event])).session.generation
            = (run (mount origin now) events).session.generation
          → drafts (run (mount origin now) (events ++ .submit :: during ++ [event])).host.state
            = drafts (run (mount origin now) events).host.state := by
  have hcoherent := (coherent_mount origin now).run events
  refine ⟨hcoherent.presented, ⟨hcoherent.busy, fun _ _ => hcoherent.single⟩, ?_, ?_⟩
  . exact fun event hsucceeds => (state_of_succeeds hcoherent hsucceeds).1
  . intro during event hbusy hedits hfails hgeneration
    have hstart : Retains (run (mount origin now) events).session.generation
        (drafts (run (mount origin now) events).host.state) (run (mount origin now) events) := {
      later := Nat.le_refl _
      kept := fun _ => rfl }
    have hcalls : ¬Succeeds (run (mount origin now) events) .submit := by
      rintro ⟨_, _, _, _, _, hevent, _⟩
      cases hevent
    have hsubmitted := hstart.step rfl hcalls
    have hretained := Retains.run (hcoherent.step .submit) hsubmitted hbusy hedits hfails
    have hrun : run (mount origin now) (events ++ .submit :: during ++ [event])
        = run (step (run (mount origin now) events) .submit) (during ++ [event]) := by
      simp [run, List.foldl_append]
    rw [hrun] at hgeneration ⊢
    exact hretained.kept hgeneration

def exampleConfig : PublicConfig where
  maxContentBytes := 1048576
  maxTextBytes := 65536
  maxFiles := 4
  maxViews := 50
  maxTtl := 86400
  powBits := 20
  content := by decide
  text := by decide
  files := by decide
  views := by decide
  ttl := by decide
  pow := by decide

def exampleDraft : List Event := [.init, .settle 0 (.config exampleConfig), .text [65]]

theorem composer_coherent_exampleDraft
    : drafts (run (mount [] 0) (exampleDraft ++ .submit :: [] ++ [.settle 1 (.rejected .otherError)])).host.state
        = ([65], [], []) := by
  have hlive : (run (step (run (mount [] 0) exampleDraft) .submit) []).Live := by
    unfold Page.Live
    decide
  apply ((composer_coherent [] 0 exampleDraft).2.2.2 [] (.settle 1 (.rejected .otherError)) ?_ ?_ ?_ ?_).trans
  . rfl
  . exact ⟨rfl, trivial⟩
  . simp
  . exact ⟨1, .submitSealed ⟨0, 0⟩, .rejected .otherError, rfl, rfl, rfl, rfl, hlive, .inl ⟨_, rfl⟩⟩
  . rfl

end Composer

end Web
