import Erase.Library.Runs
import Erase.Web.ComposerCleared

/-!
A composer without a configuration offers its retry control, unless its session or its error is cleared
on the way.
-/

namespace Web

namespace Composer

-- The page shows the control that calls `init` again, or needs none.
def Offered (state : ComposerState) : Prop := state.configured = true ∨ state.error ≠ ""

def Connecting (page : ComposerPage) : Prop :=
  ∃ number ticket, page.host.promises.waiting number = some (.init ticket)
    ∧ ticket.generation = page.session.generation

def Retryable (page : ComposerPage) : Prop := ¬Connecting page → Offered page.host.state

-- Whether a handler clears the session whatever the time is.
def isDiscard (page : ComposerPage) : Event → Bool
  | .session .clear => true
  | .session .destroy => true
  | .session .pagehide => page.attached
  | .session (.pageshow persisted) => page.attached && persisted
  | _ => false

-- Whether a handler looks at the deadline.
def readsDeadline (page : ComposerPage) : Event → Bool
  | .session .timer => page.session.timer.any (· ≤ page.now)
  | .session (.activity isTrusted) => page.attached && isTrusted && !page.hidden
  | .session (.microtask index) =>
    page.microtasks[index]?.any fun task => task.1 = page.session.generation && !page.hidden
  | .session (.keep isTrusted) => isTrusted && !page.hidden
  | .session (.visibility hidden) => page.attached && !hidden
  | .addFiles _ => !page.host.state.busy
  | .submit => !page.host.state.busy && page.host.state.configured
  | .copyLink => true
  | .revoke => true
  | .settle number result => (page.host.promises.waiting number).any fun continuation =>
      (resume? continuation result).isSome
        && continuation.ticket.generation = page.session.generation
  | _ => false

-- The deadline that a microtask sets again has passed since its activity.
def isOverdue (page : ComposerPage) : Event → Bool
  | .session (.microtask index) => page.microtasks[index]?.any fun task =>
      options.hasData page.host && task.2 + 300000 ≤ page.now
  | _ => false

def Expires (page : ComposerPage) (event : Event) : Prop :=
  readsDeadline page event = true ∧ (page.Live → isOverdue page event = true)

def takesFiles (page : ComposerPage) : Event → Bool
  | .addFiles files =>
    !page.host.state.busy && !exceedsLimits page.host.state (page.host.state.files ++ files)
  | _ => false

-- A step that takes neither the request for the configuration nor the error away.
def KeepsRetry (page : ComposerPage) (event : Event) : Prop :=
  page.host.state.configured = true ∨ event = .init
    ∨ isDiscard page event = false ∧ ¬Expires page event
      ∧ (takesFiles page event = true → Connecting page)

structure Sound (page : ComposerPage) : Prop where
  session : page.session.controller = page.session.generation
  numbered : page.host.promises.Numbered
  tickets : ∀ {number continuation}, page.host.promises.waiting number = some continuation
    → continuation.ticket.signal = continuation.ticket.generation

structure Steady (page : ComposerPage) : Prop extends Sound page where
  retryable : Connecting page ∨ Offered page.host.state

-- The deadline can be looked at.
def Calm (page : ComposerPage) : Prop := page.Live ∨ page.host.state.configured = true

section

variable {page page' : ComposerPage} {ticket : Ticket} {f : ComposerState → ComposerState}

theorem sound_mount (origin : JsString) (now : Nat) : Sound (mount origin now) where
  session := rfl
  numbered := Promises.numbered_empty
  tickets := fun h => by cases h

theorem Sound.same (h : Sound page) (hgeneration : page'.session.generation = page.session.generation)
    (hcontroller : page'.session.controller = page.session.controller)
    (hpromises : page'.host.promises = page.host.promises) : Sound page' where
  session := by
    rw [hgeneration, hcontroller]
    exact h.session
  numbered := by
    rw [hpromises]
    exact h.numbered
  tickets := by
    rw [hpromises]
    exact h.tickets

theorem Sound.clear (h : Sound page) (reason : ClearReason) : Sound (page.clear options reason) where
  session := congrArg (· + 1) h.session
  numbered := h.numbered
  tickets := h.tickets

theorem Sound.expire (h : Sound page) : Sound (page.expire options).2 := by
  unfold Page.expire
  split
  . exact h.clear .expired
  . exact h

theorem Sound.settle (h : Sound page) (number : Nat)
    : Sound (page.modify fun composer =>
        { composer with promises := composer.promises.settle number }) where
  session := h.session
  numbered := h.numbered.settle number
  tickets := fun hwaiting => h.tickets (Promises.waiting_settle.mp hwaiting).2

theorem Sound.await (h : Sound page) {continuation : Continuation}
    (hticket : continuation.ticket.signal = continuation.ticket.generation) (request : Request)
    : Sound (await request continuation page) where
  session := h.session
  numbered := h.numbered.suspend continuation
  tickets := by
    intro number other hwaiting
    rcases Promises.waiting_suspend.mp hwaiting with ⟨-, rfl⟩ | ⟨-, hwaiting⟩
    . exact hticket
    . exact h.tickets hwaiting

theorem Steady.same (h : Steady page) (hgeneration : page'.session.generation = page.session.generation)
    (hcontroller : page'.session.controller = page.session.controller)
    (hpromises : page'.host.promises = page.host.promises)
    (hoffered : Offered page.host.state → Offered page'.host.state) : Steady page' where
  toSound := h.toSound.same hgeneration hcontroller hpromises
  retryable := by
    unfold Connecting
    rw [hgeneration, hpromises]
    exact h.retryable.imp_right hoffered

theorem Steady.setState (h : Steady page) (hf : Offered page.host.state → Offered (f page.host.state))
    : Steady (setState f page) :=
  h.same rfl rfl rfl hf

theorem Steady.emit (h : Steady page) (entry : Entry) : Steady (page.emit entry) :=
  h.same rfl rfl rfl id

theorem Steady.clear (h : Steady page) (hconfigured : page.host.state.configured = true)
    (reason : ClearReason) : Steady (page.clear options reason) where
  toSound := h.toSound.clear reason
  retryable := .inr (.inl hconfigured)

theorem Steady.await (h : Steady page) {continuation : Continuation}
    (hticket : continuation.ticket.signal = continuation.ticket.generation) (request : Request)
    : Steady (await request continuation page) where
  toSound := h.toSound.await hticket request
  retryable := by
    apply h.retryable.imp_left
    rintro ⟨number, ticket, hwaiting, hcurrent⟩
    refine ⟨number, ticket, Promises.waiting_suspend.mpr (.inr ⟨?_, hwaiting⟩), hcurrent⟩
    exact (h.numbered number _ hwaiting).ne

theorem Steady.expire (h : Steady page) (hcalm : Calm page) {expired : Bool}
    (hexpired : page.expire options = (expired, page')) : Steady page' := by
  unfold Page.expire at hexpired
  split at hexpired
  . next hpassed =>
    cases hexpired
    exact h.clear (hcalm.resolve_left (not_not.mpr hpassed)) .expired
  . cases hexpired
    exact h

theorem Steady.valid (h : Steady page)
    (hcalm : ticket.generation = page.session.generation → Calm page) {isValid : Bool}
    (hvalid : page.valid options ticket = (isValid, page')) : Steady page' := by
  unfold Page.valid at hvalid
  split at hvalid
  . cases hvalid
    exact h
  . next hgeneration =>
    have hcalm := hcalm (not_not.mp hgeneration)
    split at hvalid
    . next hexpired =>
      cases hvalid
      exact h.expire hcalm hexpired
    . next hexpired =>
      cases hvalid
      exact h.expire hcalm hexpired

theorem Steady.check (h : Steady page) (hcalm : Calm page) : Steady (page.check options) := by
  have hstopped : Steady { page with session := { page.session with timer := none } } :=
    h.same rfl rfl rfl id
  unfold Page.check
  dsimp only
  split
  . next hexpired => exact hstopped.expire hcalm hexpired
  . next hexpired =>
    have hchecked := hstopped.expire hcalm hexpired
    split
    . exact hchecked.same rfl rfl rfl id
    . exact hchecked.same rfl rfl rfl id

theorem Steady.touchAt (h : Steady page) {time : Nat}
    (htime : options.hasData page.host = true → page.now < time + 300000
      ∨ page.host.state.configured = true)
    : Steady (page.touchAt options time) := by
  unfold Page.touchAt
  apply Steady.check
  . exact h.same rfl rfl rfl id
  . unfold Calm Page.Live
    dsimp only
    split
    . next hdata =>
      apply (htime hdata).imp_left
      omega
    . exact .inl (by simp)

theorem Steady.touch (h : Steady page) : Steady (page.touch options) :=
  h.touchAt fun _ => .inl (by omega)

theorem KeepsRetry.calm {event : Event} (h : KeepsRetry page event) (hinit : event ≠ .init)
    (hreads : readsDeadline page event = true) : Calm page := by
  rcases h with hconfigured | rfl | ⟨-, hexpires, -⟩
  . exact .inr hconfigured
  . exact absurd rfl hinit
  . by_contra hcalm
    exact hexpires ⟨hreads, fun hlive => absurd (.inl hlive) hcalm⟩

theorem KeepsRetry.configured {event : Event} (h : KeepsRetry page event) (hinit : event ≠ .init)
    (hdiscard : isDiscard page event = true) : page.host.state.configured = true := by
  rcases h with hconfigured | rfl | ⟨hkept, -, -⟩
  . exact hconfigured
  . exact absurd rfl hinit
  . rw [hkept] at hdiscard
    cases hdiscard

theorem Steady.activity (h : Steady page) {isTrusted : Bool}
    (hkeeps : KeepsRetry page (.session (.activity isTrusted)))
    : Steady (page.activity options isTrusted) := by
  unfold Page.activity
  split
  . exact h
  . next hactive =>
    have hcalm := hkeeps.calm (by simp) (by simpa [readsDeadline, and_assoc] using hactive)
    split
    . next hexpired => exact h.expire hcalm hexpired
    . next hexpired =>
      rcases Page.expire_eq_false hexpired with ⟨rfl, -⟩
      exact Steady.same h.touch rfl rfl rfl id

theorem Steady.microtask (h : Steady page) {index : Nat}
    (hkeeps : KeepsRetry page (.session (.microtask index)))
    : Steady (page.microtask options index) := by
  unfold Page.microtask
  split
  . exact h
  . next generation time htask =>
    have herased : Steady { page with microtasks := page.microtasks.eraseIdx index } :=
      h.same rfl rfl rfl id
    dsimp only
    split
    . exact herased
    . next hcurrent =>
      push Not at hcurrent
      have hreads : readsDeadline page (.session (.microtask index)) = true := by
        simp [readsDeadline, htask, hcurrent.1, hcurrent.2]
      have hcalm := hkeeps.calm (by simp) hreads
      split
      . next hexpired => exact herased.expire hcalm hexpired
      . next hexpired =>
        rcases Page.expire_eq_false hexpired with ⟨rfl, hlive⟩
        apply herased.touchAt
        intro hdata
        rcases hkeeps with hconfigured | hinit | ⟨-, hexpires, -⟩
        . exact .inr hconfigured
        . cases hinit
        . left
          by_contra htime
          apply hexpires
          refine ⟨hreads, fun _ => ?_⟩
          have hpassed : time + 300000 ≤ page.now := by
            dsimp only at htime
            omega
          simp only [isOverdue, htask, Option.any_some, hpassed, decide_true, Bool.and_true]
          exact hdata

theorem Steady.keep (h : Steady page) {isTrusted : Bool}
    (hkeeps : KeepsRetry page (.session (.keep isTrusted))) : Steady (page.keep options isTrusted) := by
  unfold Page.keep
  split
  . exact h
  . next hactive =>
    have hcalm := hkeeps.calm (by simp) (by simpa [readsDeadline] using hactive)
    split
    . next hexpired => exact h.expire hcalm hexpired
    . next hexpired => exact (h.expire hcalm hexpired).touch

theorem Steady.visibility (h : Steady page) {hidden : Bool}
    (hkeeps : KeepsRetry page (.session (.visibility hidden)))
    : Steady (page.visibility options hidden) := by
  have hmoved : Steady { page with hidden } := h.same rfl rfl rfl id
  unfold Page.visibility
  dsimp only
  split
  . exact hmoved
  . next hattached =>
    rw [show options.hideImmediately page.host = false from rfl, Bool.and_false]
    rw [if_neg (by simp)]
    split
    . next hshown =>
      apply hmoved.check
      exact hkeeps.calm (by simp) (by simpa [readsDeadline, hshown] using hattached)
    . exact hmoved

theorem Steady.fire (h : Steady page) (hkeeps : KeepsRetry page (.session .timer))
    : Steady (page.fire options) := by
  unfold Page.fire
  split
  . exact h
  . next due htimer =>
    split
    . next hdue =>
      apply h.check
      exact hkeeps.calm (by simp) (by simp [readsDeadline, htimer, hdue])
    . exact h

theorem Steady.dispatch (h : Steady page) {event : SessionEvent}
    (hkeeps : KeepsRetry page (.session event)) : Steady (page.dispatch options event) := by
  cases event with
  | tick elapsed => exact h.same rfl rfl rfl id
  | timer => exact h.fire hkeeps
  | activity isTrusted => exact h.activity hkeeps
  | microtask index => exact h.microtask hkeeps
  | keep isTrusted => exact h.keep hkeeps
  | visibility hidden => exact h.visibility hkeeps
  | pagehide =>
    change Steady (page.leave options)
    unfold Page.leave
    split
    . next hattached => exact h.clear (hkeeps.configured (by simp) hattached) .navigation
    . exact h
  | pageshow persisted =>
    change Steady (page.restore options persisted)
    unfold Page.restore
    split
    . next hattached => exact h.clear (hkeeps.configured (by simp) hattached) .navigation
    . exact h
  | clear => exact h.clear (hkeeps.configured (by simp) rfl) .manual
  | destroy =>
    have hdetached : Steady { page with attached := false } := h.same rfl rfl rfl id
    exact hdetached.clear (hkeeps.configured (by simp) rfl) .navigation

theorem Sound.init (h : Sound page) : Steady (init page) := by
  have hexpired : Sound (page.expire options).2 := h.expire
  unfold Composer.init Page.ticket
  dsimp only
  constructor
  . apply Sound.await
    . exact hexpired.same rfl rfl rfl
    . exact hexpired.session
  . exact .inl ⟨_, _, Promises.waiting_suspend.mpr (.inl ⟨rfl, rfl⟩), rfl⟩

theorem Steady.addFiles (h : Steady page) {files : List LocalFile}
    (hkeeps : KeepsRetry page (.addFiles files)) : Steady (addFiles files page) := by
  unfold Composer.addFiles
  split
  . exact h
  . next hbusy =>
    have hcalm := hkeeps.calm (by simp) (by simpa [readsDeadline] using hbusy)
    split
    . next hexpired => exact h.expire hcalm hexpired
    . next hexpired =>
      rcases Page.expire_eq_false hexpired with ⟨rfl, -⟩
      dsimp only
      split
      . exact h.setState fun _ => .inr (by simp)
      . next hlimits =>
        apply Steady.touch
        rcases hkeeps with hconfigured | hinit | ⟨-, -, hfiles⟩
        . exact h.setState fun _ => .inl hconfigured
        . cases hinit
        . have hconnecting := hfiles (by simp [takesFiles, hbusy, hlimits])
          exact {
            toSound := h.toSound.same rfl rfl rfl
            retryable := .inl hconnecting }

theorem Steady.submit (h : Steady page) : Steady (submit page) := by
  unfold Composer.submit
  split
  . exact h
  . next hready =>
    have hconfigured : page.host.state.configured = true := by
      simp only [Bool.or_eq_true, Bool.not_eq_true', not_or, Bool.not_eq_false] at hready
      exact hready.2
    split
    . next hexpired => exact h.expire (.inr hconfigured) hexpired
    . next hexpired =>
      rcases Page.expire_eq_false hexpired with ⟨rfl, -⟩
      split
      . exact h
      . dsimp only
        split
        . exact h.setState fun _ => .inl hconfigured
        . rw [Page.touch_of_hasData (by simp [options, Composer.setState, modifyState, Page.modify]),
            Page.ticket_of_live (fun hpassed => absurd hpassed.2 (by simp [Composer.setState, Page.modify]))]
          apply Steady.await
          . exact h.same rfl rfl rfl fun _ => .inl hconfigured
          . exact h.session

theorem Steady.copyLink (h : Steady page) (hcalm : Calm page) : Steady (copyLink page) := by
  unfold Composer.copyLink
  split
  . next hexpired => exact h.expire hcalm hexpired
  . next hexpired =>
    rcases Page.expire_eq_false hexpired with ⟨rfl, hlive⟩
    split
    . exact h
    . rw [Page.ticket_of_live hlive]
      apply h.await
      exact h.session

theorem Steady.revoke (h : Steady page) (hcalm : Calm page) : Steady (revoke page) := by
  unfold Composer.revoke
  split
  . next hexpired => exact h.expire hcalm hexpired
  . next hexpired =>
    rcases Page.expire_eq_false hexpired with ⟨rfl, hlive⟩
    split
    . exact h
    . dsimp only
      split
      . exact h
      . rw [Page.ticket_of_live hlive]
        apply (h.setState id).await
        exact h.session

-- The `finally` blocks check the ticket again on the page that the first check leaves.
theorem calm_of_valid (hcalm : ticket.generation = page.session.generation → Calm page) {isValid : Bool}
    (hvalid : page.valid options ticket = (isValid, page'))
    : ticket.generation = page'.session.generation → Calm page' := by
  unfold Page.valid at hvalid
  split at hvalid
  . cases hvalid
    exact hcalm
  . next hgeneration =>
    split at hvalid
    . next hexpired =>
      cases hvalid
      rw [Page.expire_eq_true hexpired, not_not.mp hgeneration]
      intro hcleared
      exact absurd hcleared (Nat.ne_of_lt (Nat.lt_succ_self _))
    . next hexpired =>
      rcases Page.expire_eq_false hexpired with ⟨rfl, -⟩
      cases hvalid
      exact hcalm

theorem Steady.ifValid (h : Steady page)
    (hcalm : ticket.generation = page.session.generation → Calm page)
    (hf : Offered page.host.state → Offered (f page.host.state))
    : Steady (match page.valid options ticket with
      | (false, page) => page
      | (true, page) => Composer.setState f page) := by
  split
  . next hvalid => exact h.valid hcalm hvalid
  . next hvalid =>
    rcases Page.valid_eq_true hvalid with ⟨rfl, -, -⟩
    exact h.setState hf

theorem Steady.submitFinally (h : Steady page)
    (hcalm : ticket.generation = page.session.generation → Calm page) (packet : Option Bytes)
    : Steady (submitFinally ticket packet page) := by
  unfold Composer.submitFinally
  cases packet with
  | none => exact h.ifValid hcalm id
  | some bytes => exact (h.emit (.fill bytes)).ifValid hcalm id

theorem Steady.revokeFinally (h : Steady page)
    (hcalm : ticket.generation = page.session.generation → Calm page)
    : Steady (revokeFinally ticket page) :=
  h.ifValid hcalm id

theorem Steady.submitFailed (h : Steady page)
    (hcalm : ticket.generation = page.session.generation → Calm page) (packet : Option Bytes)
    (error : Failure) : Steady (submitFailed ticket packet error page) := by
  unfold Composer.submitFailed
  split
  . next hvalid => exact (h.valid hcalm hvalid).submitFinally (calm_of_valid hcalm hvalid) packet
  . next hvalid =>
    rcases Page.valid_eq_true hvalid with ⟨rfl, hlive, -⟩
    apply Steady.submitFinally
    . apply Steady.emit
      apply h.setState
      exact fun _ => .inr (errorText_ne error)
    . exact fun _ => .inl hlive

theorem Steady.submitSealed (h : Steady page)
    (hcalm : ticket.generation = page.session.generation → Calm page)
    (hsignal : ticket.signal = ticket.generation) (sealed : Sealed)
    : Steady (submitSealed ticket sealed page) := by
  unfold Composer.submitSealed
  split
  . next hvalid => exact (h.valid hcalm hvalid).submitFinally (calm_of_valid hcalm hvalid) _
  . next hvalid =>
    apply ((h.valid hcalm hvalid).setState id).await
    exact hsignal

theorem Steady.submitChallenge (h : Steady page)
    (hcalm : ticket.generation = page.session.generation → Calm page)
    (hsignal : ticket.signal = ticket.generation) (sealed : Sealed) (challenge : Challenge)
    : Steady (submitChallenge ticket sealed challenge page) := by
  unfold Composer.submitChallenge
  split
  . next hvalid => exact (h.valid hcalm hvalid).submitFinally (calm_of_valid hcalm hvalid) _
  . next hvalid =>
    apply (h.valid hcalm hvalid).await
    exact hsignal

theorem Steady.submitProof (h : Steady page)
    (hcalm : ticket.generation = page.session.generation → Calm page)
    (hsignal : ticket.signal = ticket.generation) (sealed : Sealed) (challenge : Challenge)
    (nonce : JsString) (packet : Bytes)
    : Steady (submitProof ticket sealed challenge nonce packet page) := by
  unfold Composer.submitProof
  split
  . next hvalid => exact (h.valid hcalm hvalid).submitFinally (calm_of_valid hcalm hvalid) _
  . next hvalid =>
    apply ((h.valid hcalm hvalid).setState id).await
    exact hsignal

theorem Steady.submitReceipt (h : Steady page)
    (hcalm : ticket.generation = page.session.generation → Calm page) (sealed : Sealed)
    (packet : Bytes) (receipt : Receipt)
    : Steady (submitReceipt ticket sealed packet receipt page) := by
  unfold Composer.submitReceipt
  split
  . next hvalid => exact (h.valid hcalm hvalid).submitFinally (calm_of_valid hcalm hvalid) _
  . next hvalid =>
    rcases Page.valid_eq_true hvalid with ⟨rfl, hlive, -⟩
    split
    . exact h.submitFailed hcalm _ _
    . apply Steady.submitFinally
      . exact h.same rfl rfl rfl id
      . exact fun _ => .inl hlive

theorem Steady.revoked (h : Steady page)
    (hcalm : ticket.generation = page.session.generation → Calm page)
    : Steady (revoked ticket page) := by
  unfold Composer.revoked
  split
  . next hvalid => exact (h.valid hcalm hvalid).revokeFinally (calm_of_valid hcalm hvalid)
  . next hvalid =>
    rcases Page.valid_eq_true hvalid with ⟨rfl, hlive, -⟩
    apply Steady.revokeFinally
    . exact h.same rfl rfl rfl id
    . exact fun _ => .inl hlive

theorem Steady.revokeFailed (h : Steady page)
    (hcalm : ticket.generation = page.session.generation → Calm page) (error : Failure)
    : Steady (revokeFailed ticket error page) := by
  unfold Composer.revokeFailed
  split
  . next hvalid => exact (h.valid hcalm hvalid).revokeFinally (calm_of_valid hcalm hvalid)
  . next hvalid =>
    rcases Page.valid_eq_true hvalid with ⟨rfl, hlive, -⟩
    apply Steady.revokeFinally
    . exact h.setState fun _ => .inr (errorText_ne error)
    . exact fun _ => .inl hlive

-- The answer to a request for the configuration, which only a ticket of another session ignores.
theorem Sound.answered (h : Sound page) (hsignal : ticket.signal = ticket.generation)
    (hcalm : ticket.generation = page.session.generation → Calm page)
    (hstale : ticket.generation ≠ page.session.generation → Steady page)
    (hf : Offered (f page.host.state))
    : Steady (match page.valid options ticket with
      | (false, page) => page
      | (true, page) => Composer.setState f page) := by
  by_cases hcurrent : ticket.generation = page.session.generation
  . by_cases hlive : page.Live
    . rw [Page.valid_of_live hcurrent (hsignal.trans (hcurrent.trans h.session.symm)) hlive]
      exact {
        toSound := h.same rfl rfl rfl
        retryable := .inr hf }
    . rw [Page.valid_of_expired hcurrent hlive]
      exact {
        toSound := h.clear .expired
        retryable := .inr (.inl ((hcalm hcurrent).resolve_left hlive)) }
  . rw [Page.valid_of_stale hcurrent]
    exact hstale hcurrent

theorem Steady.settle (h : Steady page) {number : Nat} {result : Result}
    (hkeeps : KeepsRetry page (.settle number result)) : Steady (settle number result page) := by
  unfold Composer.settle
  split
  . exact h
  . next resume hbound =>
    rcases Option.bind_eq_some_iff.mp hbound with ⟨continuation, hwaiting, hresume⟩
    have hcalm : continuation.ticket.generation = page.session.generation → Calm page := by
      intro hcurrent
      apply hkeeps.calm (by simp)
      simp [readsDeadline, hwaiting, hresume, hcurrent]
    have hsound := h.toSound.settle number
    have hsignal := h.tickets hwaiting
    have hpopped : (∀ ticket, continuation = .init ticket → ticket.generation ≠ page.session.generation)
        → Steady (page.modify fun composer =>
            { composer with promises := composer.promises.settle number }) := by
      intro hother
      refine ⟨hsound, h.retryable.imp_left ?_⟩
      rintro ⟨pending, ticket, hpending, hcurrent⟩
      refine ⟨pending, ticket, Promises.waiting_settle.mpr ⟨?_, hpending⟩, hcurrent⟩
      rintro rfl
      rw [hwaiting, Option.some.injEq] at hpending
      exact hother ticket hpending hcurrent
    have hother : (∀ ticket, continuation ≠ .init ticket)
        → Steady (page.modify fun composer =>
            { composer with promises := composer.promises.settle number }) :=
      fun hother => hpopped fun ticket hinit => absurd hinit (hother ticket)
    unfold resume? at hresume
    split at hresume
    all_goals cases hresume
    . exact hsound.answered hsignal hcalm (fun hstale => hpopped fun _ hinit => by cases hinit; exact hstale)
        (.inl rfl)
    . exact hsound.answered hsignal hcalm (fun hstale => hpopped fun _ hinit => by cases hinit; exact hstale)
        (.inr (errorText_ne _))
    . exact (hother (by simp)).submitSealed hcalm hsignal _
    . exact (hother (by simp)).submitFailed hcalm _ _
    . exact (hother (by simp)).submitChallenge hcalm hsignal _ _
    . exact (hother (by simp)).submitFailed hcalm _ _
    . exact (hother (by simp)).submitProof hcalm hsignal _ _ _ _
    . exact (hother (by simp)).submitFailed hcalm _ _
    . exact (hother (by simp)).submitReceipt hcalm _ _ _
    . exact (hother (by simp)).submitFailed hcalm _ _
    . exact (hother (by simp)).ifValid hcalm id
    . exact (hother (by simp)).ifValid hcalm id
    . exact (hother (by simp)).revoked hcalm
    . exact (hother (by simp)).revokeFailed hcalm _

theorem Steady.step (h : Steady page) {event : Event} (hkeeps : KeepsRetry page event)
    : Steady (step page event) := by
  have hemitted : Steady (page.emit (.event event)) := h.emit _
  unfold Composer.step
  cases event with
  | session event => exact hemitted.dispatch hkeeps
  | init => exact hemitted.init
  | edit =>
    change Steady (edit _)
    unfold Composer.edit
    split
    . exact hemitted
    . exact hemitted.setState id
  | addFiles files => exact hemitted.addFiles hkeeps
  | removeFile index =>
    change Steady (removeFile index _)
    unfold Composer.removeFile
    split
    . exact hemitted
    . exact hemitted.setState id
  | submit => exact hemitted.submit
  | copyLink => exact hemitted.copyLink (hkeeps.calm (by simp) rfl)
  | revoke => exact hemitted.revoke (hkeeps.calm (by simp) rfl)
  | settle number result => exact hemitted.settle hkeeps
  | _ => exact hemitted.setState id

theorem steady_init (origin : JsString) (now : Nat)
    : Steady (Composer.step (mount origin now) .init) := by
  have hmounted : Sound ((mount origin now).emit (.event .init)) :=
    (sound_mount origin now).same rfl rfl rfl
  exact hmounted.init

-- A composer that asks for its configuration at mount can ask again whenever it has none.
theorem retryable_run (origin : JsString) (now : Nat) {events : List Event}
    (h : Runs.Along Composer.step KeepsRetry (Composer.step (mount origin now) .init) events)
    : Retryable (run (mount origin now) (.init :: events)) := by
  have hsteady : Steady (events.foldl Composer.step (Composer.step (mount origin now) .init)) :=
    Runs.invariant (fun h hkeeps => Steady.step h hkeeps) (steady_init origin now) h
  exact hsteady.retryable.resolve_left

def exampleRefused : List Event := [.text [65], .settle 0 (.rejected .otherError), .edit]

theorem retryable_run_exampleRefused
    : Retryable (run (mount [] 0) (.init :: exampleRefused)) := by
  apply retryable_run
  have hlive : ((Composer.step (Composer.step (mount [] 0) .init) (.text [65]))).Live :=
    fun hpassed => hpassed.1 rfl
  refine ⟨.inr (.inr ⟨rfl, ?_, ?_⟩), .inr (.inr ⟨rfl, ?_, ?_⟩), .inr (.inr ⟨rfl, ?_, ?_⟩), trivial⟩
  . exact fun hexpires => Bool.noConfusion hexpires.1
  . exact fun hfiles => Bool.noConfusion hfiles
  . exact fun hexpires => Bool.noConfusion (hexpires.2 hlive)
  . exact fun hfiles => Bool.noConfusion hfiles
  . exact fun hexpires => Bool.noConfusion hexpires.1
  . exact fun hfiles => Bool.noConfusion hfiles

-- A clear cancels the request of the mount and leaves no error.
theorem not_retryable_clear
    : ¬∀ events, Retryable (run (mount [] 0) (.init :: events)) := by
  intro h
  have hcleared := h [.session .clear]
  have hconnecting : ¬Connecting (run (mount [] 0) [.init, .session .clear]) := by
    rintro ⟨number, ticket, hwaiting, hcurrent⟩
    have hasked : (Promises.empty.suspend (Continuation.init ⟨0, 0⟩)).waiting number
        = some (.init ticket) := hwaiting
    rcases Promises.waiting_suspend.mp hasked with ⟨-, hinit⟩ | ⟨-, hempty⟩
    . cases hinit
      cases hcurrent
    . cases hempty
  rcases hcleared hconnecting with hconfigured | herror
  . cases hconfigured
  . exact herror rfl

end

end Composer

end Web
