import Erase.Web.Retry

/-!
The link, the receipt and the busy flag of a composer. They change at different points of a submission and
of a revocation, and are coherent wherever a method suspends.
-/

namespace Web

namespace Composer

def Continuation.isSubmission : Continuation → Bool
  | .submitSealed _ => true
  | .submitChallenge _ _ => true
  | .submitProof _ _ _ => true
  | .submitReceipt _ _ _ => true
  | _ => false

def Continuation.isOperation : Continuation → Bool
  | .revoke _ => true
  | continuation => continuation.isSubmission

-- The package that a suspended submission has sealed.
def Continuation.sealed? : Continuation → Option Sealed
  | .submitChallenge _ sealed => some sealed
  | .submitProof _ sealed _ => some sealed
  | .submitReceipt _ sealed _ => some sealed
  | _ => none

-- A submission or a revocation is suspended under `number`, and its ticket is not stale.
def Operating (page : ComposerPage) (number : Nat) : Prop :=
  ∃ continuation, page.host.promises.waiting number = some continuation
    ∧ continuation.isOperation = true
    ∧ continuation.ticket.generation = page.session.generation

def AsksToSeal (trace : List (Nat × Entry)) (number : Nat) : Prop :=
  ∃ generation text files ttl views passphrase,
    (generation, .call number (.seal text files ttl views passphrase)) ∈ trace

-- The worker has answered a request to seal with the package.
def Seals (trace : List (Nat × Entry)) (sealed : Sealed) : Prop :=
  ∃ number generation, AsksToSeal trace number
    ∧ (generation, .event (.settle number (.sealed sealed))) ∈ trace

-- The composer shows a link exactly when it can revoke the package behind it.
structure Bonded (origin : JsString) (page : ComposerPage) : Prop extends Sound page where
  served : page.host.origin = origin
  past : ∀ {number continuation}, page.host.promises.waiting number = some continuation
    → continuation.ticket.generation ≤ page.session.generation
  canRevoke : page.host.state.canRevoke = page.host.receipt.isSome
  unlinked : page.host.receipt = none → page.host.state.link = []
  linked : ∀ {id token}, page.host.receipt = some (id, token)
    → ∃ sealed, Seals page.trace sealed ∧ sealed.id = id ∧ sealed.revokeToken = token
      ∧ page.host.state.link = shareLink origin sealed
  sealing : ∀ {number ticket}, page.host.promises.waiting number = some (.submitSealed ticket)
    → AsksToSeal page.trace number
  carried : ∀ {number continuation sealed}, page.host.promises.waiting number = some continuation
    → continuation.sealed? = some sealed → Seals page.trace sealed
  single : ∀ {number other}, Operating page number → Operating page other → number = other

structure Coherent (origin : JsString) (page : ComposerPage) : Prop extends Bonded origin page where
  busy : page.host.state.busy = true ↔ ∃ number, Operating page number

-- The operation that holds the busy flag is running.
structure Running (origin : JsString) (page : ComposerPage) : Prop extends Bonded origin page where
  busy : page.host.state.busy = true
  idle : ∀ number, ¬Operating page number

-- What holds as soon as the continuation of an operation runs.
structure Resumed (origin : JsString) (ticket : Ticket) (page : ComposerPage) : Prop where
  signal : ticket.signal = ticket.generation
  running : ticket.generation = page.session.generation → Running origin page
  stale : ticket.generation ≠ page.session.generation → Coherent origin page

section

variable {origin : JsString} {page page' : ComposerPage} {ticket : Ticket}
    {trace trace' : List (Nat × Entry)}
variable {f : ComposerState → ComposerState}

theorem AsksToSeal.mono {number : Nat} (h : AsksToSeal trace number) (htrace : trace ⊆ trace')
    : AsksToSeal trace' number := by
  rcases h with ⟨generation, text, files, ttl, views, passphrase, hmem⟩
  exact ⟨generation, text, files, ttl, views, passphrase, htrace hmem⟩

theorem Seals.mono {sealed : Sealed} (h : Seals trace sealed) (htrace : trace ⊆ trace')
    : Seals trace' sealed := by
  rcases h with ⟨number, generation, hasks, hmem⟩
  exact ⟨number, generation, hasks.mono htrace, htrace hmem⟩

theorem operating_same (hgeneration : page'.session.generation = page.session.generation)
    (hpromises : page'.host.promises = page.host.promises) {number : Nat}
    : Operating page' number ↔ Operating page number := by
  unfold Operating
  rw [hgeneration, hpromises]

theorem Bonded.same (h : Bonded origin page)
    (hgeneration : page'.session.generation = page.session.generation)
    (hcontroller : page'.session.controller = page.session.controller)
    (hpromises : page'.host.promises = page.host.promises)
    (hreceipt : page'.host.receipt = page.host.receipt) (horigin : page'.host.origin = page.host.origin)
    (hcanRevoke : page'.host.state.canRevoke = page.host.state.canRevoke)
    (hlink : page'.host.state.link = page.host.state.link) (htrace : page.trace ⊆ page'.trace)
    : Bonded origin page' where
  toSound := h.toSound.same hgeneration hcontroller hpromises
  served := horigin.trans h.served
  past hwaiting := by
    rw [hpromises] at hwaiting
    rw [hgeneration]
    exact h.past hwaiting
  canRevoke := by
    rw [hcanRevoke, hreceipt]
    exact h.canRevoke
  unlinked := by
    rw [hreceipt, hlink]
    exact h.unlinked
  linked hsome := by
    rw [hreceipt] at hsome
    rw [hlink]
    rcases h.linked hsome with ⟨sealed, hseals, hid, htoken, hshown⟩
    exact ⟨sealed, hseals.mono htrace, hid, htoken, hshown⟩
  sealing hwaiting := by
    rw [hpromises] at hwaiting
    exact (h.sealing hwaiting).mono htrace
  carried hwaiting hsealed := by
    rw [hpromises] at hwaiting
    exact (h.carried hwaiting hsealed).mono htrace
  single hleft hright :=
    h.single ((operating_same hgeneration hpromises).mp hleft)
      ((operating_same hgeneration hpromises).mp hright)

theorem Bonded.setState (h : Bonded origin page) (hcanRevoke : (f page.host.state).canRevoke
      = page.host.state.canRevoke) (hlink : (f page.host.state).link = page.host.state.link)
    : Bonded origin (setState f page) :=
  h.same rfl rfl rfl rfl rfl hcanRevoke hlink (List.Subset.refl _)

theorem Bonded.emit (h : Bonded origin page) (entry : Entry) : Bonded origin (page.emit entry) :=
  h.same rfl rfl rfl rfl rfl rfl rfl (List.subset_append_left _ _)

theorem Coherent.setState (h : Coherent origin page) (hcanRevoke : (f page.host.state).canRevoke
      = page.host.state.canRevoke) (hlink : (f page.host.state).link = page.host.state.link)
    (hbusy : (f page.host.state).busy = page.host.state.busy) : Coherent origin (setState f page) where
  toBonded := h.toBonded.setState hcanRevoke hlink
  busy := (Eq.congr_left hbusy).trans h.busy

theorem Coherent.emit (h : Coherent origin page) (entry : Entry)
    : Coherent origin (page.emit entry) where
  toBonded := h.toBonded.emit entry
  busy := h.busy

theorem Running.setState (h : Running origin page) (hcanRevoke : (f page.host.state).canRevoke
      = page.host.state.canRevoke) (hlink : (f page.host.state).link = page.host.state.link)
    (hbusy : (f page.host.state).busy = page.host.state.busy) : Running origin (setState f page) where
  toBonded := h.toBonded.setState hcanRevoke hlink
  busy := hbusy.trans h.busy
  idle := h.idle

theorem Running.emit (h : Running origin page) (entry : Entry) : Running origin (page.emit entry) where
  toBonded := h.toBonded.emit entry
  busy := h.busy
  idle := h.idle

-- After a clear every ticket is stale.
theorem Bonded.clear (h : Bonded origin page) (reason : ClearReason)
    : Coherent origin (page.clear options reason) := by
  have hstale : ∀ number, ¬Operating (page.clear options reason) number := by
    rintro number ⟨continuation, hwaiting, -, hgeneration⟩
    have hpast := h.past hwaiting
    have hnext : continuation.ticket.generation = page.session.generation + 1 := hgeneration
    omega
  have htrace : page.trace ⊆ (page.clear options reason).trace := List.subset_append_left _ _
  exact {
    toSound := h.toSound.clear reason
    served := h.served
    past := fun hwaiting => Nat.le_succ_of_le (h.past hwaiting)
    canRevoke := rfl
    unlinked := fun _ => rfl
    linked := fun hsome => by cases hsome
    sealing := fun hwaiting => (h.sealing hwaiting).mono htrace
    carried := fun hwaiting hsealed => (h.carried hwaiting hsealed).mono htrace
    single := fun hleft => absurd hleft (hstale _)
    busy := ⟨fun hbusy => (Bool.false_ne_true hbusy).elim,
      fun ⟨number, hoperating⟩ => absurd hoperating (hstale number)⟩ }

theorem coherent_invariant : options.Invariant (Coherent origin) where
  clear reason h := h.toBonded.clear reason
  ambient _ _ _ _ h := {
    toBonded := h.toBonded.same rfl rfl rfl rfl rfl rfl rfl (List.Subset.refl _)
    busy := h.busy }
  schedule _ _ h := {
    toBonded := h.toBonded.same rfl rfl rfl rfl rfl rfl rfl (List.Subset.refl _)
    busy := h.busy }
  warning _ h := {
    toBonded := h.toBonded.same rfl rfl rfl rfl rfl rfl rfl (List.Subset.refl _)
    busy := h.busy }
  clock _ h := {
    toBonded := h.toBonded.same rfl rfl rfl rfl rfl rfl rfl (List.Subset.refl _)
    busy := h.busy }

theorem coherent_mount (origin : JsString) (now : Nat) : Coherent origin (mount origin now) where
  toSound := sound_mount origin now
  served := rfl
  past hwaiting := by cases hwaiting
  canRevoke := rfl
  unlinked _ := rfl
  linked hsome := by cases hsome
  sealing hwaiting := by cases hwaiting
  carried hwaiting := by cases hwaiting
  single := fun ⟨_, hwaiting, _⟩ => by cases hwaiting
  busy := ⟨fun hbusy => (Bool.false_ne_true hbusy).elim, fun ⟨_, _, hwaiting, _⟩ => by cases hwaiting⟩

-- Suspending leaves the promises that wait already as they are.
theorem operating_await {request : Request} {continuation : Continuation} {number : Nat}
    (h : Operating (await request continuation page) number)
    : number = page.host.promises.next ∧ continuation.isOperation = true
      ∨ Operating page number := by
  rcases h with ⟨suspended, hwaiting, hkind, hgeneration⟩
  rcases Promises.waiting_suspend.mp hwaiting with ⟨hnumber, rfl⟩ | ⟨-, hwaiting⟩
  . exact .inl ⟨hnumber, hkind⟩
  . exact .inr ⟨suspended, hwaiting, hkind, hgeneration⟩

theorem Operating.await (h : Bonded origin page) {number : Nat} (hoperating : Operating page number)
    (request : Request) (continuation : Continuation)
    : Operating (await request continuation page) number := by
  rcases hoperating with ⟨suspended, hwaiting, hkind, hgeneration⟩
  refine ⟨suspended, Promises.waiting_suspend.mpr (.inr ⟨?_, hwaiting⟩), hkind, hgeneration⟩
  exact (h.numbered number suspended hwaiting).ne

theorem Bonded.await (h : Bonded origin page) {request : Request} {continuation : Continuation}
    (hgeneration : continuation.ticket.generation = page.session.generation)
    (hsignal : continuation.ticket.signal = continuation.ticket.generation)
    (hidle : continuation.isOperation = true → ∀ number, ¬Operating page number)
    (hsealing : ∀ ticket, continuation = .submitSealed ticket
      → ∃ text files ttl views passphrase, request = .seal text files ttl views passphrase)
    (hcarried : ∀ sealed, continuation.sealed? = some sealed → Seals page.trace sealed)
    : Bonded origin (await request continuation page) where
  toSound := h.toSound.await hsignal request
  served := h.served
  past hwaiting := by
    rcases Promises.waiting_suspend.mp hwaiting with ⟨-, rfl⟩ | ⟨-, hwaiting⟩
    . exact hgeneration.le
    . exact h.past hwaiting
  canRevoke := h.canRevoke
  unlinked := h.unlinked
  linked hsome := by
    rcases h.linked hsome with ⟨sealed, hseals, hid, htoken, hlink⟩
    exact ⟨sealed, hseals.mono (List.subset_append_left _ _), hid, htoken, hlink⟩
  sealing := by
    intro number ticket hwaiting
    rcases Promises.waiting_suspend.mp hwaiting with ⟨rfl, hcontinuation⟩ | ⟨-, hwaiting⟩
    . rcases hsealing ticket hcontinuation.symm with ⟨text, files, ttl, views, passphrase, rfl⟩
      exact ⟨page.session.generation, text, files, ttl, views, passphrase,
        List.mem_append_right _ (List.mem_singleton_self _)⟩
    . exact (h.sealing hwaiting).mono (List.subset_append_left _ _)
  carried hwaiting hsealed := by
    rcases Promises.waiting_suspend.mp hwaiting with ⟨-, rfl⟩ | ⟨-, hwaiting⟩
    . exact (hcarried _ hsealed).mono (List.subset_append_left _ _)
    . exact (h.carried hwaiting hsealed).mono (List.subset_append_left _ _)
  single hleft hright := by
    rcases operating_await hleft with ⟨rfl, hkind⟩ | hold
    . rcases operating_await hright with ⟨rfl, -⟩ | hold
      . rfl
      . exact absurd hold (hidle hkind _)
    . rcases operating_await hright with ⟨-, hkind⟩ | hold'
      . exact absurd hold (hidle hkind _)
      . exact h.single hold hold'

-- A request for the configuration and a copy hold no flag.
theorem Coherent.await (h : Coherent origin page) {request : Request} {continuation : Continuation}
    (hgeneration : continuation.ticket.generation = page.session.generation)
    (hsignal : continuation.ticket.signal = page.session.controller)
    (hkind : continuation.isOperation = false) : Coherent origin (await request continuation page) where
  toBonded := by
    have hoperation : ¬continuation.isOperation = true := by
      rw [hkind]
      exact Bool.false_ne_true
    apply h.toBonded.await hgeneration
    . rw [hsignal, hgeneration, h.session]
    . exact fun htrue => absurd htrue hoperation
    . rintro ticket rfl
      exact absurd rfl hoperation
    . intro sealed hsealed
      cases continuation with
      | init ticket => cases hsealed
      | copyLink ticket => cases hsealed
      | _ => exact absurd rfl hoperation
  busy := by
    apply h.busy.trans
    constructor
    . rintro ⟨number, hoperating⟩
      exact ⟨number, hoperating.await h.toBonded request continuation⟩
    . rintro ⟨number, hoperating⟩
      rcases operating_await hoperating with ⟨-, htrue⟩ | hold
      . rw [hkind] at htrue
        cases htrue
      . exact ⟨number, hold⟩

theorem Running.await (h : Running origin page) {request : Request} {continuation : Continuation}
    (hgeneration : continuation.ticket.generation = page.session.generation)
    (hsignal : continuation.ticket.signal = continuation.ticket.generation)
    (hkind : continuation.isOperation = true)
    (hsealing : ∀ ticket, continuation = .submitSealed ticket
      → ∃ text files ttl views passphrase, request = .seal text files ttl views passphrase)
    (hcarried : ∀ sealed, continuation.sealed? = some sealed → Seals page.trace sealed)
    : Coherent origin (await request continuation page) where
  toBonded := h.toBonded.await hgeneration hsignal (fun _ => h.idle) hsealing hcarried
  busy := by
    refine ⟨fun _ => ⟨page.host.promises.next, continuation, ?_, hkind, hgeneration⟩, fun _ => h.busy⟩
    exact Promises.waiting_suspend.mpr (.inl ⟨rfl, rfl⟩)

theorem Running.rest (h : Running origin page) (hcanRevoke : (f page.host.state).canRevoke
      = page.host.state.canRevoke) (hlink : (f page.host.state).link = page.host.state.link)
    (hbusy : (f page.host.state).busy = false) : Coherent origin (Composer.setState f page) where
  toBonded := h.toBonded.setState hcanRevoke hlink
  busy := by
    constructor
    . intro htrue
      cases hbusy.symm.trans htrue
    . rintro ⟨number, hoperating⟩
      exact absurd hoperating (h.idle number)

theorem Resumed.valid_false (h : Resumed origin ticket page)
    (hvalid : page.valid options ticket = (false, page'))
    : Coherent origin page' ∧ ticket.generation ≠ page'.session.generation := by
  by_cases hgeneration : ticket.generation = page.session.generation
  . have hrunning := h.running hgeneration
    have hexpired : ¬page.Live := by
      intro hlive
      rw [Page.valid_of_live hgeneration (by rw [h.signal, hgeneration, hrunning.session]) hlive] at hvalid
      cases hvalid
    rw [Page.valid_of_expired hgeneration hexpired] at hvalid
    cases hvalid
    constructor
    . exact hrunning.toBonded.clear .expired
    . rw [hgeneration]
      exact Nat.ne_of_lt (Nat.lt_succ_self _)
  . rw [Page.valid_of_stale hgeneration] at hvalid
    cases hvalid
    exact ⟨h.stale hgeneration, hgeneration⟩

theorem Resumed.signal_eq (h : Resumed origin ticket page) (hgeneration : ticket.generation
      = page.session.generation) : ticket.signal = page.session.controller := by
  rw [h.signal, hgeneration]
  exact (h.running hgeneration).session.symm

theorem Coherent.submitFinally (h : Coherent origin page)
    (hstale : ticket.generation ≠ page.session.generation)
    (packet : Option Bytes) : Coherent origin (submitFinally ticket packet page) := by
  cases packet with
  | none =>
    rw [submitFinally_none hstale]
    exact h
  | some bytes =>
    rw [submitFinally_some hstale]
    exact h.emit _

theorem Running.submitFinally (h : Running origin page)
    (hgeneration : ticket.generation = page.session.generation)
    (hsignal : ticket.signal = page.session.controller) (hlive : page.Live) (packet : Option Bytes)
    : Coherent origin (submitFinally ticket packet page) := by
  have hrest : ∀ page' : ComposerPage, Running origin page'
      → ticket.generation = page'.session.generation → ticket.signal = page'.session.controller
      → page'.Live → Coherent origin (Composer.submitFinally ticket none page') := by
    intro page' h hgeneration hsignal hlive
    unfold Composer.submitFinally
    dsimp only
    rw [Page.valid_of_live hgeneration hsignal hlive]
    exact h.rest rfl rfl rfl
  cases packet with
  | none => exact hrest page h hgeneration hsignal hlive
  | some bytes =>
    rw [submitFinally_fill]
    exact hrest _ (h.emit (.fill bytes)) hgeneration hsignal hlive

theorem Resumed.submitFailed (h : Resumed origin ticket page) (packet : Option Bytes) (error : Failure)
    : Coherent origin (submitFailed ticket packet error page) := by
  unfold Composer.submitFailed
  split
  . next hvalid =>
    rcases h.valid_false hvalid with ⟨hcoherent, hstale⟩
    exact hcoherent.submitFinally hstale packet
  . next hvalid =>
    rcases Page.valid_eq_true hvalid with ⟨rfl, hlive, hgeneration⟩
    apply Running.submitFinally
    . apply Running.emit
      exact (h.running hgeneration).setState rfl rfl rfl
    . exact hgeneration
    . exact h.signal_eq hgeneration
    . exact hlive

theorem Resumed.submitSealed (h : Resumed origin ticket page) (sealed : Sealed)
    (hseals : Seals page.trace sealed)
    : Coherent origin (submitSealed ticket sealed page) := by
  unfold Composer.submitSealed
  split
  . next hvalid =>
    rcases h.valid_false hvalid with ⟨hcoherent, hstale⟩
    exact hcoherent.submitFinally hstale _
  . next hvalid =>
    rcases Page.valid_eq_true hvalid with ⟨rfl, -, hgeneration⟩
    apply ((h.running hgeneration).setState rfl rfl rfl).await
    . exact hgeneration
    . exact h.signal
    . rfl
    . intro ticket hsubmit
      cases hsubmit
    . intro other hsealed
      cases hsealed
      exact hseals

theorem Resumed.submitChallenge (h : Resumed origin ticket page) (sealed : Sealed)
    (challenge : Challenge)
    (hseals : Seals page.trace sealed)
    : Coherent origin (submitChallenge ticket sealed challenge page) := by
  unfold Composer.submitChallenge
  split
  . next hvalid =>
    rcases h.valid_false hvalid with ⟨hcoherent, hstale⟩
    exact hcoherent.submitFinally hstale _
  . next hvalid =>
    rcases Page.valid_eq_true hvalid with ⟨rfl, -, hgeneration⟩
    apply (h.running hgeneration).await
    . exact hgeneration
    . exact h.signal
    . rfl
    . intro ticket hsubmit
      cases hsubmit
    . intro other hsealed
      cases hsealed
      exact hseals

theorem Resumed.submitProof (h : Resumed origin ticket page) (sealed : Sealed) (challenge : Challenge)
    (nonce : JsString) (packet : Bytes) (hseals : Seals page.trace sealed)
    : Coherent origin (submitProof ticket sealed challenge nonce packet page) := by
  unfold Composer.submitProof
  split
  . next hvalid =>
    rcases h.valid_false hvalid with ⟨hcoherent, hstale⟩
    exact hcoherent.submitFinally hstale _
  . next hvalid =>
    rcases Page.valid_eq_true hvalid with ⟨rfl, -, hgeneration⟩
    apply ((h.running hgeneration).setState rfl rfl rfl).await
    . exact hgeneration
    . exact h.signal
    . rfl
    . intro ticket hsubmit
      cases hsubmit
    . intro other hsealed
      cases hsealed
      exact hseals

-- The receipt and the link of a new package replace those of the last one together.
theorem Running.link (h : Running origin page) {sealed : Sealed} (hseals : Seals page.trace sealed)
    (f : ComposerState → ComposerState) (hcanRevoke : (f page.host.state).canRevoke = true)
    (hlink : (f page.host.state).link = shareLink page.host.origin sealed)
    (hbusy : (f page.host.state).busy = page.host.state.busy)
    : Running origin (Composer.setState f (page.modify fun composer =>
        { composer with receipt := some (sealed.id, sealed.revokeToken) })) where
  toSound := h.toSound.same rfl rfl rfl
  served := h.served
  past hwaiting := h.past hwaiting
  canRevoke := hcanRevoke
  unlinked hnone := by cases hnone
  linked hsome := by
    cases hsome
    exact ⟨sealed, hseals, rfl, rfl, by rw [← h.served]; exact hlink⟩
  sealing hwaiting := h.sealing hwaiting
  carried hwaiting hsealed := h.carried hwaiting hsealed
  single hleft hright := h.single hleft hright
  busy := hbusy.trans h.busy
  idle := h.idle

theorem Running.unlink (h : Running origin page) (f : ComposerState → ComposerState)
    (hcanRevoke : (f page.host.state).canRevoke = false) (hlink : (f page.host.state).link = [])
    (hbusy : (f page.host.state).busy = page.host.state.busy)
    : Running origin (Composer.setState f (page.modify fun composer => { composer with receipt := none })) where
  toSound := h.toSound.same rfl rfl rfl
  served := h.served
  past hwaiting := h.past hwaiting
  canRevoke := hcanRevoke
  unlinked _ := hlink
  linked hsome := by cases hsome
  sealing hwaiting := h.sealing hwaiting
  carried hwaiting hsealed := h.carried hwaiting hsealed
  single hleft hright := h.single hleft hright
  busy := hbusy.trans h.busy
  idle := h.idle

theorem Resumed.submitReceipt (h : Resumed origin ticket page) (sealed : Sealed) (packet : Bytes)
    (receipt : Receipt) (hseals : Seals page.trace sealed)
    : Coherent origin (submitReceipt ticket sealed packet receipt page) := by
  unfold Composer.submitReceipt
  split
  . next hvalid =>
    rcases h.valid_false hvalid with ⟨hcoherent, hstale⟩
    exact hcoherent.submitFinally hstale _
  . next hvalid =>
    rcases Page.valid_eq_true hvalid with ⟨rfl, hlive, hgeneration⟩
    split
    . exact h.submitFailed _ _
    . apply Running.submitFinally
      . apply Running.emit
        exact (h.running hgeneration).link hseals _ rfl rfl rfl
      . exact hgeneration
      . exact h.signal_eq hgeneration
      . exact hlive

theorem Coherent.revokeFinally (h : Coherent origin page)
    (hstale : ticket.generation ≠ page.session.generation)
    : Coherent origin (revokeFinally ticket page) := by
  rw [revokeFinally_stale hstale]
  exact h

theorem Running.revokeFinally (h : Running origin page)
    (hgeneration : ticket.generation = page.session.generation)
    (hsignal : ticket.signal = page.session.controller) (hlive : page.Live)
    : Coherent origin (revokeFinally ticket page) := by
  unfold Composer.revokeFinally
  rw [Page.valid_of_live hgeneration hsignal hlive]
  exact h.rest rfl rfl rfl

theorem Resumed.revoked (h : Resumed origin ticket page) : Coherent origin (revoked ticket page) := by
  unfold Composer.revoked
  split
  . next hvalid =>
    rcases h.valid_false hvalid with ⟨hcoherent, hstale⟩
    exact hcoherent.revokeFinally hstale
  . next hvalid =>
    rcases Page.valid_eq_true hvalid with ⟨rfl, hlive, hgeneration⟩
    apply Running.revokeFinally
    . exact (h.running hgeneration).unlink _ rfl rfl rfl
    . exact hgeneration
    . exact h.signal_eq hgeneration
    . exact hlive

theorem Resumed.revokeFailed (h : Resumed origin ticket page) (error : Failure)
    : Coherent origin (revokeFailed ticket error page) := by
  unfold Composer.revokeFailed
  split
  . next hvalid =>
    rcases h.valid_false hvalid with ⟨hcoherent, hstale⟩
    exact hcoherent.revokeFinally hstale
  . next hvalid =>
    rcases Page.valid_eq_true hvalid with ⟨rfl, hlive, hgeneration⟩
    apply Running.revokeFinally
    . exact (h.running hgeneration).setState rfl rfl rfl
    . exact hgeneration
    . exact h.signal_eq hgeneration
    . exact hlive

theorem Coherent.init (h : Coherent origin page) : Coherent origin (init page) := by
  have hticketed := coherent_invariant.ticket h
  unfold Composer.init
  apply Coherent.await
  . exact hticketed.setState rfl rfl rfl
  . rfl
  . rfl
  . rfl

theorem Coherent.ifValid (h : Coherent origin page)
    (hcanRevoke : ∀ state, (f state).canRevoke = state.canRevoke)
    (hlink : ∀ state, (f state).link = state.link) (hbusy : ∀ state, (f state).busy = state.busy)
    : Coherent origin (match page.valid options ticket with
      | (false, page) => page
      | (true, page) => Composer.setState f page) := by
  split
  . next hvalid => exact coherent_invariant.valid h hvalid
  . next hvalid =>
    rcases Page.valid_eq_true hvalid with ⟨rfl, -, -⟩
    exact h.setState (hcanRevoke _) (hlink _) (hbusy _)

theorem Coherent.edit (h : Coherent origin page) : Coherent origin (edit page) := by
  unfold Composer.edit
  split
  . exact h
  . exact h.setState rfl rfl rfl

theorem Coherent.addFiles (h : Coherent origin page) (files : List LocalFile)
    : Coherent origin (addFiles files page) := by
  unfold Composer.addFiles
  split
  . exact h
  . split
    . next hexpire => exact coherent_invariant.expire h hexpire
    . next hexpire =>
      rcases Page.expire_eq_false hexpire with ⟨rfl, -⟩
      dsimp only
      split
      . exact h.setState rfl rfl rfl
      . apply coherent_invariant.touchAt
        exact h.setState rfl rfl rfl

theorem Coherent.removeFile (h : Coherent origin page) (index : Nat)
    : Coherent origin (removeFile index page) := by
  unfold Composer.removeFile
  split
  . exact h
  . exact h.setState rfl rfl rfl

-- Nothing holds the flag before an operation takes it.
theorem Coherent.start (h : Coherent origin page) (hbusy : page.host.state.busy = false)
    (hcanRevoke : (f page.host.state).canRevoke = page.host.state.canRevoke)
    (hlink : (f page.host.state).link = page.host.state.link)
    (hstarted : (f page.host.state).busy = true)
    : Running origin (Composer.setState f page) where
  toBonded := h.toBonded.setState hcanRevoke hlink
  busy := hstarted
  idle := by
    intro number hoperating
    cases hbusy.symm.trans (h.busy.mpr ⟨number, hoperating⟩)

theorem Coherent.submit (h : Coherent origin page) : Coherent origin (submit page) := by
  unfold Composer.submit
  split
  . exact h
  . next hidle =>
    simp only [Bool.or_eq_true, not_or, Bool.not_eq_true] at hidle
    split
    . next hexpire => exact coherent_invariant.expire h hexpire
    . next hexpire =>
      rcases Page.expire_eq_false hexpire with ⟨rfl, -⟩
      split
      . exact h
      . split
        . exact h.setState rfl rfl rfl
        . dsimp only
          rw [Page.touch_of_hasData (by simp [options, Composer.setState, Page.modify, modifyState]),
            Page.ticket_of_live (by simp [Page.Live])]
          apply Running.await
          . have hstarted := h.start (f := fun state => { state with
              busy := true, stage := .encrypt, error := "", copied := ""
              status := "Encrypting content locally…" }) hidle.1 rfl rfl rfl
            exact {
              toBonded := hstarted.toBonded.same rfl rfl rfl rfl rfl rfl rfl (List.Subset.refl _)
              busy := rfl
              idle := hstarted.idle }
          . rfl
          . exact h.session
          . rfl
          . exact fun _ _ => ⟨_, _, _, _, _, rfl⟩
          . intro sealed hsealed
            cases hsealed

theorem Coherent.copyLink (h : Coherent origin page) : Coherent origin (copyLink page) := by
  unfold Composer.copyLink
  split
  . next hexpire => exact coherent_invariant.expire h hexpire
  . next hexpire =>
    rcases Page.expire_eq_false hexpire with ⟨rfl, hlive⟩
    split
    . exact h
    . rw [Page.ticket_of_live hlive]
      exact h.await rfl rfl rfl

theorem Coherent.revoke (h : Coherent origin page) : Coherent origin (revoke page) := by
  unfold Composer.revoke
  split
  . next hexpire => exact coherent_invariant.expire h hexpire
  . next hexpire =>
    rcases Page.expire_eq_false hexpire with ⟨rfl, hlive⟩
    split
    . exact h
    . split
      . exact h
      . next hidle =>
        rw [Page.ticket_of_live hlive]
        apply Running.await
        . exact h.start (Bool.not_eq_true _ ▸ hidle) rfl rfl rfl
        . rfl
        . exact h.session
        . rfl
        . intro ticket hrevoke
          cases hrevoke
        . intro sealed hsealed
          cases hsealed

theorem operating_settle {number other : Nat}
    : Operating (page.modify fun composer =>
        { composer with promises := composer.promises.settle other }) number
        ↔ number ≠ other ∧ Operating page number := by
  constructor
  . rintro ⟨continuation, hwaiting, hkind, hgeneration⟩
    rcases Promises.waiting_settle.mp hwaiting with ⟨hne, hwaiting⟩
    exact ⟨hne, continuation, hwaiting, hkind, hgeneration⟩
  . rintro ⟨hne, continuation, hwaiting, hkind, hgeneration⟩
    exact ⟨continuation, Promises.waiting_settle.mpr ⟨hne, hwaiting⟩, hkind, hgeneration⟩

theorem Bonded.settle (h : Bonded origin page) (number : Nat)
    : Bonded origin (page.modify fun composer =>
        { composer with promises := composer.promises.settle number }) where
  toSound := h.toSound.settle number
  served := h.served
  past hwaiting := h.past (Promises.waiting_settle.mp hwaiting).2
  canRevoke := h.canRevoke
  unlinked := h.unlinked
  linked := h.linked
  sealing hwaiting := h.sealing (Promises.waiting_settle.mp hwaiting).2
  carried hwaiting hsealed := h.carried (Promises.waiting_settle.mp hwaiting).2 hsealed
  single hleft hright := h.single (operating_settle.mp hleft).2 (operating_settle.mp hright).2

-- A promise that no current operation waits for settles without a change of the flag.
theorem Coherent.settle_other (h : Coherent origin page) {number : Nat}
    (hother : ¬Operating page number)
    : Coherent origin (page.modify fun composer =>
        { composer with promises := composer.promises.settle number }) where
  toBonded := h.toBonded.settle number
  busy := by
    apply h.busy.trans
    constructor
    . rintro ⟨operating, hoperating⟩
      refine ⟨operating, operating_settle.mpr ⟨?_, hoperating⟩⟩
      rintro rfl
      exact hother hoperating
    . rintro ⟨operating, hoperating⟩
      exact ⟨operating, (operating_settle.mp hoperating).2⟩

theorem Coherent.resumed (h : Coherent origin page) {number : Nat} {continuation : Continuation}
    (hwaiting : page.host.promises.waiting number = some continuation)
    (hkind : continuation.isOperation = true)
    : Resumed origin continuation.ticket (page.modify fun composer =>
        { composer with promises := composer.promises.settle number }) where
  signal := h.tickets hwaiting
  running hgeneration := {
    toBonded := h.toBonded.settle number
    busy := h.busy.mpr ⟨number, continuation, hwaiting, hkind, hgeneration⟩
    idle := by
      intro other hoperating
      rcases operating_settle.mp hoperating with ⟨hne, hold⟩
      exact hne (h.single hold ⟨continuation, hwaiting, hkind, hgeneration⟩) }
  stale hstale := by
    apply h.settle_other
    rintro ⟨suspended, hsuspended, -, hgeneration⟩
    cases hwaiting.symm.trans hsuspended
    exact hstale hgeneration

theorem Coherent.settle (h : Coherent origin page) {number : Nat} {result : Result} {generation : Nat}
    (hevent : (generation, .event (.settle number result)) ∈ page.trace)
    : Coherent origin (settle number result page) := by
  unfold Composer.settle
  split
  . exact h
  . next resume hresume =>
    rcases Option.bind_eq_some_iff.mp hresume with ⟨continuation, hwaiting, hresume⟩
    have hother : continuation.isOperation = false → Coherent origin (page.modify fun composer =>
        { composer with promises := composer.promises.settle number }) := by
      intro hkind
      apply h.settle_other
      rintro ⟨suspended, hsuspended, hoperation, -⟩
      cases hwaiting.symm.trans hsuspended
      cases hkind.symm.trans hoperation
    have hresumed := h.resumed hwaiting
    have hcarried : ∀ sealed, continuation.sealed? = some sealed → Seals page.trace sealed :=
      fun sealed => h.carried hwaiting
    unfold resume? at hresume
    split at hresume
    all_goals cases hresume
    . exact (hother rfl).ifValid (fun _ => rfl) (fun _ => rfl) (fun _ => rfl)
    . exact (hother rfl).ifValid (fun _ => rfl) (fun _ => rfl) (fun _ => rfl)
    . exact (hresumed rfl).submitSealed _ ⟨number, generation, h.sealing hwaiting, hevent⟩
    . exact (hresumed rfl).submitFailed _ _
    . exact (hresumed rfl).submitChallenge _ _ (hcarried _ rfl)
    . exact (hresumed rfl).submitFailed _ _
    . exact (hresumed rfl).submitProof _ _ _ _ (hcarried _ rfl)
    . exact (hresumed rfl).submitFailed _ _
    . exact (hresumed rfl).submitReceipt _ _ _ (hcarried _ rfl)
    . exact (hresumed rfl).submitFailed _ _
    . exact (hother rfl).ifValid (fun _ => rfl) (fun _ => rfl) (fun _ => rfl)
    . exact (hother rfl).ifValid (fun _ => rfl) (fun _ => rfl) (fun _ => rfl)
    . exact (hresumed rfl).revoked
    . exact (hresumed rfl).revokeFailed _

theorem Coherent.step (h : Coherent origin page) (event : Event)
    : Coherent origin (Composer.step page event) := by
  have hemitted := h.emit (.event event)
  unfold Composer.step handle
  cases event with
  | session event => exact coherent_invariant.dispatch hemitted event
  | init => exact hemitted.init
  | edit => exact hemitted.edit
  | addFiles files => exact hemitted.addFiles files
  | removeFile index => exact hemitted.removeFile index
  | submit => exact hemitted.submit
  | copyLink => exact hemitted.copyLink
  | revoke => exact hemitted.revoke
  | settle number result =>
    apply hemitted.settle
    exact List.mem_append_right _ (List.mem_singleton_self _)
  | _ => exact hemitted.setState rfl rfl rfl

theorem Coherent.run (h : Coherent origin page) (events : List Event)
    : Coherent origin (Composer.run page events) := by
  induction events generalizing page with
  | nil => exact h
  | cons event events ih => exact ih (h.step event)

end

end Composer

end Web
