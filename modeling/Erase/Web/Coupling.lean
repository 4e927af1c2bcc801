import Erase.Web.Serving
import Erase.Web.ReaderCleared

namespace Web

open Reader

def Continuation.Asks : Continuation → Request → Prop
  | loadLink _, .load _ => True
  | loadHeader _ metadata, .inspect text => text = metadata.header
  | openAccess _, .prepare _ => True
  | openContent _, .decrypt _ => True
  | _, _ => False

-- What the coupling of a reader with its workers depends on.
structure Front where
  generation : Nat
  phase : Phase
  busy : Bool
  required : Bool
  id : JsString
  metadata : Option Metadata
  promises : Promises Continuation

def front (page : ReaderPage) : Front where
  generation := page.session.generation
  phase := page.host.state.phase
  busy := page.host.state.busy
  required := page.host.state.required
  id := page.host.id
  metadata := page.host.metadata
  promises := page.host.promises

namespace Front

def Current (front : Front) (number : Nat) (continuation : Continuation) : Prop :=
  front.promises.waiting number = some continuation ∧ continuation.ticket.generation = front.generation

-- The reader is ready and has not retrieved anything.
def Needs (front : Front) : Prop :=
  front.phase = .ready ∧ (front.busy = false ∨ ∃ number ticket, front.Current number (.openAccess ticket))

def Held (front : Front) (backend : Reader.Backend) : Prop :=
  ∃ link metadata header, backend.held = some (link, metadata.header)
    ∧ front.metadata = some metadata
    ∧ link.id = front.id
    ∧ Shared.decodeHeader metadata.header = .ok header
    ∧ header.id = link.id
    ∧ front.required = decide (header.kdf = .argon2id)

-- No cryptographic call is suspended with a ticket of the generation.
def Idle (front : Front) : Prop :=
  ∀ number continuation, front.Current number continuation → continuation.isCrypto = false

end Front

-- A settled header is the one of the link that the worker holds.
def Backend.Vouches (backend : Reader.Backend) (continuation : Continuation) (result : Result) : Prop :=
  ∀ ticket metadata header, continuation = .loadHeader ticket metadata → result = .header header
    → ∃ link, backend.held = some (link, metadata.header) ∧ header.id = link.id
      ∧ Shared.decodeHeader metadata.header = .ok header

structure Coupled (front : Front) (backend : Reader.Backend) : Prop where
  sane : backend.Sane
  issued : Issued Continuation.ticket 0 0 front.promises front.generation
  asked : ∀ {id number request}, (id, (number, request)) ∈ backend.crypto.pending
    → ∃ continuation, front.Current number continuation ∧ continuation.Asks request
  settled : ∀ {number result}, (number, result) ∈ backend.settled → number < front.promises.next
    ∧ ∀ continuation, front.promises.waiting number = some continuation → continuation.isCrypto = true
  apart : ∀ {id number request result}, (id, (number, request)) ∈ backend.crypto.pending
    → (number, result) ∉ backend.settled
  checked : ∀ {number result continuation}, (number, result) ∈ backend.settled
    → front.Current number continuation
    → backend.crypto.pending = [] ∧ backend.Vouches continuation result
  ready : front.Needs → front.Held backend

theorem Continuation.Asks.isCrypto {continuation : Continuation} {request : Request}
    (h : continuation.Asks request) : continuation.isCrypto = true := by
  cases continuation with
  | loadLink ticket => rfl
  | loadHeader ticket metadata => rfl
  | openAccess ticket => rfl
  | openContent ticket => rfl
  | loadMetadata ticket => cases request <;> exact h.elim
  | openPacket ticket => cases request <;> exact h.elim
  | copyText ticket => cases request <;> exact h.elim

theorem Backend.vouches_rejected (backend : Reader.Backend) (continuation : Continuation) (error : Failure)
    : backend.Vouches continuation (.rejected error) := by
  intro ticket metadata header _ h
  cases h

namespace Coupled

variable {front front' : Front} {backend backend' : Reader.Backend} {posts : Nat → Bool}

theorem pending_of_idle (h : Coupled front backend) (hidle : front.Idle)
    : backend.crypto.pending = [] := by
  cases hpending : backend.crypto.pending with
  | nil => rfl
  | cons entry pending =>
    rcases entry with ⟨id, number, request⟩
    rcases h.asked (by rw [hpending]; exact List.mem_cons_self) with ⟨continuation, hcurrent, hasks⟩
    cases (hidle number continuation hcurrent).symm.trans hasks.isCrypto

-- The reader changes nothing that a promise depends on.
theorem adjust (h : Coupled front backend) (hgeneration : front'.generation = front.generation)
    (hpromises : front'.promises = front.promises) (hready : front'.Needs → front'.Held backend)
    : Coupled front' backend := by
  have hcurrent : ∀ {number continuation}, front'.Current number continuation
      ↔ front.Current number continuation := by
    intro number continuation
    unfold Front.Current
    rw [hgeneration, hpromises]
  exact {
    sane := h.sane
    issued := by
      rw [hgeneration, hpromises]
      exact h.issued
    asked := fun hmem => by
      rcases h.asked hmem with ⟨continuation, hasked, hasks⟩
      exact ⟨continuation, hcurrent.mpr hasked, hasks⟩
    settled := fun hmem => by
      rw [hpromises]
      exact h.settled hmem
    apart := h.apart
    checked := fun hmem hsettled => h.checked hmem (hcurrent.mp hsettled)
    ready := hready }

-- The workers go on with what they were asked.
theorem work (h : Coupled front backend) (hsane : backend'.Sane)
    (hcrypto : backend'.crypto.pending = backend.crypto.pending)
    (hsettled : backend'.settled = backend.settled)
    (hheld : backend.Preparing → backend'.held = backend.held)
    (hneeds : front.Needs → backend.Preparing) : Coupled front backend' where
  sane := hsane
  issued := h.issued
  asked hmem := h.asked (hcrypto ▸ hmem)
  settled hmem := h.settled (hsettled ▸ hmem)
  apart hmem := by
    rw [hsettled]
    exact h.apart (hcrypto ▸ hmem)
  checked hmem hcurrent := by
    rcases h.checked (hsettled ▸ hmem) hcurrent with ⟨hpending, hvouches⟩
    have hpreparing : backend.Preparing := by
      intro id number request hmem
      rw [hpending] at hmem
      cases hmem
    refine ⟨hcrypto.trans hpending, fun ticket metadata header hcontinuation hresult => ?_⟩
    rw [hheld hpreparing]
    exact hvouches ticket metadata header hcontinuation hresult
  ready hready := by
    rcases h.ready hready with ⟨link, metadata, header, hlink, hrest⟩
    exact ⟨link, metadata, header, (hheld (hneeds hready)).trans hlink, hrest⟩

theorem deliver (h : Coupled front backend) (hsettled : backend.settled = []) (worker : Nat)
    : Coupled front (backend.deliver posts worker) := by
  have hheld := Backend.held_deliver posts worker backend
  rcases h.sane.deliver posts worker with ⟨hsane, hdelivered⟩
  cases hdelivered with
  | ignored crypto settled =>
    exact {
      sane := hsane
      issued := h.issued
      asked := fun hmem => h.asked (crypto ▸ hmem)
      settled := fun hmem => h.settled (settled ▸ hmem)
      apart := fun hmem => by
        rw [settled]
        exact h.apart (crypto ▸ hmem)
      checked := fun hmem => by
        rw [settled, hsettled] at hmem
        cases hmem
      ready := fun hready => by
        rcases h.ready hready with ⟨link, metadata, header, hlink, hrest⟩
        exact ⟨link, metadata, header, hheld.trans hlink, hrest⟩ }
  | settled id number request result pending present justified crypto settled =>
    have hmem : (id, (number, request)) ∈ backend.crypto.pending := by simp [pending]
    rcases h.asked hmem with ⟨continuation, hcurrent, hasks⟩
    rw [hsettled, List.nil_append] at settled
    have hone : ∀ {other result'}, (other, result') ∈ (backend.deliver posts worker).settled
        → other = number ∧ result' = Backend.resultOf Thread (CryptoWorker.reply result) := by
      intro other result' hother
      rw [settled] at hother
      cases List.mem_singleton.mp hother
      exact ⟨rfl, rfl⟩
    exact {
      sane := hsane
      issued := h.issued
      asked := fun hmem => by
        rw [crypto] at hmem
        cases hmem
      settled := fun hmem => by
        rcases hone hmem with ⟨rfl, -⟩
        refine ⟨h.issued.numbered _ _ hcurrent.1, fun other hother => ?_⟩
        rw [hcurrent.1, Option.some_inj] at hother
        rw [← hother]
        exact hasks.isCrypto
      apart := fun hmem => by
        rw [crypto] at hmem
        cases hmem
      checked := fun hmem hother => by
        rcases hone hmem with ⟨rfl, rfl⟩
        refine ⟨by rw [crypto], fun ticket metadata header hcontinuation hresult => ?_⟩
        have hsame := Option.some_inj.mp (hcurrent.1.symm.trans hother.1)
        rw [hsame, hcontinuation] at hasks
        cases request with
        | inspect text =>
          have htext : text = metadata.header := hasks
          cases result with
          | error code => cases hresult
          | ok result =>
            have hchecked := justified text header rfl (congrArg Except.ok hresult)
            rcases hchecked.link with ⟨link, hlink, hid⟩
            refine ⟨link, ?_, hid, htext ▸ hchecked.decoded⟩
            rw [hheld]
            unfold Backend.held
            rw [present, Option.bind_some, hlink, Option.map_some, hchecked.kept, htext]
        | _ => exact hasks.elim
      ready := fun hready => by
        rcases h.ready hready with ⟨link, metadata, header, hlink, hrest⟩
        exact ⟨link, metadata, header, hheld.trans hlink, hrest⟩ }

theorem fail (h : Coupled front backend) (error : Failure) (hneeds : ¬front.Needs)
    (hsettled : ∀ {number result continuation}, (number, result) ∈ backend.settled
      → ¬front.Current number continuation)
    : Coupled front (backend.apply posts (backend.crypto.fail error)) := by
  have hsane : (backend.apply posts (backend.crypto.fail error)).Sane := h.sane.fail error
  rw [Backend.apply_fail] at hsane ⊢
  exact {
    sane := hsane
    issued := h.issued
    asked := fun hmem => by cases hmem
    settled := fun hmem => by
      rcases List.mem_append.mp hmem with hmem | hmem
      . exact h.settled hmem
      . rcases Backend.mem_rejections hmem with ⟨-, id, request, hmem⟩
        rcases h.asked hmem with ⟨continuation, hcurrent, hasks⟩
        refine ⟨h.issued.numbered _ _ hcurrent.1, fun other hother => ?_⟩
        rw [hcurrent.1, Option.some_inj] at hother
        rw [← hother]
        exact hasks.isCrypto
    apart := fun hmem => by cases hmem
    checked := fun hmem hcurrent => by
      rcases List.mem_append.mp hmem with hmem | hmem
      . exact absurd hcurrent (hsettled hmem)
      . rw [(Backend.mem_rejections hmem).1]
        exact ⟨rfl, Backend.vouches_rejected _ _ _⟩
    ready := fun hready => absurd hready hneeds }

theorem clear (h : Coupled front backend) (busy required : Bool) (id : JsString)
    (metadata : Option Metadata)
    : Coupled { front with
        generation := front.generation + 1, phase := .cleared, busy, required, id, metadata }
      (backend.apply posts backend.crypto.dispose) := by
  have hstale : ∀ {number continuation}, front.promises.waiting number = some continuation
      → continuation.ticket.generation ≠ front.generation + 1 := by
    intro number continuation hwaiting
    exact Nat.ne_of_lt (Nat.lt_succ_of_le (h.issued.past number continuation hwaiting))
  have hsane : (backend.apply posts (backend.crypto.fail .abortError)).Sane := h.sane.fail .abortError
  unfold CryptoWorker.dispose
  rw [Backend.apply_fail] at hsane ⊢
  exact {
    sane := hsane
    issued := h.issued.clear
    asked := fun hmem => by cases hmem
    settled := fun hmem => by
      rcases List.mem_append.mp hmem with hmem | hmem
      . exact h.settled hmem
      . rcases Backend.mem_rejections hmem with ⟨-, id, request, hmem⟩
        rcases h.asked hmem with ⟨continuation, hcurrent, hasks⟩
        refine ⟨h.issued.numbered _ _ hcurrent.1, fun other hother => ?_⟩
        rw [hcurrent.1, Option.some_inj] at hother
        rw [← hother]
        exact hasks.isCrypto
    apart := fun hmem => by cases hmem
    checked := fun _ hcurrent => absurd hcurrent.2 (hstale hcurrent.1)
    ready := fun hready => by cases hready.1 }

theorem settle (h : Coupled front backend) {number : Nat}
    (hnumber : ∀ {id request}, (id, (number, request)) ∉ backend.crypto.pending)
    : Coupled { front with promises := front.promises.settle number } backend := by
  have hcurrent : ∀ {other continuation},
      Front.Current { front with promises := front.promises.settle number } other continuation
        → front.Current other continuation :=
    fun hother => ⟨(Promises.waiting_settle.mp hother.1).2, hother.2⟩
  exact {
    sane := h.sane
    issued := h.issued.settle number
    asked := fun {id other request} hmem => by
      rcases h.asked hmem with ⟨continuation, hasked, hasks⟩
      have hne : other ≠ number := fun heq => hnumber (heq ▸ hmem)
      exact ⟨continuation, ⟨Promises.waiting_settle.mpr ⟨hne, hasked.1⟩, hasked.2⟩, hasks⟩
    settled := fun hmem => ⟨(h.settled hmem).1, fun continuation hwaiting =>
      (h.settled hmem).2 continuation (Promises.waiting_settle.mp hwaiting).2⟩
    apart := h.apart
    checked := fun hmem hother => h.checked hmem (hcurrent hother)
    ready := fun hready => h.ready ⟨hready.1, hready.2.imp id fun hopening => by
      rcases hopening with ⟨other, ticket, hother⟩
      exact ⟨other, ticket, hcurrent hother⟩⟩ }

theorem pop (h : Coupled front backend) {entry : Nat × Result} {settled : List (Nat × Result)}
    (hsettled : backend.settled = entry :: settled) : Coupled front { backend with settled } := by
  have hmem : ∀ {other}, other ∈ settled → other ∈ backend.settled := by
    intro other hother
    rw [hsettled]
    exact List.mem_cons_of_mem _ hother
  exact {
    sane := ⟨h.sane.created, h.sane.unused, h.sane.sequence, h.sane.single⟩
    issued := h.issued
    asked := h.asked
    settled := fun hother => h.settled (hmem hother)
    apart := fun hpending hother => h.apart hpending (hmem hother)
    checked := fun hother hcurrent => h.checked (hmem hother) hcurrent
    ready := h.ready }

section

variable {continuation : Continuation}

theorem current_suspend {number : Nat} {other : Continuation}
    (h : Front.Current { front with promises := front.promises.suspend continuation } number other)
    : number = front.promises.next ∧ other = continuation ∨ front.Current number other := by
  rcases Promises.waiting_suspend.mp h.1 with hnew | ⟨-, hold⟩
  . exact .inl hnew
  . exact .inr ⟨hold, h.2⟩

theorem current_of_suspend (h : Coupled front backend) {number : Nat} {other : Continuation}
    (hcurrent : front.Current number other)
    : Front.Current { front with promises := front.promises.suspend continuation } number other := by
  have hne : number ≠ front.promises.next := (h.issued.numbered number other hcurrent.1).ne
  exact ⟨Promises.waiting_suspend.mpr (.inr ⟨hne, hcurrent.1⟩), hcurrent.2⟩

-- The reader makes a call that no worker runs.
theorem wait (h : Coupled front backend)
    (hgeneration : continuation.ticket.generation = front.generation)
    (hforeign : continuation.isCrypto = false)
    : Coupled { front with promises := front.promises.suspend continuation } backend where
  sane := h.sane
  issued := h.issued.suspend hgeneration.le
  asked hmem := by
    rcases h.asked hmem with ⟨other, hcurrent, hasks⟩
    exact ⟨other, h.current_of_suspend hcurrent, hasks⟩
  settled hmem := by
    rcases h.settled hmem with ⟨hlt, hcrypto⟩
    refine ⟨Nat.lt_succ_of_lt hlt, fun other hother => ?_⟩
    rcases Promises.waiting_suspend.mp hother with ⟨rfl, -⟩ | ⟨-, hold⟩
    . exact absurd hlt (Nat.lt_irrefl _)
    . exact hcrypto other hold
  apart := h.apart
  checked hmem hcurrent := by
    rcases current_suspend hcurrent with ⟨rfl, -⟩ | hold
    . exact absurd (h.settled hmem).1 (Nat.lt_irrefl _)
    . exact h.checked hmem hold
  ready hready := by
    apply h.ready
    refine ⟨hready.1, hready.2.imp id fun hopening => ?_⟩
    rcases hopening with ⟨number, ticket, hcurrent⟩
    rcases current_suspend hcurrent with ⟨-, hnew⟩ | hold
    . rw [← hnew] at hforeign
      cases hforeign
    . exact ⟨number, ticket, hold⟩

-- The reader makes a call that a worker runs.
theorem ask (h : Coupled front backend) (hidle : front.Idle)
    (hgeneration : continuation.ticket.generation = front.generation) {request : Request}
    (hasks : continuation.Asks request)
    (hready : Front.Needs { front with promises := front.promises.suspend continuation }
      → front.Held backend)
    : Coupled { front with promises := front.promises.suspend continuation }
        (backend.apply posts (backend.crypto.run (front.promises.next, request)
          (posts front.promises.next))) := by
  have hpending := h.pending_of_idle hidle
  have hsane : (backend.apply posts
      (backend.crypto.run (front.promises.next, request) (posts front.promises.next))).Sane :=
    h.sane.run hpending front.promises.next request
  have hnew : Front.Current { front with promises := front.promises.suspend continuation }
      front.promises.next continuation :=
    ⟨Promises.waiting_suspend.mpr (.inl ⟨rfl, rfl⟩), hgeneration⟩
  have hheld : Front.Needs { front with promises := front.promises.suspend continuation }
      → Front.Held { front with promises := front.promises.suspend continuation }
        (backend.apply posts (backend.crypto.run (front.promises.next, request)
          (posts front.promises.next))) := by
    intro hneeds
    rcases hready hneeds with ⟨link, metadata, header, hlink, hrest⟩
    exact ⟨link, metadata, header, Backend.held_run hpending hlink, hrest⟩
  have hold : ∀ {number result}, (number, result) ∈ backend.settled → number < front.promises.next + 1
      ∧ (∀ other, (front.promises.suspend continuation).waiting number = some other
        → other.isCrypto = true)
      ∧ ∀ other, ¬Front.Current { front with promises := front.promises.suspend continuation }
        number other := by
    intro number result hmem
    rcases h.settled hmem with ⟨hlt, hcrypto⟩
    have hnumber : ∀ {other}, (front.promises.suspend continuation).waiting number = some other
        → front.promises.waiting number = some other := by
      intro other hother
      rcases Promises.waiting_suspend.mp hother with ⟨rfl, -⟩ | ⟨-, hold⟩
      . exact absurd hlt (Nat.lt_irrefl _)
      . exact hold
    refine ⟨Nat.lt_succ_of_lt hlt, fun other hother => hcrypto other (hnumber hother), ?_⟩
    intro other hother
    cases (hidle number other ⟨hnumber hother.1, hother.2⟩).symm.trans
      (hcrypto other (hnumber hother.1))
  cases hposts : posts front.promises.next with
  | false =>
    rw [← hposts]
    rw [Backend.apply_run_refused hposts hpending] at hsane hheld ⊢
    exact {
      sane := hsane
      issued := h.issued.suspend hgeneration.le
      asked := fun hmem => by cases hmem
      settled := fun hmem => by
        rcases List.mem_append.mp hmem with hmem | hmem
        . exact ⟨(hold hmem).1, (hold hmem).2.1⟩
        . cases List.mem_singleton.mp hmem
          refine ⟨Nat.lt_succ_self _, fun other hother => ?_⟩
          rw [hnew.1, Option.some_inj] at hother
          rw [← hother]
          exact hasks.isCrypto
      apart := fun hmem => by cases hmem
      checked := fun hmem hcurrent => by
        rcases List.mem_append.mp hmem with hmem | hmem
        . exact absurd hcurrent ((hold hmem).2.2 _)
        . cases List.mem_singleton.mp hmem
          exact ⟨rfl, Backend.vouches_rejected _ _ _⟩
      ready := hheld }
  | true =>
    rw [← hposts]
    rw [Backend.apply_run_posted hposts hpending] at hsane hheld ⊢
    exact {
      sane := hsane
      issued := h.issued.suspend hgeneration.le
      asked := fun hmem => by
        cases List.mem_singleton.mp hmem
        exact ⟨continuation, hnew, hasks⟩
      settled := fun hmem => ⟨(hold hmem).1, (hold hmem).2.1⟩
      apart := fun hmem hsettled => by
        cases List.mem_singleton.mp hmem
        exact absurd (h.settled hsettled).1 (Nat.lt_irrefl _)
      checked := fun hmem hcurrent => absurd hcurrent ((hold hmem).2.2 _)
      ready := hheld }

end

end Coupled

end Web
