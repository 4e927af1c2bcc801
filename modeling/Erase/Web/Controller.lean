import Erase.Library.Promises
import Erase.Web.Frame

namespace Web

-- A method that goes on while its ticket is valid.
def Page.proceed {σ ε : Type} (options : Options σ ε) (ticket : Ticket) (f : Page σ ε → Page σ ε)
    (page : Page σ ε) : Page σ ε :=
  match page.valid options ticket with
  | (false, page) => page
  | (true, page) => f page

theorem Options.Invariant.proceed {σ ε : Type} {options : Options σ ε} {P : Page σ ε → Prop}
    {page : Page σ ε} (h : options.Invariant P) (hpage : P page) {ticket : Ticket}
    {f : Page σ ε → Page σ ε}
    (hf : ticket.generation = page.session.generation → P (f page)) : P (page.proceed options ticket f) := by
  unfold Page.proceed
  split
  . next hvalid => exact h.valid hpage hvalid
  . next hvalid =>
    rcases Page.valid_eq_true hvalid with ⟨rfl, -, hgeneration⟩
    exact hf hgeneration

theorem Options.Frame.proceed_carry {σ ε : Type} {options : Options σ ε} {g : σ → σ}
    {earlier : List (Nat × ε)} {page : Page σ ε} (h : options.Frame g) {ticket : Ticket}
    {f : Page σ ε → Page σ ε}
    (hf : f (page.carry g earlier) = (f page).carry g earlier)
    : (page.carry g earlier).proceed options ticket f = (page.proceed options ticket f).carry g earlier := by
  unfold Page.proceed
  rw [h.valid_carry]
  rcases hvalid : page.valid options ticket with ⟨_ | _, page'⟩
  . rfl
  . rcases Page.valid_eq_true hvalid with ⟨rfl, -, -⟩
    exact hf

-- A controller of a page: its handlers, and the methods that wait for a promise with a ticket.
structure Controller (σ ε κ ρ α : Type) where
  options : Options σ ε
  promises : σ → Promises κ
  withPromises : Promises κ → σ → σ
  ticket : κ → Ticket
  resume? : κ → ρ → Option (Page σ ε → Page σ ε)
  fills : κ → ρ → List ε
  settlement? : α → Option (Nat × ρ)
  handle : α → Page σ ε → Page σ ε
  event : α → ε
  isCommand : ε → Bool

-- What a controller has promised: numbers from `next` on, with tickets up to the present generation,
-- which is not before `generation`.
structure Issued {κ : Type} (ticket : κ → Ticket) (next generation : Nat) (promises : Promises κ)
    (current : Nat) : Prop where
  next : next ≤ promises.next
  generation : generation ≤ current
  numbered : promises.Numbered
  past : ∀ number continuation, promises.waiting number = some continuation
    → (ticket continuation).generation ≤ current

namespace Issued

variable {κ : Type} {ticket : κ → Ticket} {next generation current : Nat} {promises : Promises κ}

theorem clear (h : Issued ticket next generation promises current)
    : Issued ticket next generation promises (current + 1) where
  next := h.next
  generation := Nat.le_succ_of_le h.generation
  numbered := h.numbered
  past number continuation hwaiting := Nat.le_succ_of_le (h.past number continuation hwaiting)

theorem suspend (h : Issued ticket next generation promises current) {continuation : κ}
    (hcontinuation : (ticket continuation).generation ≤ current)
    : Issued ticket next generation (promises.suspend continuation) current where
  next := Nat.le_succ_of_le h.next
  generation := h.generation
  numbered := h.numbered.suspend continuation
  past number suspended hwaiting := by
    rcases Promises.waiting_suspend.mp hwaiting with ⟨-, rfl⟩ | ⟨-, hwaiting⟩
    . exact hcontinuation
    . exact h.past number suspended hwaiting

theorem settle (h : Issued ticket next generation promises current) (number : Nat)
    : Issued ticket next generation (promises.settle number) current where
  next := h.next
  generation := h.generation
  numbered := h.numbered.settle number
  past other continuation hwaiting :=
    h.past other continuation (Promises.waiting_settle.mp hwaiting).2

theorem refresh (h : Issued ticket next generation promises current)
    : Issued ticket promises.next current promises current :=
  { h with next := Nat.le_refl _, generation := Nat.le_refl _ }

theorem weaken (h : Issued ticket next generation promises current)
    : Issued ticket 0 0 promises current :=
  { h with next := Nat.zero_le _, generation := Nat.zero_le _ }

end Issued

namespace Controller

variable {σ ε κ ρ α : Type} (controller : Controller σ ε κ ρ α)

def step (page : Page σ ε) (event : α) : Page σ ε :=
  controller.handle event (page.emit (controller.event event))

def run (page : Page σ ε) (events : List α) : Page σ ε := events.foldl controller.step page

def settled (number : Nat) (page : Page σ ε) : Page σ ε :=
  page.modify fun host =>
    controller.withPromises ((controller.promises host).settle number) host

def owing (late : Nat → Bool) (waiting : Nat → Option κ) (host : σ) : σ :=
  controller.withPromises ((controller.promises host).owing late waiting) host

-- The promises whose continuations hold a ticket of an earlier generation.
def late (page : Page σ ε) (number : Nat) : Bool :=
  ((controller.promises page.host).waiting number).any fun continuation =>
    (controller.ticket continuation).generation ≠ page.session.generation

def isLate (late : Nat → Bool) (event : α) : Bool :=
  (controller.settlement? event).any fun settlement => late settlement.1

-- A page without what it knows of some promises, and with the commands of its trace only.
def forget (late : Nat → Bool) (page : Page σ ε) : Page σ ε :=
  { page with
    host := controller.owing late (fun _ => none) page.host
    trace := page.trace.filter fun entry => controller.isCommand entry.2 }

def Issued (next generation : Nat) (page : Page σ ε) : Prop :=
  Web.Issued controller.ticket next generation (controller.promises page.host) page.session.generation

def settle (number : Nat) (result : ρ) (page : Page σ ε) : Page σ ε :=
  match ((controller.promises page.host).waiting number).bind
    fun continuation => controller.resume? continuation result with
  | none => page
  | some resume => resume (controller.settled number page)

def await (call : Nat → ε) (continuation : κ) (page : Page σ ε) : Page σ ε :=
  let number := (controller.promises page.host).next
  let page := page.modify fun host =>
    controller.withPromises ((controller.promises host).suspend continuation) host
  page.emit (call number)

def Bounded (late : Nat → Bool) (page : Page σ ε) : Prop :=
  ∀ number, late number = true → number < (controller.promises page.host).next

-- The session neither notices the promises nor changes them.
structure Apart : Prop where
  promises_withPromises : ∀ promises host,
    controller.promises (controller.withPromises promises host) = promises
  withPromises_withPromises : ∀ promises promises' host,
    controller.withPromises promises (controller.withPromises promises' host)
      = controller.withPromises promises host
  withPromises_promises : ∀ host, controller.withPromises (controller.promises host) host = host
  hasData : ∀ promises host,
    controller.options.hasData (controller.withPromises promises host) = controller.options.hasData host
  hideImmediately : ∀ promises host,
    controller.options.hideImmediately (controller.withPromises promises host)
      = controller.options.hideImmediately host
  warning : ∀ promises seconds host,
    controller.options.warning seconds (controller.withPromises promises host)
      = controller.withPromises promises (controller.options.warning seconds host)
  clock : ∀ promises seconds host,
    controller.options.clock seconds (controller.withPromises promises host)
      = controller.withPromises promises (controller.options.clock seconds host)
  clear : ∀ promises reason host,
    controller.options.clear reason (controller.withPromises promises host)
      = (controller.withPromises promises (controller.options.clear reason host).1,
        (controller.options.clear reason host).2)

structure Lawful : Prop extends controller.Apart where
  handle_settle : ∀ {event number result} page,
    controller.settlement? event = some (number, result)
      → controller.handle event page = controller.settle number result page
  resume_invalid : ∀ {continuation result resume} {page page' : Page σ ε},
    controller.resume? continuation result = some resume
      → page.valid controller.options (controller.ticket continuation) = (false, page')
      → (controller.ticket continuation).generation ≠ page'.session.generation
      → resume page
        = (controller.fills continuation result).foldl (fun page entry => page.emit entry) page'
  handle_carry : ∀ {late waiting earlier page event}, controller.Bounded late page
    → controller.isLate late event = false
    → controller.handle event (page.carry (controller.owing late waiting) earlier)
      = (controller.handle event page).carry (controller.owing late waiting) earlier
  issued : ∀ {next generation page} event,
    controller.Issued next generation page
      → controller.Issued next generation (controller.handle event page)
  isCommand_event : ∀ event, controller.isCommand (controller.event event) = false
  isCommand_fill : ∀ {continuation result entry}, entry ∈ controller.fills continuation result
    → controller.isCommand entry = false

end Controller

namespace Controller.Apart

variable {σ ε κ ρ α : Type} {controller : Controller σ ε κ ρ α} {page : Page σ ε}
variable {late : Nat → Bool} {waiting : Nat → Option κ} {earlier : List (Nat × ε)}

open Controller

theorem promises_warning (h : controller.Apart) (seconds : Nat) (host : σ)
    : controller.promises (controller.options.warning seconds host) = controller.promises host := by
  have hwarning := h.warning (controller.promises host) seconds host
  rw [h.withPromises_promises] at hwarning
  exact (congrArg controller.promises hwarning).trans (h.promises_withPromises _ _)

theorem promises_clock (h : controller.Apart) (seconds : Nat) (host : σ)
    : controller.promises (controller.options.clock seconds host) = controller.promises host := by
  have hclock := h.clock (controller.promises host) seconds host
  rw [h.withPromises_promises] at hclock
  exact (congrArg controller.promises hclock).trans (h.promises_withPromises _ _)

theorem promises_clear (h : controller.Apart) (reason : ClearReason) (page : Page σ ε)
    : controller.promises (page.clear controller.options reason).host = controller.promises page.host := by
  have hclear : ∀ host, controller.promises (controller.options.clear reason host).1
      = controller.promises host := by
    intro host
    have hclear := h.clear (controller.promises host) reason host
    rw [h.withPromises_promises] at hclear
    exact (congrArg (fun cleared => controller.promises cleared.1) hclear).trans
      (h.promises_withPromises _ _)
  unfold Page.clear
  dsimp only
  rw [hclear, h.promises_clock, h.promises_warning]

theorem issued_invariant (h : controller.Apart) (next generation : Nat)
    : controller.options.Invariant (controller.Issued next generation) where
  clear reason hissued := by
    unfold Controller.Issued
    rw [h.promises_clear]
    exact Issued.clear hissued
  ambient _ _ _ _ hissued := hissued
  schedule _ _ hissued := hissued
  warning seconds hissued := by
    unfold Controller.Issued Page.modify
    rw [h.promises_warning]
    exact hissued
  clock seconds hissued := by
    unfold Controller.Issued Page.modify
    rw [h.promises_clock]
    exact hissued

theorem bounded_invariant (h : controller.Apart) (late : Nat → Bool)
    : controller.options.Invariant (controller.Bounded late) where
  clear reason hbounded := by
    unfold Bounded
    rw [h.promises_clear]
    exact hbounded
  ambient _ _ _ _ hbounded := hbounded
  schedule _ _ hbounded := hbounded
  warning seconds hbounded := by
    unfold Bounded Page.modify
    rw [h.promises_warning]
    exact hbounded
  clock seconds hbounded := by
    unfold Bounded Page.modify
    rw [h.promises_clock]
    exact hbounded

theorem frame (h : controller.Apart) (late : Nat → Bool) (waiting : Nat → Option κ)
    : controller.options.Frame (controller.owing late waiting) where
  hasData host := h.hasData _ host
  hideImmediately host := h.hideImmediately _ host
  warning seconds host := by
    unfold Controller.owing
    rw [h.warning, h.promises_warning]
  clock seconds host := by
    unfold Controller.owing
    rw [h.clock, h.promises_clock]
  clear reason host := by
    have hclear := h.clear (controller.promises host) reason host
    rw [h.withPromises_promises] at hclear
    have hpromises : controller.promises (controller.options.clear reason host).1
        = controller.promises host :=
      (congrArg (fun cleared => controller.promises cleared.1) hclear).trans (h.promises_withPromises _ _)
    unfold Controller.owing
    rw [h.clear, hpromises]

theorem issued_await (h : controller.Apart) {next generation : Nat}
    (hissued : controller.Issued next generation page) (call : Nat → ε) {continuation : κ}
    (hticket : (controller.ticket continuation).generation = page.session.generation)
    : controller.Issued next generation (controller.await call continuation page) := by
  unfold Controller.Issued Controller.await Page.modify Page.emit
  dsimp only
  rw [h.promises_withPromises]
  exact Issued.suspend hissued (Nat.le_of_eq hticket)

theorem issued_settle (h : controller.Apart) {next generation : Nat}
    (hissued : controller.Issued next generation page) (number : Nat) (result : ρ)
    (hresume : ∀ {continuation resume page}, controller.resume? continuation result = some resume
      → controller.Issued next generation page → controller.Issued next generation (resume page))
    : controller.Issued next generation (controller.settle number result page) := by
  unfold Controller.settle
  split
  . exact hissued
  . next resume hsome =>
    rcases Option.bind_eq_some_iff.mp hsome with ⟨continuation, -, hsome⟩
    apply hresume hsome
    unfold Controller.Issued Controller.settled Page.modify
    dsimp only
    rw [h.promises_withPromises]
    exact Issued.settle hissued number

theorem await_carry (h : controller.Apart) (hbounded : controller.Bounded late page) (call : Nat → ε)
    (continuation : κ)
    : controller.await call continuation (page.carry (controller.owing late waiting) earlier)
        = (controller.await call continuation page).carry (controller.owing late waiting) earlier := by
  have hsuspend := Promises.suspend_owing hbounded waiting continuation
  have hnext : (controller.promises (page.carry (controller.owing late waiting) earlier).host).next
      = (controller.promises page.host).next := by
    unfold Page.carry Controller.owing
    dsimp only
    rw [h.promises_withPromises]
    rfl
  unfold Controller.await
  dsimp only
  rw [hnext, ← Page.carry_emit]
  unfold Page.carry Page.modify Controller.owing
  dsimp only
  simp only [h.promises_withPromises, h.withPromises_withPromises]
  rw [hsuspend]

theorem settle_carry (h : controller.Apart) (hbounded : controller.Bounded late page) {number : Nat}
    (hnumber : late number = false) (result : ρ)
    (hresume : ∀ {continuation resume page}, controller.resume? continuation result = some resume
      → controller.Bounded late page
      → resume (page.carry (controller.owing late waiting) earlier)
        = (resume page).carry (controller.owing late waiting) earlier)
    : controller.settle number result (page.carry (controller.owing late waiting) earlier)
        = (controller.settle number result page).carry (controller.owing late waiting) earlier := by
  have hwaiting : (controller.promises
        (page.carry (controller.owing late waiting) earlier).host).waiting number
      = (controller.promises page.host).waiting number := by
    unfold Page.carry Controller.owing
    dsimp only
    rw [h.promises_withPromises]
    unfold Promises.owing
    simp only [hnumber, Bool.false_eq_true, if_false]
  have hsettled : controller.settled number (page.carry (controller.owing late waiting) earlier)
      = (controller.settled number page).carry (controller.owing late waiting) earlier := by
    unfold Controller.settled Page.carry Page.modify Controller.owing
    simp only [h.promises_withPromises, h.withPromises_withPromises, Promises.settle_owing hnumber]
  have hbounded' : controller.Bounded late (controller.settled number page) := by
    unfold Bounded Controller.settled Page.modify
    dsimp only
    rw [h.promises_withPromises]
    exact hbounded
  unfold Controller.settle
  rw [hwaiting, hsettled]
  cases hsome : ((controller.promises page.host).waiting number).bind fun continuation =>
      controller.resume? continuation result with
  | none => rfl
  | some resume =>
    rcases Option.bind_eq_some_iff.mp hsome with ⟨continuation, -, hsome⟩
    exact hresume hsome hbounded'

end Controller.Apart

namespace Controller.Lawful

variable {σ ε κ ρ α : Type} {controller : Controller σ ε κ ρ α} {page : Page σ ε}
variable {next generation : Nat}

open Controller

theorem issued_step (h : controller.Lawful) (hissued : controller.Issued next generation page)
    (event : α) : controller.Issued next generation (controller.step page event) :=
  h.issued event hissued

theorem issued_run (h : controller.Lawful) (hissued : controller.Issued next generation page)
    (events : List α) : controller.Issued next generation (controller.run page events) := by
  induction events generalizing page with
  | nil => exact hissued
  | cons event events ih => exact ih (h.issued_step hissued event)

-- Both pages come from one page that forgets what it knows of the late promises.
def Related (controller : Controller σ ε κ ρ α) (late : Nat → Bool) (left right : Page σ ε) : Prop :=
  ∃ (page : Page σ ε) (waiting waiting' : Nat → Option κ) (earlier earlier' : List (Nat × ε)),
    left = page.carry (controller.owing late waiting) earlier
      ∧ right = page.carry (controller.owing late waiting') earlier'
      ∧ page.trace = []
      ∧ controller.Issued 0 0 page
      ∧ (earlier.filter fun entry => controller.isCommand entry.2)
        = (earlier'.filter fun entry => controller.isCommand entry.2)
      ∧ (∀ number, late number = true → number < (controller.promises page.host).next)
      ∧ ∀ number continuation, late number = true → waiting number = some continuation
        → (controller.ticket continuation).generation < page.session.generation

section

variable {late : Nat → Bool} {left right : Page σ ε}

theorem owing_owing (h : controller.Lawful) (waiting waiting' : Nat → Option κ) (host : σ)
    : controller.owing late waiting (controller.owing late waiting' host)
        = controller.owing late waiting host := by
  unfold Controller.owing
  rw [h.promises_withPromises, h.withPromises_withPromises, Promises.owing_owing]

theorem forget_carry (h : controller.Lawful) (page : Page σ ε) (waiting : Nat → Option κ)
    (earlier : List (Nat × ε)) (htrace : page.trace = [])
    : controller.forget late (page.carry (controller.owing late waiting) earlier)
        = { page with
          host := controller.owing late (fun _ => none) page.host
          trace := earlier.filter fun entry => controller.isCommand entry.2 } := by
  unfold Controller.forget Page.carry
  simp only [h.owing_owing, htrace, List.append_nil]

theorem forget_eq (h : controller.Lawful) (hrelated : Related controller late left right)
    : controller.forget late left = controller.forget late right := by
  rcases hrelated with ⟨page, waiting, waiting', earlier, earlier', rfl, rfl, htrace, -, hcommands, -⟩
  rw [h.forget_carry page waiting earlier htrace, h.forget_carry page waiting' earlier' htrace,
    hcommands]

theorem related_refl (h : controller.Lawful) (hissued : controller.Issued 0 0 page)
    : Related controller (controller.late page) page page := by
  have hcarry : page
      = Page.carry
          (controller.owing (controller.late page) (controller.promises page.host).waiting) page.trace
          { page with trace := [] } := by
    unfold Page.carry Controller.owing
    simp only [Promises.owing_self, h.withPromises_promises, List.append_nil]
  refine ⟨{ page with trace := [] }, (controller.promises page.host).waiting,
    (controller.promises page.host).waiting, page.trace, page.trace, hcarry, hcarry, rfl,
    hissued, rfl, ?_, ?_⟩
  . intro number hlate
    unfold Controller.late at hlate
    rcases (Option.any_eq_true_iff_get _ _).mp hlate with ⟨hsome, -⟩
    exact hissued.numbered number _ (Option.some_get hsome).symm
  . intro number continuation hlate hwaiting
    unfold Controller.late at hlate
    rw [hwaiting, Option.any_some, decide_eq_true_eq] at hlate
    exact Nat.lt_of_le_of_ne (hissued.past number continuation hwaiting) hlate

theorem related_step (h : controller.Lawful) (hrelated : Related controller late left right)
    {event : α} (hevent : controller.isLate late event = false)
    : Related controller late (controller.step left event) (controller.step right event) := by
  rcases hrelated with
    ⟨page, waiting, waiting', earlier, earlier', rfl, rfl, htrace, hissued, hcommands, hbound, hstale⟩
  have hstep : controller.Issued (controller.promises page.host).next page.session.generation
      (controller.step page event) :=
    h.issued_step (Issued.refresh hissued) event
  have hcarry : ∀ waiting earlier,
      controller.step (page.carry (controller.owing late waiting) earlier) event
        = Page.carry (controller.owing late waiting) (earlier ++ (controller.step page event).trace)
            { controller.step page event with trace := [] } := by
    intro waiting earlier
    have hbound' : ∀ number, late number = true
        → number < (controller.promises (page.emit (controller.event event)).host).next := hbound
    unfold Controller.step
    rw [Page.carry_emit, h.handle_carry hbound' hevent]
    unfold Page.carry
    rw [List.append_nil]
  refine ⟨{ controller.step page event with trace := [] }, waiting, waiting', _, _,
    hcarry waiting earlier, hcarry waiting' earlier', rfl,
    Issued.weaken hstep, ?_, ?_, ?_⟩
  . rw [List.filter_append, List.filter_append, hcommands]
  . exact fun number hlate => Nat.lt_of_lt_of_le (hbound number hlate) hstep.next
  . exact fun number continuation hlate hwaiting =>
      Nat.lt_of_lt_of_le (hstale number continuation hlate hwaiting) hstep.generation

theorem settled_carry (h : controller.Lawful) {number : Nat} (hlate : late number = true)
    (waiting : Nat → Option κ) (earlier : List (Nat × ε))
    : controller.settled number (page.carry (controller.owing late waiting) earlier)
        = page.carry (controller.owing late (Function.update waiting number none)) earlier := by
  unfold Controller.settled Page.carry Page.modify Controller.owing
  dsimp only
  rw [h.promises_withPromises, h.withPromises_withPromises, Promises.settle_owing_late hlate]

theorem handle_late (h : controller.Lawful) {event : α} {number : Nat} {result : ρ}
    (hevent : controller.settlement? event = some (number, result)) (hlate : late number = true)
    {waiting : Nat → Option κ} (earlier : List (Nat × ε)) (htrace : page.trace = [])
    (hstale : ∀ continuation, waiting number = some continuation
      → (controller.ticket continuation).generation < page.session.generation)
    : ∃ waiting' more, controller.handle event (page.carry (controller.owing late waiting) earlier)
          = page.carry (controller.owing late waiting') (earlier ++ more)
        ∧ (∀ other continuation, waiting' other = some continuation
          → waiting other = some continuation)
        ∧ ∀ entry ∈ more, controller.isCommand entry.2 = false := by
  have hwaiting : (controller.promises
      (page.carry (controller.owing late waiting) earlier).host).waiting number = waiting number := by
    unfold Page.carry Controller.owing
    dsimp only
    rw [h.promises_withPromises]
    unfold Promises.owing
    simp only [hlate, if_true]
  rw [h.handle_settle _ hevent]
  unfold Controller.settle
  rw [hwaiting]
  split
  . exact ⟨waiting, [], by rw [List.append_nil], fun _ _ h => h, by simp⟩
  . next resume hresume =>
    rcases Option.bind_eq_some_iff.mp hresume with ⟨continuation, hcontinuation, hresume⟩
    have hgeneration := Nat.ne_of_lt (hstale continuation hcontinuation)
    have hvalid : (page.carry (controller.owing late (Function.update waiting number none))
          earlier).valid controller.options (controller.ticket continuation)
        = (false, page.carry (controller.owing late (Function.update waiting number none)) earlier) :=
      Page.valid_of_stale hgeneration
    rw [h.settled_carry hlate, h.resume_invalid hresume hvalid hgeneration, Page.foldl_emit]
    refine ⟨Function.update waiting number none, (controller.fills continuation result).map
      fun entry => (page.session.generation, entry), ?_, ?_, ?_⟩
    . unfold Page.carry
      simp only [htrace, List.append_nil]
    . intro other continuation hother
      by_cases hnumber : other = number
      . simp [hnumber] at hother
      . rwa [Function.update_of_ne hnumber] at hother
    . intro entry hentry
      rcases List.mem_map.mp hentry with ⟨fill, hfill, rfl⟩
      exact h.isCommand_fill hfill

theorem related_late (h : controller.Lawful) (hrelated : Related controller late left right)
    {event : α} (hevent : controller.isLate late event = true)
    : Related controller late (controller.step left event) right := by
  rcases hrelated with
    ⟨page, waiting, waiting', earlier, earlier', rfl, rfl, htrace, hissued, hcommands, hbound, hstale⟩
  unfold Controller.isLate at hevent
  rcases (Option.any_eq_true_iff_get _ _).mp hevent with ⟨hsome, hlate⟩
  have hsettlement := (Option.some_get hsome).symm
  have hemit : (page.carry (controller.owing late waiting) earlier).emit (controller.event event)
      = page.carry (controller.owing late waiting)
          (earlier ++ [(page.session.generation, controller.event event)]) := by
    unfold Page.emit Page.carry
    simp only [htrace, List.append_nil]
  rcases h.handle_late hsettlement hlate
      (earlier ++ [(page.session.generation, controller.event event)]) htrace
      fun continuation => hstale _ continuation hlate with ⟨waiting'', more, hhandle, hwaiting, hmore⟩
  have hstep : controller.step (page.carry (controller.owing late waiting) earlier) event
      = page.carry (controller.owing late waiting'')
          (earlier ++ [(page.session.generation, controller.event event)] ++ more) := by
    unfold Controller.step
    rw [hemit, hhandle]
  refine ⟨page, waiting'', waiting', _, earlier', hstep, rfl, htrace, hissued, ?_, hbound, ?_⟩
  . have hnone : more.filter (fun entry => controller.isCommand entry.2) = [] := by
      rw [List.filter_eq_nil_iff]
      intro entry hentry
      rw [hmore entry hentry]
      exact Bool.false_ne_true
    rw [List.filter_append, List.filter_append, hnone, List.append_nil, ← hcommands,
      List.filter_cons_of_neg (by rw [h.isCommand_event]; exact Bool.false_ne_true), List.filter_nil,
      List.append_nil]
  . exact fun number continuation hlate hwaiting' =>
      hstale number continuation hlate (hwaiting number continuation hwaiting')

-- The results of late promises make no difference.
theorem forget_run (h : controller.Lawful) (hissued : controller.Issued 0 0 page) (events : List α)
    : controller.forget (controller.late page) (controller.run page events)
        = controller.forget (controller.late page) (controller.run page
            (events.filter fun event => !controller.isLate (controller.late page) event)) := by
  have hrun : ∀ {left right : Page σ ε}, Related controller (controller.late page) left right
      → Related controller (controller.late page) (controller.run left events)
        (controller.run right
          (events.filter fun event => !controller.isLate (controller.late page) event)) := by
    induction events with
    | nil => exact id
    | cons event events ih =>
      intro left right hrelated
      cases hevent : controller.isLate (controller.late page) event with
      | false =>
        rw [List.filter_cons_of_pos (by rw [hevent]; rfl)]
        exact ih (h.related_step hrelated hevent)
      | true =>
        rw [List.filter_cons_of_neg (by rw [hevent]; exact Bool.noConfusion)]
        exact ih (h.related_late hrelated hevent)
  exact h.forget_eq (hrun (h.related_refl hissued))

end

end Controller.Lawful

end Web
