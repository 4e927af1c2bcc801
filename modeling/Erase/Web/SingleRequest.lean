import Erase.Library.Lists
import Erase.Web.Reader

namespace Web

open Reader

namespace Continuation

def isLoad : Continuation → Bool
  | loadLink _ => true
  | loadMetadata _ => true
  | loadHeader _ _ => true
  | _ => false

def isOpen : Continuation → Bool
  | openAccess _ => true
  | openPacket _ => true
  | openContent _ => true
  | _ => false

end Continuation

def Entry.isConsuming : Entry → Bool
  | call _ (.openNote _ _) => true
  | _ => false

-- The entry is a consuming request, or a load that allows one.
def Entry.isMilestone : Entry → Bool
  | loaded _ => true
  | entry => entry.isConsuming

-- The entry settles the preparation that was called under `number`.
def Entry.settlesAccess (number : Nat) : Entry → Bool
  | event (.settle other (.access _)) => other = number
  | event (.settle other (.rejected _)) => other = number
  | _ => false

abbrev Trace := List (Nat × Entry)

namespace Trace

def Quiet (trace : Trace) : Prop := ∀ entry ∈ trace, entry.2.isMilestone = false

def Unsettled (trace : Trace) (number : Nat) : Prop :=
  ∀ entry ∈ trace, entry.2.settlesAccess number = false

-- The last milestone is a load of `id` in `generation`.
def Armed (trace : Trace) (generation : Nat) (id : JsString) : Prop :=
  ∃ earlier middle : Trace, trace = earlier ++ (generation, .loaded id) :: middle ∧ middle.Quiet

-- An explicit opening has made the call `number` since the last milestone, and awaits it.
def Preparing (trace : Trace) (generation : Nat) (id : JsString) (number : Nat) : Prop :=
  ∃ (earlier middle later : Trace) (passphrase : JsString),
    trace = earlier ++ (generation, .loaded id) :: middle
        ++ (generation, .event .openNote) :: (generation, .call number (.prepare passphrase)) :: later
      ∧ middle.Quiet ∧ later.Quiet ∧ later.Unsettled number

def Caused (trace : Trace) (generation : Nat) (id token : JsString) : Prop :=
  ∃ (before : Trace) (number : Nat),
    trace = before ++ [(generation, .event (.settle number (.access token)))]
      ∧ before.Preparing generation id number

-- What stands before a consuming request meets `P`.
def Justified (P : Trace → Nat → JsString → JsString → Prop) (trace : Trace) : Prop :=
  ∀ (before after : Trace) (generation number : Nat) (id token : JsString),
    trace = before ++ (generation, .call number (.openNote id token)) :: after
      → P before generation id token

def Sound (trace : Trace) : Prop :=
  ∀ (before after : Trace) (generation number : Nat) (id token : JsString),
    trace = before ++ (generation, .call number (.openNote id token)) :: after
      → before.Caused generation id token

section

variable {trace more : Trace} {generation number : Nat} {id token : JsString}

theorem Quiet.append (h : trace.Quiet) (hmore : more.Quiet) : Quiet (trace ++ more) :=
  List.forall_mem_append.mpr ⟨h, hmore⟩

theorem unsettled_singleton {generation : Nat} {entry : Entry}
    (h : entry.settlesAccess number = false) : Unsettled [(generation, entry)] number := by
  intro entry' hmem
  rw [List.mem_singleton.mp hmem]
  exact h

theorem Quiet.isConsuming (h : trace.Quiet) : ∀ entry ∈ trace, entry.2.isConsuming = false := by
  intro entry hmem
  have hmilestone := h entry hmem
  cases hentry : entry.2 with
  | call number request =>
    rw [hentry] at hmilestone
    exact hmilestone
  | _ => rfl

theorem quiet_singleton {generation : Nat} {entry : Entry} (h : entry.isMilestone = false)
    : Quiet [(generation, entry)] := by
  intro entry' hmem
  rw [List.mem_singleton.mp hmem]
  exact h

theorem armed_loaded (trace : Trace) (generation : Nat) (id : JsString)
    : Armed (trace ++ [(generation, .loaded id)]) generation id :=
  ⟨trace, [], rfl, by simp [Quiet]⟩

theorem Armed.append (h : trace.Armed generation id) (hmore : more.Quiet)
    : Armed (trace ++ more) generation id := by
  rcases h with ⟨earlier, middle, rfl, hmiddle⟩
  exact ⟨earlier, middle ++ more, by simp, hmiddle.append hmore⟩

theorem Armed.prepare (h : trace.Armed generation id) (number : Nat) (passphrase : JsString)
    : Preparing (trace ++ [(generation, .event .openNote)]
        ++ [(generation, .call number (.prepare passphrase))]) generation id number := by
  rcases h with ⟨earlier, middle, rfl, hmiddle⟩
  exact ⟨earlier, middle, [], passphrase, by simp, hmiddle, by simp [Quiet], by simp [Unsettled]⟩

theorem Preparing.append (h : trace.Preparing generation id number) (hmore : more.Quiet)
    (hunsettled : more.Unsettled number) : Preparing (trace ++ more) generation id number := by
  rcases h with ⟨earlier, middle, later, passphrase, rfl, hmiddle, hlater, hlater'⟩
  exact ⟨earlier, middle, later ++ more, passphrase, by simp, hmiddle, hlater.append hmore,
    List.forall_mem_append.mpr ⟨hlater', hunsettled⟩⟩

theorem Preparing.armed (h : trace.Preparing generation id number) : trace.Armed generation id := by
  rcases h with ⟨earlier, middle, later, passphrase, rfl, hmiddle, hlater, -⟩
  refine ⟨earlier, middle ++ (generation, .event .openNote)
    :: (generation, .call number (.prepare passphrase)) :: later, by simp, hmiddle.append ?_⟩
  intro entry hmem
  rcases List.mem_cons.mp hmem with rfl | hmem
  . rfl
  . rcases List.mem_cons.mp hmem with rfl | hmem
    . rfl
    . exact hlater entry hmem

theorem Caused.armed (h : trace.Caused generation id token) : trace.Armed generation id := by
  rcases h with ⟨before, number, rfl, hpreparing⟩
  exact hpreparing.armed.append (quiet_singleton rfl)

-- A load stands between a consuming request and the next state that allows one.
theorem Armed.loaded_mem {before between : Trace} {entry : Nat × Entry}
    (h : Armed (before ++ entry :: between) generation id) (hentry : entry.2.isConsuming = true)
    : (generation, .loaded id) ∈ between := by
  rcases h with ⟨earlier, middle, hsplit, hquiet⟩
  rcases List.append_eq_append_iff.mp hsplit with ⟨rest, -, hrest⟩ | ⟨rest, -, hrest⟩
  . cases rest with
    | nil =>
      cases hrest
      cases hentry
    | cons head rest =>
      cases hrest
      simp
  . cases rest with
    | nil =>
      cases hrest
      cases hentry
    | cons head rest =>
      cases hrest
      have hquiet := Quiet.isConsuming hquiet entry (by simp)
      simp [hentry] at hquiet

section

variable {P : Trace → Nat → JsString → JsString → Prop}

theorem Justified.append (h : trace.Justified P) (hmore : ∀ entry ∈ more, entry.2.isConsuming = false)
    : Justified P (trace ++ more) := by
  intro before after generation number id token hsplit
  have hnone : (generation, .call number (.openNote id token)) ∉ more := by
    intro hmem
    cases hmore _ hmem
  rcases List.append_eq_append_iff.mp hsplit with ⟨rest, -, hrest⟩ | ⟨rest, htrace, hrest⟩
  . exact absurd (by simp [hrest]) hnone
  . cases rest with
    | nil =>
      rw [List.nil_append] at hrest
      exact absurd (by simp [← hrest]) hnone
    | cons entry rest =>
      rw [List.cons_append] at hrest
      cases hrest
      exact h before rest generation number id token htrace

theorem Justified.consume (h : trace.Justified P) (hjustified : P trace generation id token)
    (number : Nat) : Justified P (trace ++ [(generation, .call number (.openNote id token))]) := by
  intro before after generation' number' id' token' hsplit
  rcases List.split_snoc hsplit with ⟨rfl, hentry⟩ | ⟨rest, hrest⟩
  . cases hentry
    exact hjustified
  . exact h before rest generation' number' id' token' hrest

end

theorem Sound.append (h : trace.Sound) (hmore : ∀ entry ∈ more, entry.2.isConsuming = false)
    : Sound (trace ++ more) :=
  Justified.append h hmore

theorem Sound.consume (h : trace.Sound) (hcaused : trace.Caused generation id token) (number : Nat)
    : Sound (trace ++ [(generation, .call number (.openNote id token))]) :=
  Justified.consume h hcaused number

end

end Trace

-- What the requests of a reader depend on.
structure View where
  generation : Nat
  controller : Nat
  phase : Phase
  busy : Bool
  id : JsString
  promises : Promises Continuation
  trace : Trace

def view (page : ReaderPage) : View where
  generation := page.session.generation
  controller := page.session.controller
  phase := page.host.state.phase
  busy := page.host.state.busy
  id := page.host.id
  promises := page.host.promises
  trace := page.trace

namespace View

def emit (view : View) (entry : Entry) : View :=
  { view with trace := view.trace ++ [(view.generation, entry)] }

def settle (view : View) (number : Nat) : View :=
  { view with promises := view.promises.settle number }

-- A call suspended under `number` whose ticket is not stale.
def Current (view : View) (number : Nat) (continuation : Continuation) : Prop :=
  view.promises.waiting number = some continuation ∧ continuation.ticket.generation = view.generation

def Idle (view : View) : Prop :=
  ∀ number continuation, view.Current number continuation
    → continuation.isLoad = false ∧ continuation.isOpen = false

end View

-- `fresh` says that no load has started in the generation.
structure Coherent (fresh : Bool) (view : View) : Prop where
  controller : view.controller = view.generation
  numbered : view.promises.Numbered
  past : ∀ number continuation, view.promises.waiting number = some continuation
    → continuation.ticket.generation ≤ view.generation
      ∧ continuation.ticket.signal = continuation.ticket.generation
  fresh : fresh = true → view.phase ≠ .ready ∧ view.Idle
  loading : ∀ number continuation, view.Current number continuation → continuation.isLoad = true
    → view.phase ≠ .ready
  opening : ∀ number continuation, view.Current number continuation → continuation.isOpen = true
    → view.busy = true
  single : ∀ {number continuation other suspended},
    view.Current number continuation → (continuation.isLoad || continuation.isOpen) = true
      → view.Current other suspended → (suspended.isLoad || suspended.isOpen) = true
      → number = other
  ready : view.phase = .ready → view.busy = false → view.trace.Armed view.generation view.id
  preparing : ∀ number ticket, view.Current number (.openAccess ticket)
    → view.trace.Preparing view.generation view.id number
  sound : view.trace.Sound

theorem eq_fill_of_mem_fillFiles {content : Option Shared.ContentInput} {entry : Entry}
    (h : entry ∈ fillFiles content) : ∃ data, entry = .fill data := by
  unfold fillFiles at h
  split at h
  . cases h
  . rcases List.mem_map.mp h with ⟨file, -, rfl⟩
    exact ⟨file.data, rfl⟩

theorem isMilestone_of_mem_reset (reason : ClearReason) (reader : Reader) {entry : Entry}
    (h : entry ∈ (reset reason reader).2) : entry.isMilestone = false := by
  unfold reset at h
  rcases List.mem_cons.mp h with rfl | h
  . rfl
  . rcases List.mem_append.mp h with h | h
    . rcases List.mem_map.mp h with ⟨url, -, rfl⟩
      rfl
    . rcases eq_fill_of_mem_fillFiles h with ⟨data, rfl⟩
      rfl

namespace Coherent

variable {fresh : Bool} {before : View} {page : ReaderPage}

theorem append (h : Coherent fresh before) {more : Trace} (hmore : more.Quiet)
    (hunsettled : ∀ number ticket, before.promises.waiting number = some (.openAccess ticket)
      → more.Unsettled number)
    : Coherent fresh { before with trace := before.trace ++ more } := {
  h with
  ready := fun hphase hbusy => (h.ready hphase hbusy).append hmore
  preparing := fun number ticket hcurrent =>
    (h.preparing number ticket hcurrent).append hmore (hunsettled number ticket hcurrent.1)
  sound := h.sound.append hmore.isConsuming }

theorem emit (h : Coherent fresh before) {entry : Entry} (hentry : entry.isMilestone = false)
    (hunsettled : ∀ number ticket, before.promises.waiting number = some (.openAccess ticket)
      → entry.settlesAccess number = false)
    : Coherent fresh (before.emit entry) := by
  apply h.append (Trace.quiet_singleton hentry)
  exact fun number ticket hwaiting => Trace.unsettled_singleton (hunsettled number ticket hwaiting)

theorem clear (h : Coherent fresh before) (fresh' : Bool) {more : Trace} (hmore : more.Quiet)
    : Coherent fresh' { before with
        generation := before.generation + 1, controller := before.controller + 1, phase := .cleared,
        busy := false, id := [], trace := before.trace ++ more } := by
  have hstale : ∀ number continuation, before.promises.waiting number = some continuation
      → continuation.ticket.generation ≠ before.generation + 1 := by
    intro number continuation hwaiting
    have := (h.past number continuation hwaiting).1
    omega
  exact {
    controller := by rw [h.controller]
    numbered := h.numbered
    past := fun number continuation hwaiting =>
      ⟨Nat.le_succ_of_le (h.past number continuation hwaiting).1, (h.past number continuation hwaiting).2⟩
    fresh := fun _ => ⟨by simp, fun number continuation hcurrent =>
      absurd hcurrent.2 (hstale number continuation hcurrent.1)⟩
    loading := fun number continuation hcurrent => absurd hcurrent.2 (hstale _ _ hcurrent.1)
    opening := fun number continuation hcurrent => absurd hcurrent.2 (hstale _ _ hcurrent.1)
    single := fun hcurrent => absurd hcurrent.2 (hstale _ _ hcurrent.1)
    ready := by simp
    preparing := fun number ticket hcurrent => absurd hcurrent.2 (hstale _ _ hcurrent.1)
    sound := h.sound.append hmore.isConsuming }

theorem of_clear (h : Coherent fresh (view page)) (reason : ClearReason) (fresh' : Bool)
    : Coherent fresh' (view (page.clear options reason)) := by
  apply h.clear fresh'
  intro entry hmem
  rcases List.mem_map.mp hmem with ⟨cleared, hcleared, rfl⟩
  exact isMilestone_of_mem_reset reason _ hcleared

theorem invariant (fresh : Bool)
    : options.Invariant fun page : ReaderPage => Coherent fresh (view page) where
  clear reason h := h.of_clear reason fresh
  ambient _ _ _ _ h := h
  schedule _ _ h := h
  warning _ h := h
  clock _ h := h

theorem weaken (h : Coherent true before) : Coherent false before := { h with fresh := by simp }

theorem settle (h : Coherent fresh before) (number : Nat) : Coherent fresh (before.settle number) := by
  have hcurrent : ∀ {other continuation}, (before.settle number).Current other continuation
      → before.Current other continuation :=
    fun h => ⟨(Promises.waiting_settle.mp h.1).2, h.2⟩
  exact { h with
    numbered := h.numbered.settle number
    past := fun other continuation hwaiting =>
      h.past other continuation (Promises.waiting_settle.mp hwaiting).2
    fresh := fun hfresh => ⟨(h.fresh hfresh).1,
      fun other continuation hother => (h.fresh hfresh).2 other continuation (hcurrent hother)⟩
    loading := fun other continuation hother => h.loading other continuation (hcurrent hother)
    opening := fun other continuation hother => h.opening other continuation (hcurrent hother)
    single := fun hleft hkind hright hkind' => h.single (hcurrent hleft) hkind (hcurrent hright) hkind'
    preparing := fun other ticket hother => h.preparing other ticket (hcurrent hother) }

-- A load or an opening that goes on is the only one of its generation.
theorem idle_settle (h : Coherent fresh before) {number : Nat} {continuation : Continuation}
    (hcurrent : before.Current number continuation)
    (hkind : (continuation.isLoad || continuation.isOpen) = true)
    : fresh = false ∧ (before.settle number).Idle := by
  constructor
  . rw [← Bool.not_eq_true]
    intro hfresh
    rcases (h.fresh hfresh).2 number continuation hcurrent with ⟨hload, hopen⟩
    simp [hload, hopen] at hkind
  . intro other suspended hother
    rcases Promises.waiting_settle.mp hother.1 with ⟨hne, hwaiting⟩
    rw [← Bool.or_eq_false_iff, ← Bool.not_eq_true]
    intro hkind'
    exact hne (h.single ⟨hwaiting, hother.2⟩ hkind' hcurrent hkind)

theorem idle_of_ready (h : Coherent fresh before) (hphase : before.phase = .ready)
    (hbusy : before.busy = false) : before.Idle := by
  intro number continuation hcurrent
  constructor
  . rw [← Bool.not_eq_true]
    exact fun hload => h.loading number continuation hcurrent hload hphase
  . rw [← Bool.not_eq_true]
    intro hopen
    cases hbusy.symm.trans (h.opening number continuation hcurrent hopen)

theorem busy (h : Coherent fresh before) : Coherent fresh { before with busy := true } := { h with
  opening := fun _ _ _ _ => rfl
  ready := by simp }

theorem abandon (h : Coherent fresh before) (hidle : before.Idle) {phase : Phase}
    (hphase : phase ≠ .ready) (busy : Bool) (id : JsString)
    : Coherent fresh { before with phase, busy, id } := { h with
  fresh := fun _ => ⟨hphase, hidle⟩
  loading := fun _ _ _ _ => hphase
  opening := fun number continuation hcurrent hopen => by
    simp [(hidle number continuation hcurrent).2] at hopen
  ready := fun h => absurd h hphase
  preparing := fun number ticket hcurrent => by
    cases (hidle number _ hcurrent).2 }

theorem rest (h : Coherent fresh before) (hidle : before.Idle)
    (harmed : before.phase = .ready → before.trace.Armed before.generation before.id)
    : Coherent fresh { before with busy := false } := { h with
  opening := fun number continuation hcurrent hopen => by
    simp [(hidle number continuation hcurrent).2] at hopen
  ready := fun hphase _ => harmed hphase }

theorem load (h : Coherent false before) (hidle : before.Idle)
    : Coherent false ({ before with phase := .ready }.emit (.loaded before.id)) := { h with
  fresh := by simp
  loading := fun number continuation hcurrent hload => by
    simp [(hidle number continuation hcurrent).1] at hload
  ready := fun _ _ => Trace.armed_loaded _ _ _
  preparing := fun number ticket hcurrent => by
    cases (hidle number _ hcurrent).2
  sound := h.sound.append fun entry hmem => by rw [List.mem_singleton.mp hmem]; rfl }

theorem consume (h : Coherent fresh before) (hidle : before.Idle) (hbusy : before.busy = true)
    {token : JsString} (hcaused : before.trace.Caused before.generation before.id token) (number : Nat)
    : Coherent fresh (before.emit (.call number (.openNote before.id token))) := { h with
  ready := fun _ hrest => by simp [hbusy, View.emit] at hrest
  preparing := fun number ticket hcurrent => by
    cases (hidle number _ hcurrent).2
  sound := h.sound.consume hcaused number }

theorem suspend (h : Coherent fresh before) {continuation : Continuation}
    (hgeneration : continuation.ticket.generation = before.generation)
    (hsignal : continuation.ticket.signal = before.controller)
    (hidle : (continuation.isLoad || continuation.isOpen) = true → fresh = false ∧ before.Idle)
    (hloading : continuation.isLoad = true → before.phase ≠ .ready)
    (hopening : continuation.isOpen = true → before.busy = true)
    (hpreparing : ∀ ticket, continuation = .openAccess ticket
      → before.trace.Preparing before.generation before.id before.promises.next)
    : Coherent fresh { before with promises := before.promises.suspend continuation } := by
  have hcases : ∀ {number suspended},
      View.Current { before with promises := before.promises.suspend continuation } number suspended
        → number = before.promises.next ∧ suspended = continuation
          ∨ before.Current number suspended := by
    intro number suspended hcurrent
    rcases Promises.waiting_suspend.mp hcurrent.1 with hnew | ⟨-, hwaiting⟩
    . exact .inl hnew
    . exact .inr ⟨hwaiting, hcurrent.2⟩
  have hexclusive : ∀ {number suspended}, before.Current number suspended
      → (suspended.isLoad || suspended.isOpen) = true
      → (continuation.isLoad || continuation.isOpen) = false := by
    intro number suspended hcurrent hkind
    rw [← Bool.not_eq_true]
    intro hkind'
    rcases (hidle hkind').2 number suspended hcurrent with ⟨hload, hopen⟩
    simp [hload, hopen] at hkind
  exact {
    controller := h.controller
    numbered := h.numbered.suspend continuation
    past := fun number suspended hwaiting => by
      rcases Promises.waiting_suspend.mp hwaiting with ⟨-, rfl⟩ | ⟨-, hwaiting⟩
      . exact ⟨hgeneration.le, by rw [hsignal, hgeneration, h.controller]⟩
      . exact h.past number suspended hwaiting
    fresh := fun hfresh => ⟨(h.fresh hfresh).1, fun number suspended hcurrent => by
      rcases hcases hcurrent with ⟨-, rfl⟩ | hold
      . rw [← Bool.or_eq_false_iff, ← Bool.not_eq_true]
        intro hkind
        simp [(hidle hkind).1] at hfresh
      . exact (h.fresh hfresh).2 number suspended hold⟩
    loading := fun number suspended hcurrent hload => by
      rcases hcases hcurrent with ⟨-, rfl⟩ | hold
      . exact hloading hload
      . exact h.loading number suspended hold hload
    opening := fun number suspended hcurrent hopen => by
      rcases hcases hcurrent with ⟨-, rfl⟩ | hold
      . exact hopening hopen
      . exact h.opening number suspended hold hopen
    single := fun {number suspended other suspended'} hleft hkind hright hkind' => by
      rcases hcases hleft with ⟨rfl, rfl⟩ | hold
      . rcases hcases hright with ⟨rfl, -⟩ | hold
        . rfl
        . simp [hexclusive hold hkind'] at hkind
      . rcases hcases hright with ⟨-, rfl⟩ | hold'
        . simp [hexclusive hold hkind] at hkind'
        . exact h.single hold hkind hold' hkind'
    ready := h.ready
    preparing := fun number ticket hcurrent => by
      rcases hcases hcurrent with ⟨rfl, hnew⟩ | hold
      . exact hpreparing ticket hnew.symm
      . exact h.preparing number ticket hold
    sound := h.sound }

end Coherent

section

variable {fresh : Bool} {page : ReaderPage} {ticket : Ticket} {number : Nat}

theorem live_setState (h : page.Live) (f : ReaderState → ReaderState) : (setState f page).Live := h

theorem coherent_await (h : Coherent fresh (view page)) {request : Request}
    {continuation : Continuation}
    (hrequest : (Entry.call page.host.promises.next request).isMilestone = false)
    (hgeneration : continuation.ticket.generation = page.session.generation)
    (hsignal : continuation.ticket.signal = page.session.controller)
    (hidle : (continuation.isLoad || continuation.isOpen) = true → fresh = false ∧ (view page).Idle)
    (hloading : continuation.isLoad = true → page.host.state.phase ≠ .ready)
    (hopening : continuation.isOpen = true → page.host.state.busy = true)
    (hpreparing : ∀ ticket, continuation = .openAccess ticket
      → Trace.Preparing (page.trace ++ [(page.session.generation, .call page.host.promises.next request)])
          page.session.generation page.host.id page.host.promises.next)
    : Coherent fresh (view (await request continuation page)) :=
  (h.emit hrequest fun _ _ _ => rfl).suspend hgeneration hsignal hidle hloading hopening hpreparing

theorem coherent_load (h : Coherent true (view page)) (url : JsString)
    : Coherent false (view (Reader.load url page)) := by
  have hstarted : Coherent true (view (setState (fun state => { state with
      phase := .loading, error := "", status := "Checking package metadata…" }) page)) :=
    h.abandon (h.fresh rfl).2 (show Phase.loading ≠ .ready by decide) _ _
  have hticketed := (Coherent.invariant true).ticket
    ((Coherent.invariant true).touchAt hstarted page.now)
  rcases hticketed.fresh rfl with ⟨hphase, hidle⟩
  apply coherent_await hticketed.weaken
  . rfl
  . rfl
  . rfl
  . exact fun _ => ⟨rfl, hidle⟩
  . exact fun _ => hphase
  . simp [Continuation.isOpen]
  . simp

theorem coherent_loadFailed (h : Coherent fresh (view page))
    (hidle : ticket.generation = page.session.generation → (view page).Idle) (error : Failure)
    : Coherent fresh (view (loadFailed ticket error page)) := by
  unfold loadFailed
  split
  . next hvalid => exact (Coherent.invariant fresh).valid h hvalid
  . next hvalid =>
    rcases Page.valid_eq_true hvalid with ⟨rfl, -, hgeneration⟩
    have hdisposed : Coherent fresh ((view page).emit .dispose) := h.emit rfl fun _ _ _ => rfl
    exact hdisposed.abandon (hidle hgeneration) (show Phase.error ≠ .ready by decide) _ _

-- What holds as soon as the continuation of a load or an opening runs, unless its ticket is stale.
structure Resumed (fresh : Bool) (page : ReaderPage) (ticket : Ticket) : Prop where
  coherent : Coherent fresh (view page)
  signal : ticket.signal = ticket.generation
  idle : ticket.generation = page.session.generation → fresh = false ∧ (view page).Idle

theorem Resumed.stale (h : Resumed fresh page ticket) {page' : ReaderPage}
    (hvalid : page.valid options ticket = (false, page'))
    : ticket.generation ≠ page'.session.generation :=
  Page.stale_of_valid_eq_false hvalid h.signal h.coherent.controller

theorem Resumed.signal_eq (h : Resumed fresh page ticket)
    (hgeneration : ticket.generation = page.session.generation)
    : ticket.signal = page.session.controller := by
  rw [h.signal, hgeneration]
  exact h.coherent.controller.symm

theorem coherent_loadLink (h : Resumed fresh page ticket)
    (hphase : ticket.generation = page.session.generation → page.host.state.phase ≠ .ready)
    (id peekToken : JsString) : Coherent fresh (view (loadLink ticket id peekToken page)) := by
  unfold loadLink
  split
  . next hvalid => exact (Coherent.invariant fresh).valid h.coherent hvalid
  . next hvalid =>
    rcases Page.valid_eq_true hvalid with ⟨rfl, -, hgeneration⟩
    apply coherent_await
    . exact h.coherent.abandon (h.idle hgeneration).2 (hphase hgeneration) _ id
    . rfl
    . exact hgeneration
    . exact h.signal_eq hgeneration
    . exact fun _ => h.idle hgeneration
    . exact fun _ => hphase hgeneration
    . simp [Continuation.isOpen]
    . simp

theorem coherent_loadMetadata (h : Resumed fresh page ticket)
    (hphase : ticket.generation = page.session.generation → page.host.state.phase ≠ .ready)
    (metadata : Metadata) : Coherent fresh (view (loadMetadata ticket metadata page)) := by
  unfold loadMetadata
  split
  . next hvalid => exact (Coherent.invariant fresh).valid h.coherent hvalid
  . next hvalid =>
    rcases Page.valid_eq_true hvalid with ⟨rfl, -, hgeneration⟩
    apply coherent_await h.coherent
    . rfl
    . exact hgeneration
    . exact h.signal_eq hgeneration
    . exact fun _ => h.idle hgeneration
    . exact fun _ => hphase hgeneration
    . simp [Continuation.isOpen]
    . simp

theorem coherent_loadHeader (h : Resumed fresh page ticket) (metadata : Metadata)
    (header : Shared.Header) : Coherent fresh (view (loadHeader ticket metadata header page)) := by
  unfold loadHeader
  split
  . next hvalid => exact (Coherent.invariant fresh).valid h.coherent hvalid
  . next hvalid =>
    rcases Page.valid_eq_true hvalid with ⟨rfl, -, hgeneration⟩
    split
    . exact coherent_loadFailed h.coherent (fun hcurrent => (h.idle hcurrent).2) _
    . have hcoherent := h.coherent
      rcases h.idle hgeneration with ⟨rfl, hidle⟩
      exact hcoherent.load hidle

theorem coherent_openFinally (h : Coherent fresh (view page))
    (hidle : ticket.generation = page.session.generation → (view page).Idle
      ∧ (page.host.state.phase = .ready → Trace.Armed page.trace page.session.generation page.host.id))
    (packet : Option Bytes) : Coherent fresh (view (openFinally ticket packet page)) := by
  have hfilled : ∀ page' : ReaderPage, Coherent fresh (view page')
      → (ticket.generation = page'.session.generation → (view page').Idle
        ∧ (page'.host.state.phase = .ready
          → Trace.Armed page'.trace page'.session.generation page'.host.id))
      → Coherent fresh (view (openFinally ticket none page')) := by
    intro page' h hidle
    unfold openFinally
    dsimp only
    split
    . next hvalid => exact (Coherent.invariant fresh).valid h hvalid
    . next hvalid =>
      rcases Page.valid_eq_true hvalid with ⟨rfl, -, hgeneration⟩
      exact h.rest (hidle hgeneration).1 (hidle hgeneration).2
  rcases openFinally_eq ticket packet with hsame | ⟨bytes, hsame⟩
  . rw [hsame]
    exact hfilled page h hidle
  . rw [hsame]
    apply hfilled (page.emit (.fill bytes)) (h.emit rfl fun _ _ _ => rfl)
    intro hgeneration
    rcases hidle hgeneration with ⟨hidle, harmed⟩
    exact ⟨hidle, fun hphase => (harmed hphase).append (Trace.quiet_singleton rfl)⟩

theorem coherent_stale (h : Resumed fresh page ticket) {page' : ReaderPage}
    (hvalid : page.valid options ticket = (false, page')) (packet : Option Bytes)
    : Coherent fresh (view (openFinally ticket packet page')) :=
  coherent_openFinally ((Coherent.invariant fresh).valid h.coherent hvalid)
    (fun hgeneration => absurd hgeneration (h.stale hvalid)) packet

theorem coherent_openFailed (h : Resumed fresh page ticket) (requested : Bool)
    (harmed : ticket.generation = page.session.generation → requested = false
      → Trace.Armed page.trace page.session.generation page.host.id)
    (error : Failure) : Coherent fresh (view (openFailed ticket requested error page)) := by
  unfold openFailed
  split
  . next hvalid => exact coherent_stale h hvalid none
  . next hvalid =>
    rcases Page.valid_eq_true hvalid with ⟨rfl, -, hgeneration⟩
    cases requested with
    | false =>
      apply coherent_openFinally
      . exact h.coherent
      . exact fun _ => ⟨(h.idle hgeneration).2, fun _ => harmed hgeneration rfl⟩
    | true =>
      have hdisposed : Coherent fresh ((view page).emit .dispose) :=
        h.coherent.emit rfl fun _ _ _ => rfl
      have hphase : Phase.error ≠ .ready := by decide
      apply coherent_openFinally
      . exact hdisposed.abandon (h.idle hgeneration).2 hphase _ _
      . exact fun _ => ⟨(h.idle hgeneration).2, fun hready => absurd hready hphase⟩

theorem coherent_openAccess (h : Resumed fresh page ticket)
    (hbusy : ticket.generation = page.session.generation → page.host.state.busy = true)
    {readToken : JsString}
    (hcaused : ticket.generation = page.session.generation
      → Trace.Caused page.trace page.session.generation page.host.id readToken)
    : Coherent fresh (view (openAccess ticket readToken page)) := by
  unfold openAccess
  split
  . next hvalid => exact coherent_stale h hvalid none
  . next hvalid =>
    rcases Page.valid_eq_true hvalid with ⟨rfl, -, hgeneration⟩
    have hconsumed := h.coherent.consume (h.idle hgeneration).2 (hbusy hgeneration)
      (hcaused hgeneration) page.host.promises.next
    apply hconsumed.suspend
    . exact hgeneration
    . exact h.signal_eq hgeneration
    . exact fun _ => h.idle hgeneration
    . simp [Continuation.isLoad]
    . exact fun _ => hbusy hgeneration
    . simp

theorem coherent_openPacket (h : Resumed fresh page ticket)
    (hbusy : ticket.generation = page.session.generation → page.host.state.busy = true)
    (packet : Bytes) : Coherent fresh (view (openPacket ticket packet page)) := by
  unfold openPacket
  split
  . next hvalid => exact coherent_stale h hvalid (some packet)
  . next hvalid =>
    rcases Page.valid_eq_true hvalid with ⟨rfl, -, hgeneration⟩
    apply coherent_await h.coherent
    . rfl
    . exact hgeneration
    . exact h.signal_eq hgeneration
    . exact fun _ => h.idle hgeneration
    . simp [Continuation.isLoad]
    . exact fun _ => hbusy hgeneration
    . simp

theorem coherent_openContent (h : Resumed fresh page ticket) (content : Shared.ContentInput)
    : Coherent fresh (view (openContent ticket content page)) := by
  unfold openContent
  split
  . next page' hvalid =>
    have hstale := (Coherent.invariant fresh).valid h.coherent hvalid
    have hne := h.stale hvalid
    dsimp only
    rw [Page.foldl_emit]
    apply coherent_openFinally
    . apply hstale.append
      . intro entry hmem
        rcases List.mem_map.mp hmem with ⟨filled, hfilled, rfl⟩
        rcases eq_fill_of_mem_fillFiles hfilled with ⟨data, rfl⟩
        rfl
      . intro number access hwaiting entry hmem
        rcases List.mem_map.mp hmem with ⟨filled, hfilled, rfl⟩
        rcases eq_fill_of_mem_fillFiles hfilled with ⟨data, rfl⟩
        rfl
    . exact fun hgeneration => absurd hgeneration hne
  . next hvalid =>
    rcases Page.valid_eq_true hvalid with ⟨rfl, -, hgeneration⟩
    have hphase : Phase.opened ≠ .ready := by decide
    have hclosed := h.coherent.abandon (h.idle hgeneration).2 hphase page.host.state.busy []
    apply coherent_openFinally
    . exact hclosed.append (Trace.quiet_singleton rfl) fun _ _ _ => Trace.unsettled_singleton rfl
    . exact fun _ => ⟨(h.idle hgeneration).2, fun hready => absurd hready hphase⟩

theorem coherent_openNote (h : Coherent fresh (view page))
    : Coherent fresh (view (openNote (page.emit (.event .openNote)))) := by
  have hopened : Coherent fresh (view (page.emit (.event .openNote))) :=
    h.emit rfl fun _ _ _ => rfl
  unfold openNote
  split
  . next hexpire => exact (Coherent.invariant fresh).expire hopened hexpire
  . next hexpire =>
    rcases Page.expire_eq_false hexpire with ⟨rfl, hlive⟩
    split
    . exact hopened
    . next hguard =>
      split
      . exact hopened
      . simp only [Bool.or_eq_true, not_or, decide_eq_true_eq, Bool.not_eq_true, not_not] at hguard
        rcases hguard with ⟨⟨⟨hbusy, hphase⟩, -⟩, -⟩
        have hfresh : fresh = false := by
          rw [← Bool.not_eq_true]
          exact fun hfresh => (h.fresh hfresh).1 hphase
        have hidle : (view page).Idle := h.idle_of_ready hphase hbusy
        dsimp only
        rw [Page.ticket_of_live (live_setState hlive _)]
        apply coherent_await
        . exact hopened.busy
        . rfl
        . rfl
        . rfl
        . exact fun _ => ⟨hfresh, hidle⟩
        . simp [Continuation.isLoad]
        . exact fun _ => rfl
        . exact fun _ _ => (h.ready hphase hbusy).prepare _ _

theorem coherent_copyText (h : Coherent fresh (view page))
    : Coherent fresh (view (copyText page)) := by
  unfold copyText
  split
  . next hexpire => exact (Coherent.invariant fresh).expire h hexpire
  . next hexpire =>
    rcases Page.expire_eq_false hexpire with ⟨rfl, hlive⟩
    split
    . exact h
    . rw [Page.ticket_of_live hlive]
      apply coherent_await h
      . rfl
      . rfl
      . rfl
      . simp [Continuation.isLoad, Continuation.isOpen]
      . simp [Continuation.isLoad]
      . simp [Continuation.isOpen]
      . simp

theorem coherent_copied (h : Coherent fresh (view page)) (message : String)
    : Coherent fresh (view (copied ticket message page)) := by
  unfold copied
  split
  . next hvalid => exact (Coherent.invariant fresh).valid h hvalid
  . next hvalid =>
    rcases Page.valid_eq_true hvalid with ⟨rfl, -, -⟩
    exact h

theorem coherent_save (h : Coherent fresh (view page)) (name : JsString) (data : Bytes)
    : Coherent fresh (view (save name data page)) := by
  have hcreated : Coherent fresh ((view page).emit (.createObjectUrl page.host.urls.next data)) :=
    h.emit rfl fun _ _ _ => rfl
  have hsaved : Coherent fresh (((view page).emit (.createObjectUrl page.host.urls.next data)).emit
      (.save page.host.urls.next name)) :=
    hcreated.emit rfl fun _ _ _ => rfl
  exact hsaved

theorem coherent_download (h : Coherent fresh (view page)) (index : Nat)
    : Coherent fresh (view (download index page)) := by
  unfold download
  split
  . next hexpire => exact (Coherent.invariant fresh).expire h hexpire
  . next hexpire =>
    rcases Page.expire_eq_false hexpire with ⟨rfl, -⟩
    split
    . exact h
    . exact coherent_save h _ _

theorem coherent_downloadText (h : Coherent fresh (view page))
    : Coherent fresh (view (downloadText page)) := by
  unfold downloadText
  split
  . next hexpire => exact (Coherent.invariant fresh).expire h hexpire
  . next hexpire =>
    rcases Page.expire_eq_false hexpire with ⟨rfl, -⟩
    split
    . exact h
    . exact coherent_save h _ _

theorem coherent_releaseUrl (h : Coherent fresh (view page)) (index : Nat)
    : Coherent fresh (view (releaseUrl index page)) := by
  unfold releaseUrl
  split
  . exact h
  . split
    . exact h
    . exact h.append (Trace.quiet_singleton rfl) fun _ _ _ => Trace.unsettled_singleton rfl

theorem resume?_access {result : Result}
    (h : (Entry.event (.settle number result)).settlesAccess number = true)
    : ∃ resume, resume? (.openAccess ticket) result = some resume := by
  cases result with
  | access readToken => exact ⟨_, rfl⟩
  | rejected error => exact ⟨_, rfl⟩
  | _ => cases h

theorem number_of_settlesAccess {other : Nat} {result : Result}
    (h : (Entry.event (.settle other result)).settlesAccess number = true) : other = number := by
  cases result with
  | access readToken => exact of_decide_eq_true h
  | rejected error => exact of_decide_eq_true h
  | _ => cases h

-- The page on which the continuation of a settled promise runs.
def settledPage (number : Nat) (result : Result) (page : ReaderPage) : ReaderPage :=
  (page.emit (.event (.settle number result))).modify fun reader =>
    { reader with promises := reader.promises.settle number }

theorem step_settle {page : ReaderPage} {number : Nat} {continuation : Continuation} {result : Result}
    {resume : ReaderPage → ReaderPage}
    (hwaiting : page.host.promises.waiting number = some continuation)
    (hresume : resume? continuation result = some resume)
    : step page (.settle number result) = resume (settledPage number result page) := by
  have hbound : ((page.emit (.event (.settle number result))).host.promises.waiting number).bind
      (fun continuation => resume? continuation result) = some resume :=
    Option.bind_eq_some_iff.mpr ⟨continuation, hwaiting, hresume⟩
  change Reader.settle number result (page.emit (.event (.settle number result))) = _
  unfold Reader.settle
  rw [hbound]
  rfl

theorem step_settle_none {page : ReaderPage} {number : Nat} {result : Result}
    (h : ((page.host.promises.waiting number).bind fun continuation => resume? continuation result) = none)
    : step page (.settle number result) = page.emit (.event (.settle number result)) := by
  have hbound : ((page.emit (.event (.settle number result))).host.promises.waiting number).bind
      (fun continuation => resume? continuation result) = none := h
  change Reader.settle number result (page.emit (.event (.settle number result))) = _
  unfold Reader.settle
  rw [hbound]

theorem coherent_settled (h : Coherent fresh (view page)) (number : Nat) (result : Result)
    : Coherent fresh (view (settledPage number result page)) := by
  apply (h.settle number).emit rfl
  intro other ticket hother
  rw [← Bool.not_eq_true]
  intro hsettles
  exact (Promises.waiting_settle.mp hother).1 (number_of_settlesAccess hsettles).symm

theorem resumed_settled (h : Coherent fresh (view page)) {continuation : Continuation}
    (hwaiting : page.host.promises.waiting number = some continuation)
    (hkind : (continuation.isLoad || continuation.isOpen) = true) (result : Result)
    : Resumed fresh (settledPage number result page) continuation.ticket where
  coherent := coherent_settled h number result
  signal := (h.past number continuation hwaiting).2
  idle hgeneration := h.idle_settle ⟨hwaiting, hgeneration⟩ hkind

theorem coherent_settle (h : Coherent fresh (view page)) (number : Nat) (result : Result)
    : Coherent fresh (view (Reader.settle number result (page.emit (.event (.settle number result))))) := by
  unfold Reader.settle
  split
  . next hnone =>
    apply h.emit rfl
    intro other ticket hwaiting
    rw [← Bool.not_eq_true]
    intro hsettles
    have hnumber := number_of_settlesAccess hsettles
    subst hnumber
    rcases resume?_access hsettles with ⟨resume, hresume⟩
    rw [show (page.emit (.event (.settle number result))).host.promises.waiting number
      = some (.openAccess ticket) from hwaiting, Option.bind_some, hresume] at hnone
    cases hnone
  . next resume hsome =>
    rcases Option.bind_eq_some_iff.mp hsome with ⟨continuation, hwaiting, hresume⟩
    change Coherent fresh (view (resume (settledPage number result page)))
    have hwaiting : page.host.promises.waiting number = some continuation := hwaiting
    have hcoherent := coherent_settled h number result
    have hcurrent : ∀ {ticket : Ticket}, continuation.ticket = ticket
        → ticket.generation = page.session.generation → (view page).Current number continuation :=
      fun hticket hgeneration => ⟨hwaiting, hticket ▸ hgeneration⟩
    have hresumed : ∀ {ticket : Ticket}, continuation.ticket = ticket
        → (continuation.isLoad || continuation.isOpen) = true
        → Resumed fresh (settledPage number result page) ticket :=
      fun hticket hkind => hticket ▸ resumed_settled h hwaiting hkind result
    have hphase : ∀ {ticket : Ticket}, continuation.ticket = ticket → continuation.isLoad = true
        → ticket.generation = page.session.generation → page.host.state.phase ≠ .ready :=
      fun hticket hload hgeneration => h.loading number continuation (hcurrent hticket hgeneration) hload
    have hbusy : ∀ {ticket : Ticket}, continuation.ticket = ticket → continuation.isOpen = true
        → ticket.generation = page.session.generation → page.host.state.busy = true :=
      fun hticket hopen hgeneration => h.opening number continuation (hcurrent hticket hgeneration) hopen
    unfold resume? at hresume
    split at hresume
    all_goals cases hresume
    . exact coherent_loadLink (hresumed rfl rfl) (hphase rfl rfl) _ _
    . exact coherent_loadMetadata (hresumed rfl rfl) (hphase rfl rfl) _
    . exact coherent_loadHeader (hresumed rfl rfl) _ _
    . exact coherent_loadFailed hcoherent (fun hgeneration => ((hresumed rfl rfl).idle hgeneration).2) _
    . exact coherent_loadFailed hcoherent (fun hgeneration => ((hresumed rfl rfl).idle hgeneration).2) _
    . exact coherent_loadFailed hcoherent (fun hgeneration => ((hresumed rfl rfl).idle hgeneration).2) _
    . apply coherent_openAccess (hresumed rfl rfl) (hbusy rfl rfl)
      intro hgeneration
      have hpreparing := h.preparing number _ (hcurrent rfl hgeneration)
      exact ⟨page.trace, number, rfl, hpreparing⟩
    . exact coherent_openPacket (hresumed rfl rfl) (hbusy rfl rfl) _
    . exact coherent_openContent (hresumed rfl rfl) _
    . apply coherent_openFailed (hresumed rfl rfl)
      intro hgeneration _
      have hpreparing := h.preparing number _ (hcurrent rfl hgeneration)
      exact hpreparing.armed.append (Trace.quiet_singleton rfl)
    . exact coherent_openFailed (hresumed rfl rfl) true (by simp) _
    . exact coherent_openFailed (hresumed rfl rfl) true (by simp) _
    . exact coherent_copied hcoherent _
    . exact coherent_copied hcoherent _

end

-- Whether a load may follow the event.
def Event.fresh (fresh : Bool) : Event → Bool
  | .load _ => false
  | .clear => true
  | _ => fresh

-- A load comes first or follows a clear.
def LoadsFollowClears (fresh : Bool) : List Event → Prop
  | [] => True
  | event :: events =>
    (∀ url, event = .load url → fresh = true) ∧ LoadsFollowClears (event.fresh fresh) events

theorem coherent_step {fresh : Bool} {page : ReaderPage} (h : Coherent fresh (view page))
    {event : Event} (hload : ∀ url, event = .load url → fresh = true)
    : Coherent (event.fresh fresh) (view (step page event)) := by
  have hinvariant := Coherent.invariant fresh
  have hemit : ∀ {entry : Entry}, entry.isMilestone = false
      → (∀ number, entry.settlesAccess number = false)
      → Coherent fresh (view (page.emit entry)) :=
    fun hmilestone hsettles => h.emit hmilestone fun number _ _ => hsettles number
  unfold step handle
  cases event with
  | tick elapsed => exact hinvariant.ambient _ _ _ _ (hemit rfl fun _ => rfl)
  | timer => exact hinvariant.fire (hemit rfl fun _ => rfl)
  | urlTimer index => exact coherent_releaseUrl (hemit rfl fun _ => rfl) index
  | activity isTrusted => exact hinvariant.activity (hemit rfl fun _ => rfl) isTrusted
  | microtask index => exact hinvariant.microtask (hemit rfl fun _ => rfl) index
  | keep isTrusted => exact hinvariant.keep (hemit rfl fun _ => rfl) isTrusted
  | visibility hidden => exact hinvariant.visibility (hemit rfl fun _ => rfl) hidden
  | pagehide => exact hinvariant.leave (hemit rfl fun _ => rfl)
  | pageshow persisted => exact hinvariant.restore (hemit rfl fun _ => rfl) persisted
  | passphrase value => exact hemit rfl fun _ => rfl
  | load url =>
    have hfresh := hload url rfl
    subst hfresh
    exact coherent_load (hemit rfl fun _ => rfl) url
  | openNote => exact coherent_openNote h
  | copyText => exact coherent_copyText (hemit rfl fun _ => rfl)
  | download index => exact coherent_download (hemit rfl fun _ => rfl) index
  | downloadText => exact coherent_downloadText (hemit rfl fun _ => rfl)
  | clear =>
    have hpage : Coherent fresh (view (page.emit (.event .clear))) := hemit rfl fun _ => rfl
    exact hpage.of_clear .manual true
  | destroy => exact hinvariant.destroy (hemit rfl fun _ => rfl)
  | settle number result => exact coherent_settle h number result

theorem coherent_run {fresh : Bool} {page : ReaderPage} (h : Coherent fresh (view page))
    {events : List Event} (hloads : LoadsFollowClears fresh events)
    : ∃ fresh', Coherent fresh' (view (run page events)) := by
  induction events generalizing fresh page with
  | nil => exact ⟨fresh, h⟩
  | cons event events ih => exact ih (coherent_step h hloads.1) hloads.2

theorem coherent_mount (now : Nat) : Coherent true (view (mount now)) where
  controller := rfl
  numbered := Promises.numbered_empty
  past := by simp [view, mount, Reader.new, Promises.empty]
  fresh _ := ⟨by simp [view, mount, Reader.new, readerState],
    fun _ _ hcurrent => by cases hcurrent.1⟩
  loading _ _ hcurrent := by cases hcurrent.1
  opening _ _ hcurrent := by cases hcurrent.1
  single hcurrent := by cases hcurrent.1
  ready := by simp [view, mount, Reader.new, readerState]
  preparing _ _ hcurrent := by cases hcurrent.1
  sound := by simp [Trace.Sound, view, mount]

theorem one_request_per_load (now : Nat) {events : List Event}
    (hloads : LoadsFollowClears true events)
    : (∀ (before after : Trace) (generation number : Nat) (id token : JsString),
        (run (mount now) events).trace
            = before ++ (generation, .call number (.openNote id token)) :: after
          → ∃ (earlier middle later : Trace) (prepared : Nat) (passphrase : JsString),
            before = earlier ++ (generation, .loaded id) :: middle
                ++ (generation, .event .openNote) :: (generation, .call prepared (.prepare passphrase))
                :: later ++ [(generation, .event (.settle prepared (.access token)))]
              ∧ middle.Quiet ∧ later.Quiet ∧ later.Unsettled prepared)
      ∧ ∀ (before between after : Trace) (generation number generation' number' : Nat)
          (id token id' token' : JsString),
        (run (mount now) events).trace
            = before ++ (generation, .call number (.openNote id token)) :: between
              ++ (generation', .call number' (.openNote id' token')) :: after
          → ∃ generation'' id'', (generation'', .loaded id'') ∈ between := by
  rcases coherent_run (coherent_mount now) hloads with ⟨fresh, hcoherent⟩
  have hsound : Trace.Sound (run (mount now) events).trace := hcoherent.sound
  constructor
  . intro before after generation number id token hsplit
    rcases hsound before after generation number id token hsplit
      with ⟨_, prepared, rfl, earlier, middle, later, passphrase, rfl, hquiet⟩
    exact ⟨earlier, middle, later, prepared, passphrase, rfl, hquiet⟩
  . intro before between after generation number generation' number' id token id' token' hsplit
    have harmed := (hsound _ after generation' number' id' token' hsplit).armed
    exact ⟨generation', id', harmed.loaded_mem rfl⟩

def exampleLoaded : List Event := [
  .load [35],
  .settle 0 (.link [65] [66]),
  .settle 1 (.metadata { header := [67], expiresAt := 3600, remaining := 1 }),
  .settle 2 (.header {
    id := [65], ttl := 3600, views := 1, peek := [], read := [], revoke := [], kdf := .argon2id,
    salt := [], nonce := [] })]

-- A wrong passphrase, a right one, and two openings too many.
def exampleEvents : List Event := exampleLoaded ++ [
  .passphrase [68],
  .openNote,
  .settle 3 (.rejected (.workerFailure "wrong_passphrase")),
  .passphrase [69],
  .openNote,
  .openNote,
  .settle 4 (.access [70]),
  .openNote,
  .settle 5 (.rejected .otherError),
  .openNote]

def exampleTrace : Trace := (run (mount 0) exampleEvents).trace

theorem one_request_per_load_exampleEvents
    : ∃ (earlier middle later : Trace) (prepared : Nat) (passphrase : JsString),
      exampleTrace.take 17 = earlier ++ (0, .loaded [65]) :: middle
          ++ (0, .event .openNote) :: (0, .call prepared (.prepare passphrase)) :: later
          ++ [(0, .event (.settle prepared (.access [70])))]
        ∧ middle.Quiet ∧ later.Quiet ∧ later.Unsettled prepared := by
  have hloads : LoadsFollowClears true exampleEvents := by
    simp [exampleEvents, exampleLoaded, LoadsFollowClears]
  have hsplit : exampleTrace
      = exampleTrace.take 17 ++ (0, .call 5 (.openNote [65] [70])) :: exampleTrace.drop 18 := by
    decide
  exact (one_request_per_load 0 hloads).1 _ _ 0 5 [65] [70] hsplit

end Web
