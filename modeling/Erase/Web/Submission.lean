import Erase.Web.Capability

/-!
The calls of a composer. Each step makes at most one, and which one follows from what has been settled.
-/

namespace Web

namespace Composer

-- The entries that a step adds for its event and its call.
def Entry.isRecord : Entry → Bool
  | .event _ => true
  | .call _ _ => true
  | _ => false

def Asks (trace : List (Nat × Entry)) (number : Nat) (request : Request) : Prop :=
  ∃ generation, (generation, .call number request) ∈ trace

def Settles (trace : List (Nat × Entry)) (number : Nat) (result : Result) : Prop :=
  ∃ generation, (generation, .event (.settle number result)) ∈ trace

-- What a page becomes without a call.
structure Rests (start page : ComposerPage) : Prop where
  trace : ∃ more, page.trace = start.trace ++ more ∧ ∀ entry ∈ more, entry.2.isRecord = false
  next : page.host.promises.next = start.host.promises.next
  waiting : ∀ number continuation, page.host.promises.waiting number = some continuation
    → start.host.promises.waiting number = some continuation
  origin : page.host.origin = start.host.origin
  link : page.host.state.link = start.host.state.link ∨ page.host.state.link = []

-- A page that has rested, or has made one call since.
inductive Calls (allowed : Request → Continuation → Prop) (start page : ComposerPage) : Prop where
  | rests (h : Rests start page)
  | asks {before : ComposerPage} {request : Request} {continuation : Continuation}
      (h : Rests start before) (follows : allowed request continuation)
      (page_eq : page = await request continuation before)

-- The call that goes on where a submission was suspended.
inductive Follows : Continuation → Result → Request → Continuation → Prop where
  | challenge (ticket : Ticket) (sealed : Sealed)
    : Follows (.submitSealed ticket) (.sealed sealed) .challenge (.submitChallenge ticket sealed)
  | proof (ticket : Ticket) (sealed : Sealed) (challenge : Challenge)
    : Follows (.submitChallenge ticket sealed) (.challenge challenge) (.proof sealed.packet challenge)
        (.submitProof ticket sealed challenge)
  | create (ticket : Ticket) (sealed : Sealed) (challenge : Challenge) (nonce : JsString)
      (packet : Bytes)
    : Follows (.submitProof ticket sealed challenge) (.proof nonce packet)
        (.create packet challenge nonce) (.submitReceipt ticket sealed packet)

-- The call that a user asks for.
inductive Begins : Request → Continuation → Prop where
  | config (ticket : Ticket) : Begins .config (.init ticket)
  | draft (ticket : Ticket) (text : JsString) (files : List LocalFile) (ttl views : JsNumber)
      (passphrase : JsString)
    : Begins (.seal text files ttl views passphrase) (.submitSealed ticket)
  | copy (ticket : Ticket) (text : JsString) : Begins (.copy text) (.copyLink ticket)
  | revoke (ticket : Ticket) (id token : JsString) : Begins (.revoke id token) (.revoke ticket)

section

variable {start page page' : ComposerPage} {ticket : Ticket} {f : ComposerState → ComposerState}
variable {allowed : Request → Continuation → Prop}

namespace Rests

theorem refl (page : ComposerPage) : Rests page page where
  trace := ⟨[], by simp, by simp⟩
  next := rfl
  waiting _ _ h := h
  origin := rfl
  link := .inl rfl

theorem same (h : Rests start page) (htrace : page'.trace = page.trace)
    (hpromises : page'.host.promises = page.host.promises) (horigin : page'.host.origin = page.host.origin)
    (hlink : page'.host.state.link = page.host.state.link) : Rests start page' where
  trace := by
    rw [htrace]
    exact h.trace
  next := by
    rw [hpromises]
    exact h.next
  waiting := by
    rw [hpromises]
    exact h.waiting
  origin := horigin.trans h.origin
  link := by
    rw [hlink]
    exact h.link

theorem append (h : Rests start page) {more : List (Nat × Entry)}
    (hmore : ∀ entry ∈ more, entry.2.isRecord = false)
    : ∃ all, page.trace ++ more = start.trace ++ all ∧ ∀ entry ∈ all, entry.2.isRecord = false := by
  rcases h.trace with ⟨earlier, htrace, hearlier⟩
  refine ⟨earlier ++ more, by rw [htrace, List.append_assoc], fun entry hentry => ?_⟩
  rcases List.mem_append.mp hentry with hentry | hentry
  . exact hearlier entry hentry
  . exact hmore entry hentry

theorem emit (h : Rests start page) {entry : Entry} (hentry : entry.isRecord = false)
    : Rests start (page.emit entry) :=
  { h with trace := h.append (by simpa using hentry) }

theorem clear (h : Rests start page) (reason : ClearReason) : Rests start (page.clear options reason) where
  trace := by
    apply h.append
    intro entry hentry
    rcases List.mem_map.mp hentry with ⟨entry, hentry, rfl⟩
    rw [List.mem_singleton.mp hentry]
    rfl
  next := h.next
  waiting := h.waiting
  origin := h.origin
  link := .inr rfl

theorem invariant (start : ComposerPage) : options.Invariant (Rests start) where
  clear reason h := h.clear reason
  ambient _ _ _ _ h := h.same rfl rfl rfl rfl
  schedule _ _ h := h.same rfl rfl rfl rfl
  warning _ h := h.same rfl rfl rfl rfl
  clock _ h := h.same rfl rfl rfl rfl

theorem valid (h : Rests start page) {isValid : Bool}
    (hvalid : page.valid options ticket = (isValid, page')) : Rests start page' :=
  (invariant start).valid h hvalid

theorem setState (h : Rests start page) (hlink : (f page.host.state).link = page.host.state.link)
    : Rests start (setState f page) := h.same rfl rfl rfl hlink

theorem ifValid (h : Rests start page) (hlink : ∀ state, (f state).link = state.link)
    : Rests start (match page.valid options ticket with
      | (false, page) => page
      | (true, page) => Composer.setState f page) := by
  split
  . next hvalid => exact h.valid hvalid
  . next hvalid => exact (h.valid hvalid).setState (hlink _)

theorem settle (h : Rests start page) (number : Nat)
    : Rests start (page.modify fun composer =>
        { composer with promises := composer.promises.settle number }) :=
  { h with
    waiting := fun other continuation hwaiting =>
      h.waiting other continuation (Promises.waiting_settle.mp hwaiting).2 }

theorem submitFinally (h : Rests start page) (packet : Option Bytes)
    : Rests start (submitFinally ticket packet page) := by
  cases packet with
  | none => exact h.ifValid fun _ => rfl
  | some bytes =>
    have hfilled : Rests start (page.emit (.fill bytes)) := h.emit rfl
    exact hfilled.ifValid fun _ => rfl

theorem submitFailed (h : Rests start page) (packet : Option Bytes) (error : Failure)
    : Rests start (submitFailed ticket packet error page) := by
  unfold Composer.submitFailed
  split
  . next hvalid => exact (h.valid hvalid).submitFinally packet
  . next hvalid =>
    apply submitFinally
    apply emit
    . exact (h.valid hvalid).setState rfl
    . rfl

theorem revokeFinally (h : Rests start page) : Rests start (revokeFinally ticket page) :=
  h.ifValid fun _ => rfl

theorem revoked (h : Rests start page) : Rests start (revoked ticket page) := by
  unfold Composer.revoked
  split
  . next hvalid => exact (h.valid hvalid).revokeFinally
  . next hvalid =>
    apply revokeFinally
    exact { h.valid hvalid with link := .inr rfl }

theorem revokeFailed (h : Rests start page) (error : Failure)
    : Rests start (revokeFailed ticket error page) := by
  unfold Composer.revokeFailed
  split
  . next hvalid => exact (h.valid hvalid).revokeFinally
  . next hvalid => exact ((h.valid hvalid).setState rfl).revokeFinally

theorem edit (h : Rests start page) : Rests start (edit page) := by
  unfold Composer.edit
  split
  . exact h
  . exact h.setState rfl

theorem addFiles (h : Rests start page) (files : List LocalFile) : Rests start (addFiles files page) := by
  unfold Composer.addFiles
  split
  . exact h
  . split
    . next hexpire => exact (invariant start).expire h hexpire
    . next hexpire =>
      have hlive := (invariant start).expire h hexpire
      dsimp only
      split
      . exact hlive.setState rfl
      . exact (invariant start).touchAt (hlive.setState rfl) _

theorem removeFile (h : Rests start page) (index : Nat) : Rests start (removeFile index page) := by
  unfold Composer.removeFile
  split
  . exact h
  . exact h.setState rfl

end Rests

namespace Calls

theorem init (h : Rests start page) : Calls Begins start (init page) := by
  refine .asks ?_ (.config _) rfl
  apply Rests.setState
  . exact (Rests.invariant start).ticket h
  . rfl

theorem submit (h : Rests start page) : Calls Begins start (submit page) := by
  unfold Composer.submit
  split
  . exact .rests h
  . split
    . next hexpire => exact .rests ((Rests.invariant start).expire h hexpire)
    . next hexpire =>
      have hlive := (Rests.invariant start).expire h hexpire
      split
      . exact .rests hlive
      . dsimp only
        split
        . exact .rests (hlive.setState rfl)
        . refine .asks ?_ (.draft _ _ _ _ _ _) rfl
          apply (Rests.invariant start).ticket
          apply (Rests.invariant start).touchAt
          exact hlive.setState rfl

theorem copyLink (h : Rests start page) : Calls Begins start (copyLink page) := by
  unfold Composer.copyLink
  split
  . next hexpire => exact .rests ((Rests.invariant start).expire h hexpire)
  . next hexpire =>
    have hlive := (Rests.invariant start).expire h hexpire
    split
    . exact .rests hlive
    . exact .asks ((Rests.invariant start).ticket hlive) (.copy _ _) rfl

theorem revoke (h : Rests start page) : Calls Begins start (revoke page) := by
  unfold Composer.revoke
  split
  . next hexpire => exact .rests ((Rests.invariant start).expire h hexpire)
  . next hexpire =>
    have hlive := (Rests.invariant start).expire h hexpire
    split
    . exact .rests hlive
    . split
      . exact .rests hlive
      . refine .asks ?_ (.revoke _ _ _) rfl
        apply Rests.setState
        . exact (Rests.invariant start).ticket hlive
        . rfl

theorem submitSealed (h : Rests start page) (sealed : Sealed)
    : Calls (Follows (.submitSealed ticket) (.sealed sealed)) start (submitSealed ticket sealed page) := by
  unfold Composer.submitSealed
  split
  . next hvalid => exact .rests ((h.valid hvalid).submitFinally _)
  . next hvalid => exact .asks ((h.valid hvalid).setState rfl) (.challenge _ _) rfl

theorem submitChallenge (h : Rests start page) (sealed : Sealed) (challenge : Challenge)
    : Calls (Follows (.submitChallenge ticket sealed) (.challenge challenge)) start
        (submitChallenge ticket sealed challenge page) := by
  unfold Composer.submitChallenge
  split
  . next hvalid => exact .rests ((h.valid hvalid).submitFinally _)
  . next hvalid => exact .asks (h.valid hvalid) (.proof _ _ _) rfl

theorem submitProof (h : Rests start page) (sealed : Sealed) (challenge : Challenge) (nonce : JsString)
    (packet : Bytes)
    : Calls (Follows (.submitProof ticket sealed challenge) (.proof nonce packet)) start
        (submitProof ticket sealed challenge nonce packet page) := by
  unfold Composer.submitProof
  split
  . next hvalid => exact .rests ((h.valid hvalid).submitFinally _)
  . next hvalid => exact .asks ((h.valid hvalid).setState rfl) (.create _ _ _ _ _) rfl

end Calls

end

-- A receipt that names the sealed package shows its link.
structure Links (start : ComposerPage) (sealed : Sealed) (receipt : Receipt) (page : ComposerPage) : Prop where
  id : receipt.id = sealed.id
  shown : ∃ before shown : ComposerPage, Rests start before
    ∧ shown.trace = before.trace
    ∧ shown.host.promises = before.host.promises
    ∧ shown.host.origin = before.host.origin
    ∧ shown.host.state.link = shareLink before.host.origin sealed
    ∧ Rests shown page

-- What one step does to the calls and to the link.
inductive Advances (page : ComposerPage) (event : Event) : Prop where
  | begins (h : Calls Begins (page.emit (.event event)) (step page event))
  | follows {number : Nat} {continuation : Continuation} {result : Result}
      (settles : event = .settle number result)
      (waiting : page.host.promises.waiting number = some continuation)
      (h : Calls (Follows continuation result) (page.emit (.event event)) (step page event))
  | links {number : Nat} {ticket : Ticket} {sealed : Sealed} {packet : Bytes} {receipt : Receipt}
      (settles : event = .settle number (.receipt receipt))
      (waiting : page.host.promises.waiting number = some (.submitReceipt ticket sealed packet))
      (h : Links (page.emit (.event event)) sealed receipt (step page event))

section

variable {start page : ComposerPage}

theorem links_submitReceipt (ticket : Ticket) (h : Rests start page) (sealed : Sealed) (packet : Bytes)
    (receipt : Receipt)
    : Rests start (submitReceipt ticket sealed packet receipt page)
        ∨ Links start sealed receipt (submitReceipt ticket sealed packet receipt page) := by
  unfold submitReceipt
  split
  . next hvalid => exact .inl ((h.valid hvalid).submitFinally _)
  . next before hvalid =>
    split
    . exact .inl ((h.valid hvalid).submitFailed _ _)
    . next hid =>
      right
      have hrests : ∀ shown : ComposerPage,
          Rests shown (submitFinally ticket (some packet) (shown.emit .dispose)) := by
        intro shown
        apply Rests.submitFinally
        apply Rests.emit
        . apply Rests.refl
        . rfl
      refine ⟨not_not.mp hid, before, _, h.valid hvalid, ?_, ?_, ?_, ?_, hrests _⟩
      all_goals rfl

theorem advances_settle (page : ComposerPage) (number : Nat) (result : Result)
    : Advances page (.settle number result) := by
  have hemitted : Rests (page.emit (.event (.settle number result)))
      (page.emit (.event (.settle number result))) := Rests.refl _
  have hstep : step page (.settle number result)
      = settle number result (page.emit (.event (.settle number result))) := rfl
  cases hresume : (page.host.promises.waiting number).bind fun continuation => resume? continuation result with
  | none =>
    apply Advances.begins
    rw [hstep, settle, show (page.emit (.event (.settle number result))).host = page.host by rfl, hresume]
    exact .rests hemitted
  | some resume =>
    rcases Option.bind_eq_some_iff.mp hresume with ⟨continuation, hwaiting, hcontinuation⟩
    have hsettled := hemitted.settle number
    have hsettle : step page (.settle number result)
        = resume ((page.emit (.event (.settle number result))).modify fun composer =>
            { composer with promises := composer.promises.settle number }) := by
      rw [hstep, settle, show (page.emit (.event (.settle number result))).host = page.host by rfl, hresume]
    unfold resume? at hcontinuation
    split at hcontinuation
    all_goals cases hcontinuation
    . exact .begins (hsettle ▸ .rests (hsettled.ifValid fun _ => rfl))
    . exact .begins (hsettle ▸ .rests (hsettled.ifValid fun _ => rfl))
    . exact .follows rfl hwaiting (hsettle ▸ Calls.submitSealed hsettled _)
    . exact .begins (hsettle ▸ .rests (hsettled.submitFailed _ _))
    . exact .follows rfl hwaiting (hsettle ▸ Calls.submitChallenge hsettled _ _)
    . exact .begins (hsettle ▸ .rests (hsettled.submitFailed _ _))
    . exact .follows rfl hwaiting (hsettle ▸ Calls.submitProof hsettled _ _ _ _)
    . exact .begins (hsettle ▸ .rests (hsettled.submitFailed _ _))
    . next ticket sealed packet receipt =>
      rcases links_submitReceipt ticket hsettled sealed packet receipt with hrests | hlinks
      . exact .begins (hsettle ▸ .rests hrests)
      . exact .links rfl hwaiting (hsettle ▸ hlinks)
    . exact .begins (hsettle ▸ .rests (hsettled.submitFailed _ _))
    . exact .begins (hsettle ▸ .rests (hsettled.ifValid fun _ => rfl))
    . exact .begins (hsettle ▸ .rests (hsettled.ifValid fun _ => rfl))
    . exact .begins (hsettle ▸ .rests hsettled.revoked)
    . exact .begins (hsettle ▸ .rests (hsettled.revokeFailed _))

theorem advances_step (page : ComposerPage) (event : Event) : Advances page event := by
  have hemitted : Rests (page.emit (.event event)) (page.emit (.event event)) := Rests.refl _
  cases event with
  | session event => exact .begins (.rests ((Rests.invariant _).dispatch hemitted event))
  | init => exact .begins (Calls.init hemitted)
  | edit => exact .begins (.rests hemitted.edit)
  | addFiles files => exact .begins (.rests (hemitted.addFiles files))
  | removeFile index => exact .begins (.rests (hemitted.removeFile index))
  | submit => exact .begins (Calls.submit hemitted)
  | copyLink => exact .begins (Calls.copyLink hemitted)
  | revoke => exact .begins (Calls.revoke hemitted)
  | settle number result => exact advances_settle page number result
  | _ => exact .begins (.rests (hemitted.setState rfl))

theorem Rests.records (h : Rests start page)
    : ∃ more, page.trace = start.trace ++ more ∧ ∀ entry ∈ more, ∀ event, entry.2 ≠ .event event := by
  rcases h.trace with ⟨more, htrace, hmore⟩
  refine ⟨more, htrace, fun entry hentry event hevent => ?_⟩
  have hrecord := hmore entry hentry
  rw [hevent] at hrecord
  cases hrecord

theorem Calls.records {allowed : Request → Continuation → Prop} (h : Calls allowed start page)
    : ∃ more, page.trace = start.trace ++ more ∧ ∀ entry ∈ more, ∀ event, entry.2 ≠ .event event := by
  cases h with
  | rests h => exact h.records
  | @asks before request continuation h hfollows hpage =>
    rcases h.records with ⟨more, htrace, hmore⟩
    refine ⟨more ++ [(before.session.generation, .call before.host.promises.next request)], ?_, ?_⟩
    . rw [hpage, ← List.append_assoc, ← htrace]
      rfl
    . intro entry hentry event
      rcases List.mem_append.mp hentry with hentry | hentry
      . exact hmore entry hentry event
      . rw [List.mem_singleton.mp hentry]
        intro hevent
        cases hevent

-- The event of a step is the only one that its entries record.
theorem records_step (page : ComposerPage) (event : Event)
    : ∃ more, (step page event).trace = (page.emit (.event event)).trace ++ more
        ∧ ∀ entry ∈ more, ∀ event, entry.2 ≠ .event event := by
  cases advances_step page event with
  | begins hcalls => exact hcalls.records
  | follows _ _ hcalls => exact hcalls.records
  | links _ _ hlinks =>
    rcases hlinks.shown with ⟨before, shown, hrests, htrace, -, -, -, hshown⟩
    rcases hrests.records with ⟨first, hfirst, hnone⟩
    rcases hshown.records with ⟨second, hsecond, hnone'⟩
    refine ⟨first ++ second, by rw [hsecond, htrace, hfirst, List.append_assoc], ?_⟩
    intro entry hentry
    rcases List.mem_append.mp hentry with hentry | hentry
    . exact hnone entry hentry
    . exact hnone' entry hentry

end

end Composer

end Web
