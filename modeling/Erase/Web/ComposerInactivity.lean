import Erase.Web.Capability
import Erase.Web.Inactivity

/-!
The handlers of a composer keep its session covered: what they add to its data they touch the session for,
or an operation that holds the busy flag was data before.
-/

namespace Web

namespace Composer

def Event.isAction : Event → Bool
  | .session event => event.isAction
  | .addFiles _ => true
  | .submit => true
  | _ => false

-- What the fields of the form write.
def Event.binds : Event → Bool
  | .text _ => true
  | .passphrase _ => true
  | _ => false

def Event.blank : Event → Bool
  | .text value => value = []
  | .passphrase value => value = []
  | _ => false

def Event.isPlain : Event → Bool
  | .session event => event.isPlain
  | event => !event.binds

section

variable {started : Bool} {start page page' : ComposerPage} {limit : Nat} {ticket : Ticket}

theorem hasData_iff {composer : Composer}
    : options.hasData composer = true ↔ composer.state.text ≠ [] ∨ composer.state.files ≠ []
        ∨ composer.state.passphrase ≠ [] ∨ composer.state.link ≠ [] ∨ composer.state.busy = true := by
  simp [options, or_assoc]

theorem hasData_mono {composer composer' : Composer}
    (htext : composer'.state.text ≠ [] → composer.state.text ≠ [])
    (hfiles : composer'.state.files ≠ [] → composer.state.files ≠ [])
    (hpassphrase : composer'.state.passphrase ≠ [] → composer.state.passphrase ≠ [])
    (hlink : composer'.state.link ≠ [] → composer.state.link ≠ [])
    (hbusy : composer'.state.busy = true → composer.state.busy = true)
    (h : options.hasData composer' = true) : options.hasData composer = true := by
  rw [hasData_iff] at h ⊢
  rcases h with h | h | h | h | h
  . exact .inl (htext h)
  . exact .inr (.inl (hfiles h))
  . exact .inr (.inr (.inl (hpassphrase h)))
  . exact .inr (.inr (.inr (.inl (hlink h))))
  . exact .inr (.inr (.inr (.inr (hbusy h))))

theorem sensitive : options.Sensitive where
  clear _ _ := rfl
  warning _ _ := rfl
  clock _ _ := rfl

theorem controls : Controls options step Event.session Event.isAction Event.binds Event.blank where
  sensitive := sensitive
  dispatch _ event := ⟨.event (.session event), rfl⟩
  action _ := rfl
  passive binding hbinds := by
    cases binding with
    | text value => rfl
    | passphrase value => rfl
    | _ => cases hbinds
  bind page binding hbinds := by
    cases binding with
    | text value =>
      refine ⟨.event (.text value), modifyState fun state => { state with text := value }, rfl, ?_⟩
      intro hblank
      exact hasData_mono (fun hvalue => absurd (of_decide_eq_true hblank) hvalue) id id id id
    | passphrase value =>
      refine ⟨.event (.passphrase value), modifyState fun state => { state with passphrase := value }, rfl, ?_⟩
      intro hblank
      exact hasData_mono id id (fun hvalue => absurd (of_decide_eq_true hblank) hvalue) id id
    | _ => cases hbinds

theorem covered_await (h : Covered options started start limit page) (request : Request)
    (continuation : Continuation)
    : Covered options started start limit (await request continuation page) :=
  (h.modify id).emit _

-- What runs with a valid ticket only.
theorem covered_ifValid (h : Covered options started start limit page)
    {f : ComposerState → ComposerState}
    (hdata : options.hasData (modifyState f page.host) = true → options.hasData page.host = true)
    : Covered options started start limit (match page.valid options ticket with
        | (false, page) => page
        | (true, page) => setState f page) := by
  split
  . next hvalid => exact h.valid sensitive hvalid
  . next hvalid =>
    rcases Page.valid_eq_true hvalid with ⟨rfl, -, -⟩
    exact h.modify hdata

theorem covered_init (h : Covered options started start limit page)
    : Covered options started start limit (init page) :=
  covered_await ((h.ticket sensitive).modify id) _ _

theorem covered_edit (h : Covered options started start limit page)
    : Covered options started start limit (edit page) := by
  unfold edit
  split
  . exact h
  . exact h.modify id

theorem covered_addFiles (h : Covered options started start limit page)
    (hlimit : start.now + 300000 ≤ limit)
    (files : List LocalFile) : Covered options started start limit (addFiles files page) := by
  unfold addFiles
  split
  . exact h
  . split
    . next hexpire => exact h.expire sensitive hexpire
    . next hexpire =>
      rcases Page.expire_eq_false hexpire with ⟨rfl, -⟩
      dsimp only
      split
      . exact h.modify id
      . apply Covered.touchAt sensitive
        . exact h.now
        . exact h.microtasks
        . rw [← h.now] at hlimit
          exact hlimit

theorem covered_removeFile (h : Covered options started start limit page) (index : Nat)
    : Covered options started start limit (removeFile index page) := by
  unfold removeFile
  split
  . exact h
  . have hfiles : page.host.state.files.eraseIdx index ≠ [] → page.host.state.files ≠ [] := by
      intro herased hempty
      apply herased
      rw [hempty]
      rfl
    exact h.modify (hasData_mono id hfiles id id id)

theorem covered_submit (h : Covered options started start limit page)
    (hlimit : start.now + 300000 ≤ limit)
    : Covered options started start limit (submit page) := by
  unfold submit
  split
  . exact h
  . split
    . next hexpire => exact h.expire sensitive hexpire
    . next hexpire =>
      rcases Page.expire_eq_false hexpire with ⟨rfl, -⟩
      split
      . exact h
      . split
        . exact h.modify id
        . apply covered_await
          apply Covered.ticket sensitive
          apply Covered.touchAt sensitive
          . exact h.now
          . exact h.microtasks
          . rw [← h.now] at hlimit
            exact hlimit

theorem covered_submitFinally (h : Covered options started start limit page) (packet : Option Bytes)
    : Covered options started start limit (submitFinally ticket packet page) := by
  have hnone : ∀ {page : ComposerPage}, Covered options started start limit page
      → Covered options started start limit (submitFinally ticket none page) := by
    intro page h
    exact covered_ifValid h (hasData_mono id id id id nofun)
  cases packet with
  | none => exact hnone h
  | some bytes =>
    rw [submitFinally_fill]
    exact hnone (h.emit _)

theorem covered_submitFailed (h : Covered options started start limit page) (packet : Option Bytes)
    (error : Failure)
    : Covered options started start limit (submitFailed ticket packet error page) := by
  unfold submitFailed
  split
  . next hvalid => exact covered_submitFinally (h.valid sensitive hvalid) packet
  . next hvalid =>
    rcases Page.valid_eq_true hvalid with ⟨rfl, -, -⟩
    exact covered_submitFinally ((h.modify id).emit _) packet

theorem covered_submitSealed (h : Covered options started start limit page) (sealed : Sealed)
    : Covered options started start limit (submitSealed ticket sealed page) := by
  unfold submitSealed
  split
  . next hvalid => exact covered_submitFinally (h.valid sensitive hvalid) _
  . next hvalid =>
    rcases Page.valid_eq_true hvalid with ⟨rfl, -, -⟩
    exact covered_await (h.modify id) _ _

theorem covered_submitChallenge (h : Covered options started start limit page) (sealed : Sealed)
    (challenge : Challenge)
    : Covered options started start limit (submitChallenge ticket sealed challenge page) := by
  unfold submitChallenge
  split
  . next hvalid => exact covered_submitFinally (h.valid sensitive hvalid) _
  . next hvalid =>
    rcases Page.valid_eq_true hvalid with ⟨rfl, -, -⟩
    exact covered_await h _ _

theorem covered_submitProof (h : Covered options started start limit page) (sealed : Sealed)
    (challenge : Challenge) (nonce : JsString) (packet : Bytes)
    : Covered options started start limit (submitProof ticket sealed challenge nonce packet page) := by
  unfold submitProof
  split
  . next hvalid => exact covered_submitFinally (h.valid sensitive hvalid) _
  . next hvalid =>
    rcases Page.valid_eq_true hvalid with ⟨rfl, -, -⟩
    exact covered_await (h.modify id) _ _

-- The link comes while the submission still holds the busy flag.
theorem covered_submitReceipt (h : Covered options started start limit page)
    (hbusy : ticket.generation = page.session.generation → page.host.state.busy = true)
    (sealed : Sealed)
    (packet : Bytes) (receipt : Receipt)
    : Covered options started start limit (submitReceipt ticket sealed packet receipt page) := by
  unfold submitReceipt
  split
  . next hvalid => exact covered_submitFinally (h.valid sensitive hvalid) _
  . next hvalid =>
    rcases Page.valid_eq_true hvalid with ⟨rfl, -, hgeneration⟩
    split
    . exact covered_submitFailed h _ _
    . apply covered_submitFinally
      apply Covered.emit
      apply (h.modify id).modify
      intro _
      exact hasData_iff.mpr (.inr (.inr (.inr (.inr (hbusy hgeneration)))))

theorem covered_copyLink (h : Covered options started start limit page)
    : Covered options started start limit (copyLink page) := by
  unfold copyLink
  split
  . next hexpire => exact h.expire sensitive hexpire
  . next hexpire =>
    rcases Page.expire_eq_false hexpire with ⟨rfl, -⟩
    split
    . exact h
    . exact covered_await (h.ticket sensitive) _ _

theorem shareLink_ne_nil (origin : JsString) (sealed : Sealed) : shareLink origin sealed ≠ [] := by
  intro hempty
  have hpath : (JsString.ofString "/view#1.").length = 8 := by decide
  have hlength := congrArg List.length hempty
  simp only [shareLink, List.length_append, List.length_nil, hpath] at hlength
  omega

-- Only a package that the link shows can be revoked.
theorem covered_revoke (h : Covered options started start limit page)
    (hlink : page.host.receipt ≠ none → page.host.state.link ≠ [])
    : Covered options started start limit (revoke page) := by
  unfold revoke
  split
  . next hexpire => exact h.expire sensitive hexpire
  . next hexpire =>
    rcases Page.expire_eq_false hexpire with ⟨rfl, hlive⟩
    split
    . exact h
    . next hreceipt =>
      split
      . exact h
      . rw [Page.ticket_of_live hlive]
        apply covered_await
        apply h.modify
        intro _
        apply hasData_iff.mpr
        exact .inr (.inr (.inr (.inl (hlink (by simp [hreceipt])))))

theorem covered_revokeFinally (h : Covered options started start limit page)
    : Covered options started start limit (revokeFinally ticket page) :=
  covered_ifValid h (hasData_mono id id id id nofun)

theorem covered_revoked (h : Covered options started start limit page)
    : Covered options started start limit (revoked ticket page) := by
  unfold revoked
  split
  . next hvalid => exact covered_revokeFinally (h.valid sensitive hvalid)
  . next hvalid =>
    rcases Page.valid_eq_true hvalid with ⟨rfl, -, -⟩
    apply covered_revokeFinally
    apply (h.modify id).modify
    exact hasData_mono id id id (fun hlink => absurd rfl hlink) id

theorem covered_revokeFailed (h : Covered options started start limit page) (error : Failure)
    : Covered options started start limit (revokeFailed ticket error page) := by
  unfold revokeFailed
  split
  . next hvalid => exact covered_revokeFinally (h.valid sensitive hvalid)
  . next hvalid =>
    rcases Page.valid_eq_true hvalid with ⟨rfl, -, -⟩
    exact covered_revokeFinally (h.modify id)

theorem covered_settle {origin : JsString} (hcoherent : Coherent origin page)
    (h : Covered options started start limit page) (number : Nat) (result : Result)
    : Covered options started start limit (settle number result page) := by
  unfold settle
  split
  . exact h
  . next resume hresume =>
    rcases Option.bind_eq_some_iff.mp hresume with ⟨continuation, hwaiting, hresume⟩
    have hsettled : Covered options started start limit (page.modify fun composer =>
        { composer with promises := composer.promises.settle number }) := h.modify id
    unfold resume? at hresume
    split at hresume
    all_goals cases hresume
    . exact covered_ifValid hsettled id
    . exact covered_ifValid hsettled id
    . exact covered_submitSealed hsettled _
    . exact covered_submitFailed hsettled _ _
    . exact covered_submitChallenge hsettled _ _
    . exact covered_submitFailed hsettled _ _
    . exact covered_submitProof hsettled _ _ _ _
    . exact covered_submitFailed hsettled _ _
    . apply covered_submitReceipt hsettled
      exact fun hgeneration => ((hcoherent.resumed hwaiting rfl).running hgeneration).busy
    . exact covered_submitFailed hsettled _ _
    . exact covered_ifValid hsettled id
    . exact covered_ifValid hsettled id
    . exact covered_revoked hsettled
    . exact covered_revokeFailed hsettled _

theorem covered_step {origin : JsString} (hcoherent : Coherent origin page)
    (h : Covered options started start limit page) {event : Event} (hplain : event.isPlain = true)
    (hlimit : event.isAction = true → start.now + 300000 ≤ limit)
    : Covered options started start limit (step page event) := by
  have hemitted := h.emit (.event event)
  unfold step handle
  cases event with
  | session event => exact hemitted.dispatch sensitive hplain hlimit
  | text value => cases hplain
  | passphrase value => cases hplain
  | init => exact covered_init hemitted
  | edit => exact covered_edit hemitted
  | addFiles files => exact covered_addFiles hemitted (hlimit rfl) files
  | removeFile index => exact covered_removeFile hemitted index
  | submit => exact covered_submit hemitted (hlimit rfl)
  | copyLink => exact covered_copyLink hemitted
  | revoke =>
    apply covered_revoke hemitted
    intro hreceipt
    rcases Option.ne_none_iff_exists'.mp hreceipt with ⟨⟨id, token⟩, hreceipt⟩
    rcases hcoherent.linked hreceipt with ⟨sealed, -, -, -, hlink⟩
    have hlink : page.host.state.link = shareLink origin sealed := hlink
    change page.host.state.link ≠ []
    rw [hlink]
    exact shareLink_ne_nil origin sealed
  | settle number result => exact covered_settle (hcoherent.emit _) hemitted number result
  | _ => exact hemitted.modify id

end

end Composer

end Web
