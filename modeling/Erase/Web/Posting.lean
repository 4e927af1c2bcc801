import Erase.Web.Sender
import Erase.Web.Submission

/-!
What stands behind the notes that a composer creates and behind the link that it shows: the calls that it
has made for them, and how they were settled.
-/

namespace Web

namespace Composer

def Challenged (trace : List (Nat × Entry)) (challenge : Challenge) : Prop :=
  ∃ number, Asks trace number .challenge ∧ Settles trace number (.challenge challenge)

-- What stands behind a call that creates a note.
structure Posted (trace : List (Nat × Entry)) (sealed : Sealed) (packet : Bytes) (challenge : Challenge)
    (nonce : JsString) : Prop where
  seals : Seals trace sealed
  challenged : Challenged trace challenge
  proved : ∃ number, Asks trace number (.proof sealed.packet challenge)
    ∧ Settles trace number (.proof nonce packet)

-- What stands behind a link.
def Shown (trace : List (Nat × Entry)) (origin link : JsString) : Prop :=
  ∃ (sealed : Sealed) (packet : Bytes) (challenge : Challenge) (nonce : JsString) (number : Nat)
      (receipt : Receipt),
    Posted trace sealed packet challenge nonce
      ∧ Asks trace number (.create packet challenge nonce)
      ∧ Settles trace number (.receipt receipt)
      ∧ receipt.id = sealed.id
      ∧ link = shareLink origin sealed

-- The call that a suspended method waits for, with what has led to it.
def Leads (trace : List (Nat × Entry)) (number : Nat) : Continuation → Prop
  | .submitSealed _ => AsksToSeal trace number
  | .submitChallenge _ sealed => Seals trace sealed ∧ Asks trace number .challenge
  | .submitProof _ sealed challenge =>
    Seals trace sealed ∧ Challenged trace challenge ∧ Asks trace number (.proof sealed.packet challenge)
  | .submitReceipt _ sealed packet => ∃ challenge nonce,
    Posted trace sealed packet challenge nonce ∧ Asks trace number (.create packet challenge nonce)
  | _ => ∃ request, request.isCrypto = false ∧ Asks trace number request

structure Accounted (origin : JsString) (page : ComposerPage) : Prop where
  served : page.host.origin = origin
  numbered : page.host.promises.Numbered
  asked : ∀ {number request}, Asks page.trace number request → number < page.host.promises.next
  single : ∀ {number request other}, Asks page.trace number request → Asks page.trace number other
    → other = request
  leads : ∀ {number continuation}, page.host.promises.waiting number = some continuation
    → Leads page.trace number continuation
  posted : ∀ {number packet challenge nonce}, Asks page.trace number (.create packet challenge nonce)
    → ∃ sealed, Posted page.trace sealed packet challenge nonce
  shown : page.host.state.link ≠ [] → Shown page.trace origin page.host.state.link

section

variable {trace trace' more : List (Nat × Entry)} {number : Nat} {origin : JsString}
variable {start page : ComposerPage}

theorem Asks.mono {request : Request} (h : Asks trace number request) (htrace : trace ⊆ trace')
    : Asks trace' number request := by
  rcases h with ⟨generation, hmem⟩
  exact ⟨generation, htrace hmem⟩

theorem Settles.mono {result : Result} (h : Settles trace number result) (htrace : trace ⊆ trace')
    : Settles trace' number result := by
  rcases h with ⟨generation, hmem⟩
  exact ⟨generation, htrace hmem⟩

theorem Challenged.mono {challenge : Challenge} (h : Challenged trace challenge) (htrace : trace ⊆ trace')
    : Challenged trace' challenge := by
  rcases h with ⟨number, hasks, hsettles⟩
  exact ⟨number, hasks.mono htrace, hsettles.mono htrace⟩

theorem Posted.mono {sealed : Sealed} {packet : Bytes} {challenge : Challenge} {nonce : JsString}
    (h : Posted trace sealed packet challenge nonce) (htrace : trace ⊆ trace')
    : Posted trace' sealed packet challenge nonce where
  seals := h.seals.mono htrace
  challenged := h.challenged.mono htrace
  proved := by
    rcases h.proved with ⟨number, hasks, hsettles⟩
    exact ⟨number, hasks.mono htrace, hsettles.mono htrace⟩

theorem Shown.mono {origin link : JsString} (h : Shown trace origin link) (htrace : trace ⊆ trace')
    : Shown trace' origin link := by
  rcases h with ⟨sealed, packet, challenge, nonce, number, receipt, hposted, hasks, hsettles, hid, hlink⟩
  exact ⟨sealed, packet, challenge, nonce, number, receipt, hposted.mono htrace, hasks.mono htrace,
    hsettles.mono htrace, hid, hlink⟩

theorem Leads.mono {continuation : Continuation} (h : Leads trace number continuation)
    (htrace : trace ⊆ trace') : Leads trace' number continuation := by
  cases continuation with
  | submitSealed ticket => exact AsksToSeal.mono h htrace
  | submitChallenge ticket sealed => exact ⟨Seals.mono h.1 htrace, Asks.mono h.2 htrace⟩
  | submitProof ticket sealed challenge =>
    exact ⟨Seals.mono h.1 htrace, Challenged.mono h.2.1 htrace, Asks.mono h.2.2 htrace⟩
  | submitReceipt ticket sealed packet =>
    rcases h with ⟨challenge, nonce, hposted, hasks⟩
    exact ⟨challenge, nonce, hposted.mono htrace, hasks.mono htrace⟩
  | _ =>
    rcases h with ⟨request, hcrypto, hasks⟩
    exact ⟨request, hcrypto, hasks.mono htrace⟩

theorem asks_append {request : Request} (hmore : ∀ entry ∈ more, ∀ number request, entry.2 ≠ .call number request)
    (h : Asks (trace ++ more) number request) : Asks trace number request := by
  rcases h with ⟨generation, hmem⟩
  rcases List.mem_append.mp hmem with hmem | hmem
  . exact ⟨generation, hmem⟩
  . exact absurd rfl (hmore _ hmem number request)

namespace Accounted

-- Entries that are no calls change nothing.
theorem append (h : Accounted origin start) (htrace : page.trace = start.trace ++ more)
    (hmore : ∀ entry ∈ more, ∀ number request, entry.2 ≠ .call number request)
    (hnext : page.host.promises.next = start.host.promises.next)
    (hwaiting : ∀ number continuation, page.host.promises.waiting number = some continuation
      → start.host.promises.waiting number = some continuation)
    (horigin : page.host.origin = start.host.origin)
    (hshown : page.host.state.link ≠ [] → Shown start.trace origin page.host.state.link)
    : Accounted origin page := by
  have hsubset : start.trace ⊆ page.trace := by
    rw [htrace]
    exact List.subset_append_left _ _
  have hasks : ∀ {number request}, Asks page.trace number request → Asks start.trace number request := by
    rw [htrace]
    exact fun h => asks_append hmore h
  refine ⟨horigin.trans h.served, ?_, ?_, ?_, ?_, ?_, ?_⟩
  . intro number continuation h'
    rw [hnext]
    exact h.numbered number continuation (hwaiting number continuation h')
  . intro number request h'
    rw [hnext]
    exact h.asked (hasks h')
  . exact fun h' h'' => h.single (hasks h') (hasks h'')
  . exact fun h' => (h.leads (hwaiting _ _ h')).mono hsubset
  . intro number packet challenge nonce h'
    rcases h.posted (hasks h') with ⟨sealed, hposted⟩
    exact ⟨sealed, hposted.mono hsubset⟩
  . exact fun h' => (hshown h').mono hsubset

theorem record (h : Accounted origin page) (event : Event) : Accounted origin (page.emit (.event event)) := by
  have htrace : (page.emit (.event event)).trace
      = page.trace ++ [(page.session.generation, .event event)] := rfl
  apply h.append htrace
  . simp
  . rfl
  . exact fun _ _ h' => h'
  . rfl
  . exact h.shown

theorem rests (h : Accounted origin start) (hrests : Rests start page) : Accounted origin page := by
  rcases hrests.trace with ⟨more, htrace, hmore⟩
  apply h.append htrace
  . intro entry hentry number request hcall
    have hrecord := hmore entry hentry
    rw [hcall] at hrecord
    cases hrecord
  . exact hrests.next
  . exact hrests.waiting
  . exact hrests.origin
  . intro hlink
    rcases hrests.link with hsame | hnil
    . rw [hsame]
      exact h.shown (hsame ▸ hlink)
    . exact absurd hnil hlink

theorem await (h : Accounted origin page) {request : Request} {continuation : Continuation}
    (hleads : ∀ {trace}, page.trace ⊆ trace → Asks trace page.host.promises.next request
      → Leads trace page.host.promises.next continuation)
    (hposted : ∀ {packet challenge nonce}, request = .create packet challenge nonce
      → ∃ sealed, Posted page.trace sealed packet challenge nonce)
    : Accounted origin (await request continuation page) := by
  have htrace : (Composer.await request continuation page).trace
      = page.trace ++ [(page.session.generation, .call page.host.promises.next request)] := rfl
  have hsubset : page.trace ⊆ (Composer.await request continuation page).trace :=
    List.subset_append_left _ _
  have hasks : ∀ {number other}, Asks (Composer.await request continuation page).trace number other
      → Asks page.trace number other ∨ number = page.host.promises.next ∧ other = request := by
    intro number other h'
    rcases h' with ⟨generation, hmem⟩
    rw [htrace, List.mem_append, List.mem_singleton] at hmem
    rcases hmem with hmem | hmem
    . exact .inl ⟨generation, hmem⟩
    . cases hmem
      exact .inr ⟨rfl, rfl⟩
  have hnew : Asks (Composer.await request continuation page).trace page.host.promises.next request :=
    ⟨page.session.generation, by simp [htrace]⟩
  refine ⟨h.served, h.numbered.suspend continuation, ?_, ?_, ?_, ?_, ?_⟩
  . intro number other h'
    have hnext : (Composer.await request continuation page).host.promises.next
        = page.host.promises.next + 1 := rfl
    rw [hnext]
    rcases hasks h' with h' | ⟨rfl, -⟩
    . exact Nat.lt_succ_of_lt (h.asked h')
    . exact Nat.lt_succ_self _
  . intro number first second hfirst hsecond
    rcases hasks hfirst with hold | ⟨hnumber, hrequest⟩
    . rcases hasks hsecond with hold' | ⟨hnumber, -⟩
      . exact h.single hold hold'
      . have hlt := h.asked hold
        omega
    . rcases hasks hsecond with hold | ⟨-, hother⟩
      . have hlt := h.asked hold
        omega
      . rw [hrequest, hother]
  . intro number suspended hwaiting
    rcases Promises.waiting_suspend.mp hwaiting with ⟨rfl, rfl⟩ | ⟨-, hwaiting⟩
    . exact hleads hsubset hnew
    . exact (h.leads hwaiting).mono hsubset
  . intro number packet challenge nonce h'
    rcases hasks h' with h' | ⟨-, hrequest⟩
    . rcases h.posted h' with ⟨sealed, hsealed⟩
      exact ⟨sealed, hsealed.mono hsubset⟩
    . rcases hposted hrequest.symm with ⟨sealed, hsealed⟩
      exact ⟨sealed, hsealed.mono hsubset⟩
  . exact fun h' => (h.shown h').mono hsubset

theorem begins (h : Accounted origin start) (hcalls : Calls Begins start page) : Accounted origin page := by
  cases hcalls with
  | rests hrests => exact h.rests hrests
  | asks hrests hbegins hpage =>
    subst hpage
    apply (h.rests hrests).await
    . intro trace _ hasks
      cases hbegins with
      | config ticket => exact ⟨_, rfl, hasks⟩
      | draft ticket text files ttl views passphrase =>
        rcases hasks with ⟨generation, hmem⟩
        exact ⟨generation, text, files, ttl, views, passphrase, hmem⟩
      | copy ticket text => exact ⟨_, rfl, hasks⟩
      | revoke ticket id token => exact ⟨_, rfl, hasks⟩
    . intro packet challenge nonce hrequest
      subst hrequest
      cases hbegins

theorem follows (h : Accounted origin start) {continuation : Continuation} {result : Result}
    (hleads : Leads start.trace number continuation) (hsettles : Settles start.trace number result)
    (hcalls : Calls (Follows continuation result) start page) : Accounted origin page := by
  cases hcalls with
  | rests hrests => exact h.rests hrests
  | @asks before request continuation hrests hfollows hpage =>
    subst hpage
    have hsubset : start.trace ⊆ before.trace := by
      rcases hrests.trace with ⟨more, htrace, -⟩
      rw [htrace]
      exact List.subset_append_left _ _
    have hbefore := hleads.mono hsubset
    have hsettled := hsettles.mono hsubset
    apply (h.rests hrests).await
    . intro trace htrace hasks
      have hleads' := hbefore.mono htrace
      have hsettled' := hsettled.mono htrace
      cases hfollows with
      | challenge ticket sealed =>
        rcases hsettled' with ⟨generation, hmem⟩
        exact ⟨⟨number, generation, hleads', hmem⟩, hasks⟩
      | proof ticket sealed challenge => exact ⟨hleads'.1, ⟨number, hleads'.2, hsettled'⟩, hasks⟩
      | create ticket sealed challenge nonce packet =>
        exact ⟨challenge, nonce, ⟨hleads'.1, hleads'.2.1, number, hleads'.2.2, hsettled'⟩, hasks⟩
    . intro packet challenge nonce hrequest
      subst hrequest
      cases hfollows with
      | create ticket sealed =>
        exact ⟨sealed, hbefore.1, hbefore.2.1, number, hbefore.2.2, hsettled⟩

theorem links (h : Accounted origin start) {ticket : Ticket} {sealed : Sealed} {packet : Bytes} {receipt : Receipt}
    (hleads : Leads start.trace number (.submitReceipt ticket sealed packet))
    (hsettles : Settles start.trace number (.receipt receipt))
    (hlinks : Links start sealed receipt page) : Accounted origin page := by
  rcases hlinks.shown with ⟨before, shown, hrests, htrace, hpromises, horigin, hlink, hshown⟩
  rcases hleads with ⟨challenge, nonce, hposted, hasks⟩
  have hbefore := h.rests hrests
  have hsubset : start.trace ⊆ before.trace := by
    rcases hrests.trace with ⟨more, hmore, -⟩
    rw [hmore]
    exact List.subset_append_left _ _
  have haccounted : Accounted origin shown := by
    have hnone : shown.trace = before.trace ++ [] := by rw [htrace, List.append_nil]
    apply hbefore.append hnone
    . simp
    . rw [hpromises]
    . rw [hpromises]
      exact fun _ _ h' => h'
    . exact horigin
    . intro _
      rw [hlink, hbefore.served]
      exact ⟨sealed, packet, challenge, nonce, number, receipt, hposted.mono hsubset, hasks.mono hsubset,
        hsettles.mono hsubset, hlinks.id, rfl⟩
  exact haccounted.rests hshown

theorem step (h : Accounted origin page) (event : Event) : Accounted origin (step page event) := by
  have hrecorded := h.record event
  have hsubset : page.trace ⊆ (page.emit (.event event)).trace := List.subset_append_left _ _
  have hsettles : ∀ {number result}, event = .settle number result
      → Settles (page.emit (.event event)).trace number result := by
    intro number result hevent
    exact ⟨page.session.generation, by simp [Page.emit, hevent]⟩
  cases advances_step page event with
  | begins hcalls => exact hrecorded.begins hcalls
  | follows hevent hwaiting hcalls =>
    exact hrecorded.follows ((h.leads hwaiting).mono hsubset) (hsettles hevent) hcalls
  | links hevent hwaiting hlinks =>
    exact hrecorded.links ((h.leads hwaiting).mono hsubset) (hsettles hevent) hlinks

theorem mount (origin : JsString) (now : Nat) : Accounted origin (mount origin now) where
  served := rfl
  numbered := Promises.numbered_empty
  asked h := by
    rcases h with ⟨generation, hmem⟩
    cases hmem
  single h := by
    rcases h with ⟨generation, hmem⟩
    cases hmem
  leads h := by cases h
  posted h := by
    rcases h with ⟨generation, hmem⟩
    cases hmem
  shown h := absurd rfl h

end Accounted

end

end Composer

end Web
