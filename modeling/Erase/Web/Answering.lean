import Erase.Web.Posting

/-!
The workers of a composer. A call is settled with an answer to its own request, whichever worker gives it and
whichever workers have failed before.
-/

namespace Web

namespace Composer

section

variable (crypto : Crypto) (unicode : Shared.Unicode)

-- What a worker can answer to a request.
def Answers (request : Request) (result : Result) : Prop :=
  ∃ surroundings, Sealer.answer crypto unicode surroundings request = .ok result

-- What a call that a worker serves can be settled with. Nothing is said of the other calls.
def Served (request : Request) (result : Result) : Prop :=
  (∃ error, result = .rejected error) ∨ request.isCrypto = false ∨ Answers crypto unicode request result

end

namespace Sealer

-- The messages that a worker still has to answer.
def messages (thread : Sealer) : List (Nat × Request) := thread.running.toList ++ thread.inbox

section

variable (crypto : Crypto) (unicode : Shared.Unicode)

-- A worker takes up its messages and answers them.
structure Evolves (thread next : Sealer) : Prop where
  messages : next.messages ⊆ thread.messages
  outbox : ∀ id result, (id, result) ∈ next.outbox → (id, result) ∈ thread.outbox
    ∨ ∃ request, (id, request) ∈ thread.messages
      ∧ ∀ answer, result = .ok answer → Answers crypto unicode request answer

end

section

variable {crypto : Crypto} {unicode : Shared.Unicode} {thread next : Sealer} {id : Nat} {request : Request}

theorem Evolves.refl (thread : Sealer) : thread.Evolves crypto unicode thread where
  messages := List.Subset.refl _
  outbox _ _ h := .inl h

theorem Evolves.post (hmem : (id, request) ∈ thread.messages) (hmessages : next.messages ⊆ thread.messages)
    {result : Except String Result}
    (hresult : ∀ answer, result = .ok answer → Answers crypto unicode request answer)
    (houtbox : next.outbox = thread.outbox ++ [(id, result)]) : thread.Evolves crypto unicode next where
  messages := hmessages
  outbox other posted h := by
    rw [houtbox] at h
    rcases List.mem_append.mp h with h | h
    . exact .inl h
    . cases List.mem_singleton.mp h
      exact .inr ⟨request, hmem, hresult⟩

theorem evolves_receive (isSupported : Bool) (thread : Sealer)
    : thread.Evolves crypto unicode (thread.receive isSupported) := by
  unfold receive
  split
  . exact Evolves.refl thread
  . next id request inbox hinbox =>
    have hmem : (id, request) ∈ thread.messages := by simp [messages, hinbox]
    have hmessages : thread.running.toList ++ inbox ⊆ thread.messages := by
      unfold messages
      rw [hinbox]
      simp
    have hrefused : ∀ code, thread.Evolves crypto unicode
        (post id (.error code) { thread with inbox }) :=
      fun code => Evolves.post hmem hmessages (by simp) rfl
    have htaken : thread.running = none → thread.Evolves crypto unicode
        { thread with inbox, running := some (id, request) } := by
      intro hrunning
      refine ⟨?_, fun other result h => .inl h⟩
      unfold messages
      rw [hrunning, hinbox]
      exact List.Subset.refl _
    unfold onmessage
    dsimp only
    split
    . exact hrefused _
    . next hrunning =>
      have hidle : thread.running = none := by simpa using hrunning
      split
      . exact hrefused _
      . split
        . split
          . exact hrefused _
          . exact htaken hidle
        . exact htaken hidle
        . exact hrefused _

theorem evolves_finish (surroundings : Surroundings) (thread : Sealer)
    : thread.Evolves crypto unicode (thread.finish crypto unicode surroundings) := by
  unfold finish
  split
  . exact Evolves.refl thread
  . next id request hrunning =>
    have hmem : (id, request) ∈ thread.messages := by simp [messages, hrunning]
    have hmessages : thread.inbox ⊆ thread.messages := List.subset_append_right _ _
    exact Evolves.post hmem hmessages (fun answer hanswer => ⟨surroundings, hanswer⟩) rfl

end

end Sealer

end Composer

-- Each message and each answer belongs to the request that is pending under its identifier.
structure Backend.Answering (crypto : Crypto) (unicode : Shared.Unicode) (trace : List (Nat × Composer.Entry))
    (backend : Composer.Backend) : Prop where
  messages : ∀ worker id request, (id, request) ∈ (backend.threads worker).messages
    → id ≤ backend.crypto.sequence
      ∧ ∀ number other, (id, (number, other)) ∈ backend.crypto.pending → other = request
  outbox : ∀ worker id result, (id, result) ∈ (backend.threads worker).outbox
    → id ≤ backend.crypto.sequence
      ∧ ∀ number request answer, (id, (number, request)) ∈ backend.crypto.pending → result = .ok answer
        → Composer.Answers crypto unicode request answer
  numbered : ∀ id promise, (id, promise) ∈ backend.crypto.pending → id ≤ backend.crypto.sequence
  pending : ∀ id number request, (id, (number, request)) ∈ backend.crypto.pending
    → Composer.Asks trace number request
  settled : ∀ number result, (number, result) ∈ backend.settled
    → ∃ request, Composer.Asks trace number request ∧ Composer.Served crypto unicode request result

namespace Backend.Answering

section

variable {crypto : Crypto} {unicode : Shared.Unicode} {posts : Nat → Bool}
variable {trace trace' : List (Nat × Composer.Entry)} {backend : Composer.Backend}

theorem start : Answering crypto unicode trace Backend.start where
  messages _ _ _ h := by cases h
  outbox _ _ _ h := by cases h
  numbered _ _ h := by cases h
  pending _ _ _ h := by cases h
  settled _ _ h := by cases h

theorem mono (h : backend.Answering crypto unicode trace) (htrace : trace ⊆ trace')
    : backend.Answering crypto unicode trace' where
  messages := h.messages
  outbox := h.outbox
  numbered := h.numbered
  pending id number request hmem := (h.pending id number request hmem).mono htrace
  settled number result hmem := by
    rcases h.settled number result hmem with ⟨request, hasks, hserved⟩
    exact ⟨request, hasks.mono htrace, hserved⟩

theorem update (h : backend.Answering crypto unicode trace) (worker : Nat) {f : Composer.Sealer → Composer.Sealer}
    (hf : (backend.threads worker).Evolves crypto unicode (f (backend.threads worker)))
    : (backend.update worker f).Answering crypto unicode trace where
  messages other id request hmem := by
    rw [threads_update] at hmem
    split at hmem
    . next hother =>
      subst hother
      exact h.messages other id request (hf.messages hmem)
    . exact h.messages other id request hmem
  outbox other id result hmem := by
    rw [threads_update] at hmem
    split at hmem
    . next hother =>
      subst hother
      rcases hf.outbox id result hmem with hmem | ⟨request, hmem, hanswers⟩
      . exact h.outbox other id result hmem
      . rcases h.messages other id request hmem with ⟨hid, hpending⟩
        refine ⟨hid, fun number pending answer hpromise hresult => ?_⟩
        rw [hpending number pending hpromise]
        exact hanswers answer hresult
    . exact h.outbox other id result hmem
  numbered := h.numbered
  pending := h.pending
  settled := h.settled

-- The bookkeeping goes on with some of the pending calls and with more of the settled ones.
theorem withCrypto (h : backend.Answering crypto unicode trace) {next : CryptoWorker (Nat × Composer.Request)}
    {more : List (Nat × Composer.Result)} (hsequence : backend.crypto.sequence ≤ next.sequence)
    (hpending : next.pending ⊆ backend.crypto.pending)
    (hmore : ∀ number result, (number, result) ∈ more
      → ∃ request, Composer.Asks trace number request ∧ Composer.Served crypto unicode request result)
    : (backend.withCrypto next (backend.settled ++ more)).Answering crypto unicode trace where
  messages worker id request hmem := by
    rcases h.messages worker id request hmem with ⟨hid, hsame⟩
    exact ⟨Nat.le_trans hid hsequence, fun number other hother => hsame number other (hpending hother)⟩
  outbox worker id result hmem := by
    rcases h.outbox worker id result hmem with ⟨hid, hanswers⟩
    exact ⟨Nat.le_trans hid hsequence,
      fun number request answer hother => hanswers number request answer (hpending hother)⟩
  numbered id promise hmem := Nat.le_trans (h.numbered id promise (hpending hmem)) hsequence
  pending id number request hmem := h.pending id number request (hpending hmem)
  settled number result hmem := by
    rcases List.mem_append.mp hmem with hmem | hmem
    . exact h.settled number result hmem
    . exact hmore number result hmem

theorem fail (h : backend.Answering crypto unicode trace) (error : Failure)
    : (backend.apply posts (backend.crypto.fail error)).Answering crypto unicode trace := by
  rw [apply_fail]
  apply h.withCrypto
  . exact Nat.le_refl _
  . exact List.nil_subset _
  . intro number result hmem
    rcases mem_rejections hmem with ⟨rfl, id, request, hpending⟩
    exact ⟨request, h.pending id number request hpending, .inl ⟨error, rfl⟩⟩

theorem run (h : backend.Answering crypto unicode trace) {number : Nat} {request : Composer.Request}
    (hasks : Composer.Asks trace number request)
    : (backend.apply posts (backend.crypto.run (number, request) (posts number))).Answering crypto unicode
        trace := by
  cases hposts : posts number with
  | false =>
    rw [← hposts, apply_refused request hposts]
    apply h.withCrypto
    . exact Nat.le_succ _
    . exact refused_subset _ _
    . intro other result hmem
      cases List.mem_singleton.mp hmem
      exact ⟨request, hasks, .inl ⟨_, rfl⟩⟩
  | true =>
    rw [← hposts, apply_posted request hposts]
    have hsequence : (backend.noted (number, request)).sequence = backend.crypto.sequence + 1 := rfl
    have hthreads : ∀ worker id message, (id, message) ∈ (backend.threads worker).messages
        → id ≤ (backend.noted (number, request)).sequence
          ∧ ∀ number' other, (id, (number', other)) ∈ (backend.noted (number, request)).pending
            → other = message := by
      intro worker id message hmem
      rcases h.messages worker id message hmem with ⟨hid, hsame⟩
      exact ⟨by omega, fun number' other hother => hsame number' other (mem_of_mem_noted hid hother)⟩
    refine ⟨?_, ?_, ?_, ?_, h.settled⟩
    . intro worker id message hmem
      rw [threads_withCrypto, threads_update] at hmem
      split at hmem
      . change (id, message) ∈ (backend.threads worker).running.toList
          ++ ((backend.threads worker).inbox ++ [(backend.crypto.sequence + 1, request)]) at hmem
        rw [← List.append_assoc] at hmem
        rcases List.mem_append.mp hmem with hmem | hmem
        . exact hthreads _ id message hmem
        . cases List.mem_singleton.mp hmem
          exact ⟨Nat.le_refl _, fun number' other hother => (Prod.mk.inj (eq_of_mem_noted h.numbered hother)).2⟩
      . exact hthreads worker id message hmem
    . intro worker id result hmem
      have houtbox : (id, result) ∈ (backend.threads worker).outbox := by
        rw [threads_withCrypto, threads_update] at hmem
        split at hmem
        . exact hmem
        . exact hmem
      rcases h.outbox worker id result houtbox with ⟨hid, hanswers⟩
      exact ⟨Nat.le_succ_of_le hid, fun number' other answer hother =>
        hanswers number' other answer (mem_of_mem_noted hid hother)⟩
    . exact fun id promise hmem => le_of_mem_noted h.numbered hmem
    . intro id other message hmem
      rcases List.mem_append.mp hmem with hmem | hmem
      . exact h.pending id other message hmem
      . cases List.mem_singleton.mp hmem
        exact hasks

theorem replay (h : backend.Answering crypto unicode trace) {entry : Nat × Composer.Entry}
    (hentry : entry ∈ trace) : (backend.replay posts entry).Answering crypto unicode trace := by
  rcases entry with ⟨generation, entry⟩
  cases entry with
  | dispose => exact h.fail .abortError
  | call number request =>
    cases hrequest : request.isCrypto with
    | false =>
      rw [replay_none posts backend (Composer.order_foreign hrequest)]
      exact h
    | true =>
      rw [replay_call posts backend (Composer.order_call hrequest)]
      exact h.run ⟨generation, hentry⟩
  | _ => exact h

theorem foldl_replay (h : backend.Answering crypto unicode trace) {entries : List (Nat × Composer.Entry)}
    (hentries : entries ⊆ trace)
    : (entries.foldl (Backend.replay posts) backend).Answering crypto unicode trace := by
  apply List.foldlRecOn entries _ h
  exact fun _ hbefore entry hentry => hbefore.replay (hentries hentry)

theorem deliver (h : backend.Answering crypto unicode trace) (worker : Nat)
    : (backend.deliver posts worker).Answering crypto unicode trace := by
  cases houtbox : (backend.threads worker).outbox with
  | nil =>
    rw [deliver_nil posts worker backend houtbox]
    exact h
  | cons posted outbox =>
    rcases posted with ⟨id, result⟩
    have htaken : (backend.update worker (Threads.retain outbox)).Answering crypto unicode trace := by
      apply h.update
      refine ⟨List.Subset.refl _, fun other posted hmem => .inl ?_⟩
      rw [houtbox]
      exact List.mem_cons_of_mem _ hmem
    cases hlookup : backend.crypto.pending.lookup id with
    | none =>
      rw [deliver_unknown posts worker backend houtbox hlookup]
      exact htaken
    | some promise =>
      rcases promise with ⟨number, request⟩
      have hmem := List.mem_of_lookup hlookup
      have hposted : (id, result) ∈ (backend.threads worker).outbox := by
        rw [houtbox]
        exact List.mem_cons_self
      rw [deliver_settled posts worker backend houtbox hlookup]
      apply htaken.withCrypto
      . exact Nat.le_refl _
      . exact fun entry hentry => List.mem_of_mem_filter hentry
      . intro other settled hother
        have hsame := List.mem_singleton.mp hother
        cases result with
        | error code =>
          cases hsame
          exact ⟨request, h.pending id number request hmem, .inl ⟨_, rfl⟩⟩
        | ok answer =>
          cases hsame
          exact ⟨request, h.pending id number request hmem,
            .inr (.inr ((h.outbox worker id _ hposted).2 number request answer hmem rfl))⟩

end

end Backend.Answering

end Web
