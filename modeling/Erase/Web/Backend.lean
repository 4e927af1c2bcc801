import Erase.Web.Worker
import Mathlib.Logic.Function.Basic

/-!
The side of a page that runs its cryptographic calls, for the pages and the threads of either kind.
-/

namespace Web

-- What an entry of a page's trace asks of the workers.
inductive Order (ρ : Type) where
  | dispose
  | call (number : Nat) (request : ρ)

-- The threads of a page, which take up messages and post answers.
class Threads (τ : Type) (ρ σ ε : outParam Type) where
  new : τ
  accept : Nat × ρ → τ → τ
  outbox : τ → List (Nat × Except String σ)
  retain : List (Nat × Except String σ) → τ → τ
  rejected : Failure → σ
  order : ε → Option (Order ρ)

-- The reactions to settled promises wait in `settled`.
structure Backend (τ ρ σ : Type) where
  crypto : CryptoWorker (Nat × ρ)
  threads : Nat → τ
  settled : List (Nat × σ)

namespace Backend

section

variable {τ ρ σ ε : Type}

def update (worker : Nat) (f : τ → τ) (backend : Backend τ ρ σ) : Backend τ ρ σ :=
  { backend with threads := Function.update backend.threads worker (f (backend.threads worker)) }

theorem threads_update (worker other : Nat) (f : τ → τ) (backend : Backend τ ρ σ)
    : (backend.update worker f).threads other
        = if other = worker then f (backend.threads other) else backend.threads other := by
  unfold update
  by_cases hother : other = worker
  . rw [hother, if_pos rfl]
    exact Function.update_self _ _ _
  . rw [if_neg hother]
    exact Function.update_of_ne hother _ _

def withCrypto (crypto : CryptoWorker (Nat × ρ)) (settled : List (Nat × σ)) (backend : Backend τ ρ σ)
    : Backend τ ρ σ :=
  { backend with crypto, settled }

theorem threads_withCrypto (crypto : CryptoWorker (Nat × ρ)) (settled : List (Nat × σ))
    (backend : Backend τ ρ σ) : (backend.withCrypto crypto settled).threads = backend.threads := rfl

variable [Threads τ ρ σ ε]

def start : Backend τ ρ σ where
  crypto := .new
  threads _ := Threads.new
  settled := []

def resultOf (τ : Type) {ρ σ ε : Type} [Threads τ ρ σ ε] : Outcome σ → σ
  | .resolved result => result
  | .rejected error => Threads.rejected τ error

-- Whether `postMessage` accepts the message of a call.
variable (posts : Nat → Bool)

def perform (backend : Backend τ ρ σ) : CryptoWorker.Effect (Nat × ρ) σ → Backend τ ρ σ
  | .post worker id (number, request) =>
    if posts number then backend.update worker (Threads.accept (id, request)) else backend
  | .settle _ (number, _) outcome =>
    { backend with settled := backend.settled ++ [(number, resultOf τ outcome)] }
  | .terminate _ => backend

def apply (result : CryptoWorker (Nat × ρ) × List (CryptoWorker.Effect (Nat × ρ) σ))
    (backend : Backend τ ρ σ) : Backend τ ρ σ :=
  result.2.foldl (perform posts) { backend with crypto := result.1 }

def replay (backend : Backend τ ρ σ) (entry : Nat × ε) : Backend τ ρ σ :=
  match Threads.order τ entry.2 with
  | none => backend
  | some .dispose => backend.apply posts backend.crypto.dispose
  | some (.call number request) =>
    backend.apply posts (backend.crypto.run (number, request) (posts number))

def deliver (worker : Nat) (backend : Backend τ ρ σ) : Backend τ ρ σ :=
  match Threads.outbox (backend.threads worker) with
  | [] => backend
  | (id, result) :: outbox =>
    (backend.update worker (Threads.retain outbox)).apply posts (backend.crypto.onmessage id result)

end

section

variable {τ ρ σ ε : Type} [Threads τ ρ σ ε] {posts : Nat → Bool}

def rejections (τ : Type) {ρ σ ε : Type} [Threads τ ρ σ ε] (error : Failure)
    (pending : List (Nat × (Nat × ρ))) : List (Nat × σ) :=
  pending.map fun entry => (entry.2.1, Threads.rejected τ error)

theorem mem_rejections {error : Failure} {pending : List (Nat × (Nat × ρ))} {number : Nat} {result : σ}
    (h : (number, result) ∈ rejections τ error pending)
    : result = Threads.rejected τ error ∧ ∃ id request, (id, (number, request)) ∈ pending := by
  unfold rejections at h
  rcases List.mem_map.mp h with ⟨⟨id, number', request⟩, hmem, heq⟩
  cases heq
  exact ⟨rfl, id, request, hmem⟩

theorem foldl_settle (error : Failure) (pending : List (Nat × (Nat × ρ))) (backend : Backend τ ρ σ)
    : (pending.map fun entry => CryptoWorker.Effect.settle entry.1 entry.2 (.rejected error)).foldl
          (perform posts) backend
        = { backend with settled := backend.settled ++ rejections τ error pending } := by
  unfold rejections
  induction pending generalizing backend with
  | nil => simp
  | cons entry pending ih =>
    rw [List.map_cons, List.foldl_cons, ih]
    simp [perform, resultOf]

theorem apply_fail (error : Failure) (backend : Backend τ ρ σ)
    : backend.apply posts (backend.crypto.fail error)
        = backend.withCrypto { backend.crypto with worker := none, pending := [] }
            (backend.settled ++ rejections τ error backend.crypto.pending) := by
  unfold apply CryptoWorker.fail
  dsimp only
  rw [List.foldl_append]
  have hterminate : (backend.crypto.worker.toList.map CryptoWorker.Effect.terminate).foldl (perform posts)
      { backend with crypto := { backend.crypto with worker := none, pending := [] } }
      = { backend with crypto := { backend.crypto with worker := none, pending := [] } } := by
    cases backend.crypto.worker with
    | none => rfl
    | some worker => rfl
  rw [hterminate, foldl_settle]
  rfl

-- The worker that the next call goes to, and the bookkeeping once it has gone.
def next (backend : Backend τ ρ σ) : Nat := backend.crypto.worker.getD backend.crypto.created

def created (backend : Backend τ ρ σ) : Nat :=
  if backend.crypto.worker.isSome then backend.crypto.created else backend.crypto.created + 1

def noted (promise : Nat × ρ) (backend : Backend τ ρ σ) : CryptoWorker (Nat × ρ) where
  worker := some backend.next
  created := backend.created
  sequence := backend.crypto.sequence + 1
  pending := backend.crypto.pending ++ [(backend.crypto.sequence + 1, promise)]

variable {backend : Backend τ ρ σ} {number : Nat}

theorem apply_posted (request : ρ) (hposts : posts number = true)
    : backend.apply posts (backend.crypto.run (number, request) (posts number))
        = (backend.update backend.next (Threads.accept (backend.crypto.sequence + 1, request))).withCrypto
            (backend.noted (number, request)) backend.settled := by
  unfold apply CryptoWorker.run
  rw [hposts, if_pos rfl]
  dsimp only
  rw [List.foldl_cons, List.foldl_nil]
  unfold perform
  dsimp only
  rw [if_pos hposts]
  rfl

theorem apply_refused (request : ρ) (hposts : posts number = false)
    : backend.apply posts (backend.crypto.run (number, request) (posts number))
        = backend.withCrypto { backend.noted (number, request) with
            pending := (backend.noted (number, request)).pending.filter
              fun entry => entry.1 ≠ backend.crypto.sequence + 1 }
          (backend.settled ++ [(number, Threads.rejected τ (.workerFailure "worker_failed"))]) := by
  unfold apply CryptoWorker.run
  rw [hposts, if_neg (by simp)]
  dsimp only
  rw [List.foldl_cons, List.foldl_cons, List.foldl_nil]
  unfold perform
  dsimp only
  rw [if_neg (by simp [hposts])]
  rfl

section

variable {id : Nat} {call promise : Nat × ρ}

-- The identifier of a new call is larger than every other one.
theorem mem_of_mem_noted (hid : id ≤ backend.crypto.sequence)
    (h : (id, promise) ∈ (backend.noted call).pending) : (id, promise) ∈ backend.crypto.pending := by
  rcases List.mem_append.mp h with h | h
  . exact h
  . cases List.mem_singleton.mp h
    exact absurd hid (Nat.not_succ_le_self _)

theorem eq_of_mem_noted
    (hnumbered : ∀ id promise, (id, promise) ∈ backend.crypto.pending → id ≤ backend.crypto.sequence)
    (h : (backend.crypto.sequence + 1, promise) ∈ (backend.noted call).pending) : promise = call := by
  rcases List.mem_append.mp h with h | h
  . exact absurd (hnumbered _ _ h) (Nat.not_succ_le_self _)
  . cases List.mem_singleton.mp h
    rfl

theorem le_of_mem_noted
    (hnumbered : ∀ id promise, (id, promise) ∈ backend.crypto.pending → id ≤ backend.crypto.sequence)
    (h : (id, promise) ∈ (backend.noted call).pending) : id ≤ (backend.noted call).sequence := by
  rcases List.mem_append.mp h with h | h
  . exact Nat.le_succ_of_le (hnumbered _ _ h)
  . cases List.mem_singleton.mp h
    exact Nat.le_refl _

theorem refused_subset (call : Nat × ρ) (backend : Backend τ ρ σ)
    : ((backend.noted call).pending.filter fun entry => entry.1 ≠ backend.crypto.sequence + 1)
        ⊆ backend.crypto.pending := by
  intro entry hmem
  rcases List.mem_filter.mp hmem with ⟨hmem, hother⟩
  rcases List.mem_append.mp hmem with hmem | hmem
  . exact hmem
  . rw [List.mem_singleton.mp hmem] at hother
    simp at hother

end

theorem replay_none (posts : Nat → Bool) (backend : Backend τ ρ σ) {entry : Nat × ε}
    (h : Threads.order τ entry.2 = none) : backend.replay posts entry = backend := by
  unfold replay
  rw [h]

theorem replay_call (posts : Nat → Bool) (backend : Backend τ ρ σ) {entry : Nat × ε} {request : ρ}
    (h : Threads.order τ entry.2 = some (.call number request))
    : backend.replay posts entry
        = backend.apply posts (backend.crypto.run (number, request) (posts number)) := by
  unfold replay
  rw [h]

section

variable (posts : Nat → Bool) (worker : Nat) (backend : Backend τ ρ σ) {id : Nat} {result : Except String σ}
  {outbox : List (Nat × Except String σ)}

theorem deliver_nil (houtbox : Threads.outbox (backend.threads worker) = [])
    : backend.deliver posts worker = backend := by
  unfold deliver
  rw [houtbox]

theorem deliver_unknown (houtbox : Threads.outbox (backend.threads worker) = (id, result) :: outbox)
    (hlookup : backend.crypto.pending.lookup id = none)
    : backend.deliver posts worker = backend.update worker (Threads.retain outbox) := by
  unfold deliver CryptoWorker.onmessage
  rw [houtbox]
  dsimp only
  rw [hlookup]
  rfl

theorem deliver_settled (houtbox : Threads.outbox (backend.threads worker) = (id, result) :: outbox)
    {request : ρ} (hlookup : backend.crypto.pending.lookup id = some (number, request))
    : backend.deliver posts worker
        = (backend.update worker (Threads.retain outbox)).withCrypto
            { backend.crypto with pending := backend.crypto.pending.filter fun entry => entry.1 ≠ id }
            (backend.settled ++ [(number, resultOf τ (CryptoWorker.reply result))]) := by
  unfold deliver CryptoWorker.onmessage
  rw [houtbox]
  dsimp only
  rw [hlookup]
  rfl

end

-- Workers of which only the first was ever constructed.
def solo (crypto : CryptoWorker (Nat × ρ)) (thread : τ) (settled : List (Nat × σ)) : Backend τ ρ σ where
  crypto := crypto
  threads := Function.update (fun _ => Threads.new) 0 thread
  settled := settled

theorem update_solo (crypto : CryptoWorker (Nat × ρ)) (thread : τ) (settled : List (Nat × σ)) (f : τ → τ)
    : (solo crypto thread settled).update 0 f = solo crypto (f thread) settled := by
  unfold update solo
  simp

theorem run_solo (posts : Nat → Bool) {crypto : CryptoWorker (Nat × ρ)} (hworker : crypto.worker = some 0)
    {number : Nat} (hposts : posts number = true) (request : ρ) (thread : τ) (settled : List (Nat × σ))
    : (solo crypto thread settled).apply posts (crypto.run (number, request) (posts number))
        = solo {
            worker := some 0
            created := crypto.created
            sequence := crypto.sequence + 1
            pending := crypto.pending ++ [(crypto.sequence + 1, (number, request))] }
          (Threads.accept (crypto.sequence + 1, request) thread) settled := by
  have hnext : (solo crypto thread settled).next = 0 := congrArg (Option.getD · crypto.created) hworker
  have hcreated : (solo crypto thread settled).created = crypto.created :=
    if_pos (congrArg Option.isSome hworker)
  have hrun := @apply_posted _ _ _ _ _ posts (solo crypto thread settled) number request hposts
  unfold noted at hrun
  rw [hnext, hcreated, update_solo] at hrun
  exact hrun

theorem deliver_solo (crypto : CryptoWorker (Nat × ρ)) {thread : τ} {id : Nat} {result : Except String σ}
    (houtbox : Threads.outbox thread = [(id, result)])
    : (solo crypto thread []).deliver posts 0
        = (solo crypto (Threads.retain [] thread) []).apply posts (crypto.onmessage id result) := by
  have hthread : Threads.outbox ((solo crypto thread []).threads 0) = [(id, result)] := by
    rw [← houtbox]
    simp [solo]
  unfold deliver
  rw [hthread]
  dsimp only
  rw [update_solo]
  rfl

end

end Backend

end Web
