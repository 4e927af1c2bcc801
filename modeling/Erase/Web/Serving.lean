import Erase.Web.Receiver

/-!
The workers of a reader serve one request at a time.
-/

namespace Web

namespace Thread

def ids (thread : Thread) : List Nat :=
  thread.inbox.map Prod.fst ++ thread.running.toList.map Prod.fst ++ thread.outbox.map Prod.fst

structure Quiet (thread : Thread) : Prop where
  inbox : thread.inbox = []
  running : thread.running = none
  outbox : thread.outbox = []

-- A decoded header belongs to the link of the thread, which keeps the text of the header.
structure Checked (thread : Thread) (text : JsString) (header : Shared.Header) : Prop where
  kept : thread.headerBase64 = text
  decoded : Shared.decodeHeader text = .ok header
  link : ∃ link, thread.link = some link ∧ header.id = link.id

def Justifies (thread : Thread) (request : Request) (result : Except String Result) : Prop :=
  ∀ text header, request = .inspect text → result = .ok (.header header) → thread.Checked text header

-- The thread has nothing to do besides one request.
inductive Serves (id : Nat) (request : Request) (thread : Thread) : Prop where
  | quiet (h : thread.Quiet)
  | asked (inbox : thread.inbox = [(id, request)]) (running : thread.running = none)
      (outbox : thread.outbox = [])
  | running (inbox : thread.inbox = []) (running : thread.running = some (id, request))
      (outbox : thread.outbox = [])
  | answered (result : Except String Result) (inbox : thread.inbox = []) (running : thread.running = none)
      (outbox : thread.outbox = [(id, result)]) (justified : thread.Justifies request result)

section

variable {crypto : Crypto} {unicode : Shared.Unicode} {parseUrl : JsString → Option Shared.Url}
variable {thread : Thread} {id : Nat} {request : Request} {isSupported : Bool}

theorem justifies_error (thread : Thread) (request : Request) (code : String)
    : thread.Justifies request (.error code) := by
  intro text header _ h
  cases h

theorem justifies_of_ne (thread : Thread) (result : Except String Result)
    (h : ∀ text, request ≠ .inspect text) : thread.Justifies request result :=
  fun text _ hrequest => absurd hrequest (h text)

theorem Checked.post {text : JsString} {header : Shared.Header} (h : thread.Checked text header)
    (result : Except String Result) : (thread.post id result).Checked text header :=
  ⟨h.kept, h.decoded, h.link⟩

theorem Quiet.post (h : thread.Quiet) {result : Except String Result}
    (hjustified : thread.Justifies request result) : (thread.post id result).Serves id request := by
  have houtbox : (thread.post id result).outbox = [(id, result)] := by
    unfold Thread.post
    rw [h.outbox]
    rfl
  exact .answered result h.inbox h.running houtbox fun text header hrequest hresult =>
    (hjustified text header hrequest hresult).post result

theorem Quiet.onmessage (h : thread.Quiet)
    : (thread.onmessage parseUrl isSupported id request).Serves id request := by
  unfold Thread.onmessage
  rw [if_neg (by simp [h.running])]
  split
  . exact h.post (justifies_error _ _ _)
  split
  . split
    . exact h.post (justifies_error _ _ _)
    . exact .running h.inbox rfl h.outbox
  . next text =>
    have hkept : Quiet { thread with headerBase64 := text } := ⟨h.inbox, h.running, h.outbox⟩
    dsimp only
    split
    . exact hkept.post (justifies_error _ _ _)
    . next decoded hdecoded =>
      split
      . next hlink =>
        apply hkept.post
        intro text' header htext hheader
        cases htext
        cases hheader
        rcases (Option.any_eq_true_iff_get _ _).mp hlink with ⟨hsome, hid⟩
        exact ⟨rfl, hdecoded, _, (Option.some_get hsome).symm, of_decide_eq_true hid⟩
      . exact hkept.post (justifies_error _ _ _)
  . split
    . exact h.post (justifies_error _ _ _)
    . exact .running h.inbox rfl h.outbox
  . split
    . exact h.post (justifies_error _ _ _)
    . exact .running h.inbox rfl h.outbox
  . exact h.post (justifies_error _ _ _)

theorem Quiet.receive (h : thread.Quiet) : thread.receive parseUrl isSupported = thread := by
  unfold Thread.receive
  rw [h.inbox]

theorem Quiet.finish (h : thread.Quiet) : thread.finish crypto unicode = thread := by
  unfold Thread.finish
  rw [h.running]

theorem serves_receive (h : thread.Serves id request)
    : (thread.receive parseUrl isSupported).Serves id request := by
  unfold receive
  cases h with
  | quiet h =>
    rw [h.inbox]
    exact .quiet h
  | asked inbox running outbox =>
    rw [inbox]
    have hquiet : Quiet { thread with inbox := [] } := ⟨rfl, running, outbox⟩
    exact hquiet.onmessage
  | running inbox running outbox =>
    rw [inbox]
    exact .running inbox running outbox
  | answered result inbox running outbox justified =>
    rw [inbox]
    exact .answered result inbox running outbox justified

theorem serves_finish (h : thread.Serves id request)
    : (thread.finish crypto unicode).Serves id request := by
  unfold finish
  cases h with
  | quiet h =>
    rw [h.running]
    exact .quiet h
  | asked inbox running outbox =>
    rw [running]
    exact .asked inbox running outbox
  | running inbox running outbox =>
    rw [running]
    have hquiet : Quiet { thread with running := none } := ⟨inbox, rfl, outbox⟩
    dsimp only
    split
    . unfold finishLoad
      split
      . exact .quiet hquiet
      . exact hquiet.post (justifies_of_ne _ _ (by simp))
    . unfold finishPrepare
      split
      . exact .quiet hquiet
      . split
        . exact hquiet.post (justifies_error _ _ _)
        . next prepared _ =>
          have hprepared : Quiet { thread with running := none, prepared := some prepared } :=
            ⟨inbox, rfl, outbox⟩
          exact hprepared.post (justifies_of_ne _ _ (by simp))
    . unfold finishDecrypt
      split
      . exact .quiet hquiet
      . have hcleared : Quiet { thread with
            running := none, prepared := none, link := none, headerBase64 := [] } :=
          ⟨inbox, rfl, outbox⟩
        exact hcleared.post (justifies_of_ne _ _ (by simp))
    . exact .quiet hquiet
  | answered result inbox running outbox justified =>
    rw [running]
    exact .answered result inbox running outbox justified

-- A preparation leaves what the thread holds in place.
theorem link_receive (h : thread.Serves id request)
    (hprepare : ∃ passphrase, request = .prepare passphrase)
    : (thread.receive parseUrl isSupported).link = thread.link
      ∧ (thread.receive parseUrl isSupported).headerBase64 = thread.headerBase64 := by
  rcases hprepare with ⟨passphrase, rfl⟩
  unfold receive
  cases h with
  | quiet h => simp [h.inbox]
  | asked inbox running outbox =>
    simp only [inbox, onmessage, running, Option.isSome_none, Bool.false_eq_true, if_false]
    split
    . exact ⟨rfl, rfl⟩
    . split
      . exact ⟨rfl, rfl⟩
      . exact ⟨rfl, rfl⟩
  | running inbox running outbox => simp [inbox]
  | answered result inbox running outbox justified => simp [inbox]

theorem link_finish (h : thread.Serves id request)
    (hprepare : ∃ passphrase, request = .prepare passphrase)
    : (thread.finish crypto unicode).link = thread.link
      ∧ (thread.finish crypto unicode).headerBase64 = thread.headerBase64 := by
  rcases hprepare with ⟨passphrase, rfl⟩
  unfold finish
  cases h with
  | quiet h => simp [h.running]
  | asked inbox running outbox => simp [running]
  | running inbox running outbox =>
    simp only [running, finishPrepare]
    split
    . exact ⟨rfl, rfl⟩
    . split
      . exact ⟨rfl, rfl⟩
      . exact ⟨rfl, rfl⟩
  | answered result inbox running outbox justified => simp [running]

theorem mem_ids_post {other : Nat} {result : Except String Result}
    : other ∈ (thread.post id result).ids ↔ other ∈ thread.ids ∨ other = id := by
  unfold ids post
  simp [or_assoc]

theorem mem_ids_running {other : Nat} (hrunning : thread.running = none)
    {link : Option Shared.ShareLink}
    {prepared : Option Shared.PreparedOpen}
    (h : other ∈ ids { thread with link, prepared, running := some (id, request) })
    : other ∈ thread.ids ∨ other = id := by
  unfold ids at h ⊢
  rw [hrunning]
  simp only [List.mem_append, Option.toList_some, List.map_cons, List.map_nil, List.mem_singleton,
    Option.toList_none, List.not_mem_nil, or_false] at h ⊢
  rcases h with (h | h) | h
  . exact .inl (.inl h)
  . exact .inr h
  . exact .inl (.inr h)

theorem mem_ids_inbox {other : Nat}
    (h : other ∈ ids { thread with inbox := thread.inbox ++ [(id, request)] })
    : other ∈ thread.ids ∨ other = id := by
  unfold ids at h ⊢
  simp only [List.map_append, List.mem_append, List.map_cons, List.map_nil, List.mem_singleton] at h ⊢
  tauto

theorem mem_ids_outbox {result : Except String Result}
    {outbox : List (Nat × Except String Result)} (houtbox : thread.outbox = (id, result) :: outbox)
    : id ∈ thread.ids ∧ ∀ other ∈ ids { thread with outbox }, other ∈ thread.ids := by
  unfold ids
  rw [houtbox]
  simp only [List.mem_append, List.map_cons, List.mem_cons]
  tauto

theorem mem_ids_onmessage {other : Nat} (h : other ∈ (thread.onmessage parseUrl isSupported id request).ids)
    : other ∈ thread.ids ∨ other = id := by
  unfold onmessage at h
  split at h
  . exact mem_ids_post.mp h
  . next hrunning =>
    rw [Option.isSome_iff_ne_none, not_not] at hrunning
    split at h
    . exact mem_ids_post.mp h
    split at h
    . split at h
      . exact mem_ids_post.mp h
      . exact mem_ids_running hrunning h
    . dsimp only at h
      split at h
      . exact mem_ids_post.mp h
      . split at h
        . exact mem_ids_post.mp h
        . exact mem_ids_post.mp h
    . split at h
      . exact mem_ids_post.mp h
      . exact mem_ids_running hrunning h
    . split at h
      . exact mem_ids_post.mp h
      . exact mem_ids_running hrunning h
    . exact mem_ids_post.mp h

theorem mem_ids_receive {other : Nat} (h : other ∈ (thread.receive parseUrl isSupported).ids)
    : other ∈ thread.ids := by
  unfold receive at h
  split at h
  . exact h
  . next id request inbox hinbox =>
    unfold ids
    rw [hinbox]
    rcases mem_ids_onmessage h with h | rfl
    . unfold ids at h
      simp only [List.map_cons, List.cons_append, List.mem_cons]
      exact .inr h
    . simp

theorem mem_ids_finish {other : Nat} (h : other ∈ (thread.finish crypto unicode).ids)
    : other ∈ thread.ids := by
  unfold finish at h
  split at h
  . exact h
  . next id request hrunning =>
    have hdone : other ∈ ids { thread with running := none } ∨ other = id → other ∈ thread.ids := by
      unfold ids
      rw [hrunning]
      simp only [List.mem_append, Option.toList_none, Option.toList_some, List.map_cons, List.map_nil,
        List.mem_singleton, List.not_mem_nil, or_false]
      tauto
    dsimp only at h
    split at h
    . unfold finishLoad at h
      split at h
      . exact hdone (.inl h)
      . exact hdone (mem_ids_post.mp h)
    . unfold finishPrepare at h
      split at h
      . exact hdone (.inl h)
      . split at h
        . exact hdone (mem_ids_post.mp h)
        . exact hdone (mem_ids_post.mp h)
    . unfold finishDecrypt at h
      split at h
      . exact hdone (.inl h)
      . exact hdone (mem_ids_post.mp h)
    . exact hdone (.inl h)

theorem Serves.answer {other : Nat}
    {result : Except String Result} {outbox : List (Nat × Except String Result)}
    (h : thread.Serves id request) (houtbox : thread.outbox = (other, result) :: outbox)
    : other = id ∧ outbox = [] ∧ thread.inbox = [] ∧ thread.running = none
      ∧ thread.Justifies request result := by
  cases h with
  | quiet h => rw [h.outbox] at houtbox; cases houtbox
  | asked _ _ hempty => rw [hempty] at houtbox; cases houtbox
  | running _ _ hempty => rw [hempty] at houtbox; cases houtbox
  | answered result' inbox running hone justified =>
    rw [hone] at houtbox
    cases houtbox
    exact ⟨rfl, rfl, inbox, running, justified⟩

end

end Thread

namespace Backend

-- What the worker of the next request holds.
def held (backend : Reader.Backend) : Option (Shared.ShareLink × JsString) :=
  backend.crypto.worker.bind fun worker =>
    (backend.threads worker).link.map fun link => (link, (backend.threads worker).headerBase64)

-- At most one request is with the workers, and only the present worker has it.
structure Sane (backend : Reader.Backend) : Prop where
  created : ∀ worker, backend.crypto.worker = some worker → worker < backend.crypto.created
  unused : ∀ worker, backend.crypto.created ≤ worker → backend.threads worker = .new
  sequence : ∀ worker, ∀ id ∈ (backend.threads worker).ids, id ≤ backend.crypto.sequence
  single : backend.crypto.pending = []
      ∧ (∀ worker, backend.crypto.worker = some worker → (backend.threads worker).Quiet)
    ∨ ∃ id number request worker, backend.crypto.pending = [(id, (number, request))]
      ∧ backend.crypto.worker = some worker
      ∧ (backend.threads worker).Serves id request
      ∧ ∀ other, other ≠ worker → id ∉ (backend.threads other).ids

section

variable {posts : Nat → Bool} {backend : Reader.Backend} {f : Thread → Thread} {worker : Nat}

theorem sane_start : Sane start where
  created worker h := by cases h
  unused _ _ := rfl
  sequence worker id hid := by cases hid
  single := .inl ⟨rfl, fun worker h => by cases h⟩

theorem Sane.update (h : backend.Sane) (hnew : f .new = .new)
    (hids : ∀ thread, ∀ id ∈ (f thread).ids, id ∈ thread.ids)
    (hquiet : ∀ thread, thread.Quiet → (f thread).Quiet)
    (hserves : ∀ thread id request, thread.Serves id request → (f thread).Serves id request)
    (worker : Nat) : (backend.update worker f).Sane where
  created := h.created
  unused other hother := by
    rw [threads_update, h.unused other hother]
    split
    . exact hnew
    . rfl
  sequence other id hid := by
    rw [threads_update] at hid
    split at hid
    . exact h.sequence other id (hids _ id hid)
    . exact h.sequence other id hid
  single := by
    rcases h.single with ⟨hpending, hall⟩ | ⟨id, number, request, current, hpending, hcurrent, hserve, hothers⟩
    . refine .inl ⟨hpending, fun current hcurrent => ?_⟩
      rw [threads_update]
      split
      . exact hquiet _ (hall current hcurrent)
      . exact hall current hcurrent
    . refine .inr ⟨id, number, request, current, hpending, hcurrent, ?_, fun other hother hid => ?_⟩
      . rw [threads_update]
        split
        . exact hserves _ id request hserve
        . exact hserve
      . rw [threads_update] at hid
        split at hid
        . exact hothers other hother (hids _ id hid)
        . exact hothers other hother hid

theorem Sane.receive (h : backend.Sane) (parseUrl : JsString → Option Shared.Url) (worker : Nat)
    (isSupported : Bool) : (backend.update worker (Thread.receive parseUrl isSupported)).Sane := by
  apply h.update
  . rfl
  . exact fun _ _ => Thread.mem_ids_receive
  . intro thread hquiet
    rw [hquiet.receive]
    exact hquiet
  . exact fun _ _ _ => Thread.serves_receive

theorem Sane.finish (h : backend.Sane) (crypto : Crypto) (unicode : Shared.Unicode) (worker : Nat)
    : (backend.update worker (Thread.finish crypto unicode)).Sane := by
  apply h.update
  . rfl
  . exact fun _ _ => Thread.mem_ids_finish
  . intro thread hquiet
    rw [hquiet.finish]
    exact hquiet
  . exact fun _ _ _ => Thread.serves_finish

theorem Sane.fail (h : backend.Sane) (error : Failure)
    : (backend.apply posts (backend.crypto.fail error)).Sane := by
  rw [apply_fail]
  exact {
    created := fun worker hworker => by cases hworker
    unused := h.unused
    sequence := h.sequence
    single := .inl ⟨rfl, fun worker hworker => by cases hworker⟩ }

theorem Sane.quiet (h : backend.Sane) (hpending : backend.crypto.pending = [])
    (hworker : backend.crypto.worker = some worker) : (backend.threads worker).Quiet := by
  rcases h.single with ⟨-, hquiet⟩ | ⟨id, number, request, current, hone, -⟩
  . exact hquiet worker hworker
  . rw [hone] at hpending
    cases hpending

theorem Sane.quiet_next (h : backend.Sane) (hpending : backend.crypto.pending = [])
    : (backend.threads backend.next).Quiet := by
  unfold next
  cases hworker : backend.crypto.worker with
  | none =>
    rw [Option.getD_none, h.unused _ (Nat.le_refl _)]
    exact ⟨rfl, rfl, rfl⟩
  | some worker => exact h.quiet hpending hworker

theorem Sane.next_lt_created (h : backend.Sane) : backend.next < backend.created := by
  unfold Backend.next Backend.created
  cases hworker : backend.crypto.worker with
  | none => exact Nat.lt_succ_self _
  | some worker => exact h.created worker hworker

theorem crypto_created_le : backend.crypto.created ≤ backend.created := by
  unfold created
  split
  . exact Nat.le_refl _
  . exact Nat.le_succ _

theorem apply_run_posted {number : Nat} {request : Request} (hposts : posts number = true)
    (hpending : backend.crypto.pending = [])
    : backend.apply posts (backend.crypto.run (number, request) (posts number))
        = (backend.update backend.next fun thread =>
            { thread with inbox := thread.inbox ++ [(backend.crypto.sequence + 1, request)] }).withCrypto {
              worker := some backend.next
              created := backend.created
              sequence := backend.crypto.sequence + 1
              pending := [(backend.crypto.sequence + 1, (number, request))] } backend.settled := by
  rw [apply_posted request hposts, noted, hpending]
  rfl

theorem apply_run_refused {number : Nat} {request : Request} (hposts : posts number = false)
    (hpending : backend.crypto.pending = [])
    : backend.apply posts (backend.crypto.run (number, request) (posts number))
        = backend.withCrypto {
            worker := some backend.next
            created := backend.created
            sequence := backend.crypto.sequence + 1
            pending := [] }
          (backend.settled ++ [(number, .rejected (.workerFailure "worker_failed"))]) := by
  rw [apply_refused request hposts, noted, hpending]
  simp [Threads.rejected]

theorem Sane.run (h : backend.Sane) (hpending : backend.crypto.pending = []) (number : Nat)
    (request : Request)
    : (backend.apply posts (backend.crypto.run (number, request) (posts number))).Sane := by
  have hquiet := h.quiet_next hpending
  have hunused : ∀ worker, backend.created ≤ worker → worker ≠ backend.next
      ∧ backend.threads worker = .new := fun worker hworker =>
    ⟨(Nat.lt_of_lt_of_le h.next_lt_created hworker).ne',
      h.unused worker (Nat.le_trans crypto_created_le hworker)⟩
  cases hposts : posts number with
  | false =>
    rw [← hposts, apply_run_refused hposts hpending]
    exact {
      created := fun worker hworker => by
        cases hworker
        exact h.next_lt_created
      unused := fun worker hworker => (hunused worker hworker).2
      sequence := fun worker id hid => Nat.le_succ_of_le (h.sequence worker id hid)
      single := .inl ⟨rfl, fun worker hworker => by
        cases hworker
        exact hquiet⟩ }
  | true =>
    rw [← hposts, apply_run_posted hposts hpending]
    exact {
      created := fun worker hworker => by
        cases hworker
        exact h.next_lt_created
      unused := fun worker hworker => by
        have hother := hunused worker hworker
        rw [threads_withCrypto, threads_update, if_neg hother.1]
        exact hother.2
      sequence := fun worker id hid => by
        rw [threads_withCrypto, threads_update] at hid
        split at hid
        . change id ≤ backend.crypto.sequence + 1
          rcases Thread.mem_ids_inbox hid with hid | rfl
          . exact Nat.le_succ_of_le (h.sequence worker id hid)
          . exact Nat.le_refl _
        . exact Nat.le_succ_of_le (h.sequence worker id hid)
      single := by
        refine .inr ⟨_, number, request, backend.next, rfl, rfl, ?_, fun other hother hid => ?_⟩
        . rw [threads_withCrypto, threads_update, if_pos rfl]
          exact .asked (by simp [hquiet.inbox]) hquiet.running hquiet.outbox
        . rw [threads_withCrypto, threads_update, if_neg hother] at hid
          exact absurd (h.sequence other _ hid) (Nat.not_succ_le_self _) }

theorem held_update (hkept : (f (backend.threads worker)).link = (backend.threads worker).link
      ∧ (f (backend.threads worker)).headerBase64 = (backend.threads worker).headerBase64)
    : (backend.update worker f).held = backend.held := by
  have hsame : ∀ other, ((backend.update worker f).threads other).link = (backend.threads other).link
      ∧ ((backend.update worker f).threads other).headerBase64
        = (backend.threads other).headerBase64 := by
    intro other
    rw [threads_update]
    split
    . next hother =>
      rw [hother]
      exact hkept
    . exact ⟨rfl, rfl⟩
  unfold held
  simp only [(hsame _).1, (hsame _).2]
  rfl

theorem held_update_other (hother : backend.crypto.worker ≠ some worker)
    : (backend.update worker f).held = backend.held := by
  unfold held
  change backend.crypto.worker.bind _ = _
  cases hworker : backend.crypto.worker with
  | none => rfl
  | some current =>
    have hne : current ≠ worker := fun heq => hother (by rw [hworker, heq])
    simp only [Option.bind_some, threads_update, if_neg hne]

-- Every request with the workers is a preparation.
def Preparing (backend : Reader.Backend) : Prop :=
  ∀ id number request, (id, (number, request)) ∈ backend.crypto.pending
    → ∃ passphrase, request = .prepare passphrase

theorem Sane.serves (h : backend.Sane) (hpreparing : backend.Preparing)
    (hworker : backend.crypto.worker = some worker)
    : ∃ id request, (backend.threads worker).Serves id request
      ∧ ∃ passphrase, request = .prepare passphrase := by
  rcases h.single with ⟨-, hquiet⟩ | ⟨id, number, request, current, hpending, hcurrent, hserves, -⟩
  . exact ⟨0, .prepare [], .quiet (hquiet worker hworker), [], rfl⟩
  . rw [hcurrent, Option.some_inj] at hworker
    subst hworker
    exact ⟨id, request, hserves, hpreparing id number request (by simp [hpending])⟩

theorem Sane.held_receive (h : backend.Sane) (hpreparing : backend.Preparing)
    (parseUrl : JsString → Option Shared.Url) (worker : Nat) (isSupported : Bool)
    : (backend.update worker (Thread.receive parseUrl isSupported)).held = backend.held := by
  by_cases hworker : backend.crypto.worker = some worker
  . rcases h.serves hpreparing hworker with ⟨id, request, hserves, hprepare⟩
    exact held_update (Thread.link_receive hserves hprepare)
  . exact held_update_other hworker

theorem Sane.held_finish (h : backend.Sane) (hpreparing : backend.Preparing) (crypto : Crypto)
    (unicode : Shared.Unicode) (worker : Nat)
    : (backend.update worker (Thread.finish crypto unicode)).held = backend.held := by
  by_cases hworker : backend.crypto.worker = some worker
  . rcases h.serves hpreparing hworker with ⟨id, request, hserves, hprepare⟩
    exact held_update (Thread.link_finish hserves hprepare)
  . exact held_update_other hworker

theorem held_run (hpending : backend.crypto.pending = []) {number : Nat} {request : Request}
    {link : Shared.ShareLink} {text : JsString} (hheld : backend.held = some (link, text))
    : (backend.apply posts (backend.crypto.run (number, request) (posts number))).held
        = some (link, text) := by
  rcases Option.bind_eq_some_iff.mp hheld with ⟨worker, hworker, hlink⟩
  have hnext : backend.next = worker := by
    unfold next
    rw [hworker, Option.getD_some]
  cases hposts : posts number with
  | false =>
    rw [← hposts, apply_run_refused hposts hpending]
    unfold held
    change (some backend.next).bind _ = _
    rw [hnext]
    exact hlink
  | true =>
    rw [← hposts, apply_run_posted hposts hpending]
    unfold held
    change (some backend.next).bind _ = _
    rw [hnext, Option.bind_some, threads_withCrypto, threads_update, if_pos rfl]
    exact hlink

-- What the delivery of a message does.
inductive Delivered (posts : Nat → Bool) (worker : Nat) (backend : Reader.Backend) : Prop where
  | ignored (crypto : (backend.deliver posts worker).crypto = backend.crypto)
      (settled : (backend.deliver posts worker).settled = backend.settled)
  | settled (id number : Nat) (request : Request) (result : Except String Result)
      (pending : backend.crypto.pending = [(id, (number, request))])
      (present : backend.crypto.worker = some worker)
      (justified : (backend.threads worker).Justifies request result)
      (crypto : (backend.deliver posts worker).crypto = { backend.crypto with pending := [] })
      (settled : (backend.deliver posts worker).settled
        = backend.settled ++ [(number, resultOf Thread (CryptoWorker.reply result))])

theorem held_deliver (posts : Nat → Bool) (worker : Nat) (backend : Reader.Backend)
    : (backend.deliver posts worker).held = backend.held := by
  unfold deliver
  split
  . rfl
  . next id result outbox houtbox =>
    have hkept : (backend.update worker fun thread => { thread with outbox }).held = backend.held :=
      held_update ⟨rfl, rfl⟩
    rw [← hkept]
    unfold CryptoWorker.onmessage
    split
    . rfl
    . rfl

theorem Sane.drop (h : backend.Sane) {id : Nat} {result : Except String Result}
    {outbox : List (Nat × Except String Result)}
    (houtbox : (backend.threads worker).outbox = (id, result) :: outbox)
    (hother : backend.crypto.worker ≠ some worker)
    : (backend.update worker fun thread => { thread with outbox }).Sane where
  created := h.created
  unused other hunused := by
    have hne : other ≠ worker := by
      intro heq
      rw [← heq, h.unused other hunused] at houtbox
      cases houtbox
    rw [threads_update, if_neg hne]
    exact h.unused other hunused
  sequence other id' hid := by
    rw [threads_update] at hid
    split at hid
    . next heq =>
      subst heq
      exact h.sequence other id' ((Thread.mem_ids_outbox houtbox).2 id' hid)
    . exact h.sequence other id' hid
  single := by
    rcases h.single with ⟨hpending, hquiet⟩
      | ⟨pendingId, number, request, current, hpending, hcurrent, hserves, hothers⟩
    . refine .inl ⟨hpending, fun current hcurrent => ?_⟩
      have hne : current ≠ worker := fun heq => hother (heq ▸ hcurrent)
      rw [threads_update, if_neg hne]
      exact hquiet current hcurrent
    . have hne : current ≠ worker := fun heq => hother (heq ▸ hcurrent)
      refine .inr ⟨pendingId, number, request, current, hpending, hcurrent, ?_, fun other hdiffers hid => ?_⟩
      . rw [threads_update, if_neg hne]
        exact hserves
      . rw [threads_update] at hid
        split at hid
        . next heq =>
          subst heq
          exact hothers other hdiffers ((Thread.mem_ids_outbox houtbox).2 pendingId hid)
        . exact hothers other hdiffers hid

theorem Sane.deliver (h : backend.Sane) (posts : Nat → Bool) (worker : Nat)
    : (backend.deliver posts worker).Sane ∧ Delivered posts worker backend := by
  cases houtbox : (backend.threads worker).outbox with
  | nil =>
    have hsame := deliver_nil posts worker backend houtbox
    rw [hsame]
    exact ⟨h, .ignored (by rw [hsame]) (by rw [hsame])⟩
  | cons answer outbox =>
    rcases answer with ⟨id, result⟩
    by_cases hworker : backend.crypto.worker = some worker
    . rcases h.single with ⟨hpending, hquiet⟩
        | ⟨pendingId, number, request, current, hpending, hcurrent, hserves, hothers⟩
      . rw [(hquiet worker hworker).outbox] at houtbox
        cases houtbox
      . rw [hworker, Option.some_inj] at hcurrent
        subst hcurrent
        rcases hserves.answer houtbox with ⟨rfl, rfl, hinbox, hrunning, hjustified⟩
        have hdeliver : backend.deliver posts worker
            = (backend.update worker fun thread => { thread with outbox := [] }).withCrypto
              { backend.crypto with pending := [] }
              (backend.settled ++ [(number, resultOf Thread (CryptoWorker.reply result))]) := by
          have hlookup : backend.crypto.pending.lookup id = some (number, request) := by simp [hpending]
          rw [deliver_settled posts worker backend houtbox hlookup, hpending]
          simp [Threads.retain]
        refine ⟨?_, .settled id number request result hpending hworker hjustified ?_ ?_⟩
        . rw [hdeliver]
          exact {
            created := h.created
            unused := fun other hunused => by
              have hne : other ≠ worker :=
                (Nat.lt_of_lt_of_le (h.created worker hworker) hunused).ne'
              rw [threads_withCrypto, threads_update, if_neg hne]
              exact h.unused other hunused
            sequence := fun other id' hid => by
              rw [threads_withCrypto, threads_update] at hid
              split at hid
              . next heq =>
                subst heq
                exact h.sequence other id' ((Thread.mem_ids_outbox houtbox).2 id' hid)
              . exact h.sequence other id' hid
            single := .inl ⟨rfl, fun other hother => by
              rw [threads_withCrypto, threads_update]
              have heq : worker = other := Option.some_inj.mp (hworker.symm.trans hother)
              rw [if_pos heq.symm, ← heq]
              exact ⟨hinbox, hrunning, rfl⟩⟩ }
        . rw [hdeliver]
          rfl
        . rw [hdeliver]
          rfl
    . have hlookup : backend.crypto.pending.lookup id = none := by
        rcases h.single with ⟨hpending, -⟩
          | ⟨pendingId, number, request, current, hpending, hcurrent, -, hothers⟩
        . rw [hpending]
          rfl
        . have hne : id ≠ pendingId := by
            rintro rfl
            have hdiffers : worker ≠ current := fun heq => hworker (heq ▸ hcurrent)
            exact hothers worker hdiffers (Thread.mem_ids_outbox houtbox).1
          rw [hpending]
          simp [List.lookup_cons, beq_eq_false_iff_ne.mpr hne]
      have hunknown := deliver_unknown posts worker backend houtbox hlookup
      rw [hunknown]
      exact ⟨h.drop houtbox hworker, .ignored (by rw [hunknown]; rfl) (by rw [hunknown]; rfl)⟩

end

end Backend

end Web
