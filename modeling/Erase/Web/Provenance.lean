import Erase.Web.Serving
import Erase.Web.Growth

namespace Web

namespace Trace

def Asks (trace : Trace) (number : Nat) (request : Request) : Prop :=
  ∃ generation, (generation, .call number request) ∈ trace

section

variable (crypto : Crypto) (parseUrl : JsString → Option Shared.Url)

-- The passphrase opens a header that a call has handed over, with the secret of a link that a call has
-- handed over, and leaves the token.
def Grants (trace : Trace) (passphrase token : JsString) : Prop :=
  ∃ (first second : Nat) (url text : JsString) (link : Shared.ShareLink) (prepared : Shared.PreparedOpen),
    trace.Asks first (.load url)
      ∧ Shared.parseShareLink parseUrl url = .ok link
      ∧ trace.Asks second (.inspect text)
      ∧ Shared.prepareOpen crypto text link.secret link.id passphrase = .ok prepared
      ∧ token = prepared.readToken

def Prepares (trace : Trace) (number : Nat) (token : JsString) : Prop :=
  ∃ passphrase, trace.Asks number (.prepare passphrase) ∧ trace.Grants crypto parseUrl passphrase token

-- A settled preparation stands right before the request.
def Leads (before : Trace) (generation : Nat) (_id token : JsString) : Prop :=
  ∃ (earlier : Trace) (number : Nat),
    before = earlier ++ [(generation, .event (.settle number (.access token)))]
      ∧ earlier.Prepares crypto parseUrl number token

end

section

variable {crypto : Crypto} {parseUrl : JsString → Option Shared.Url}
variable {trace trace' : Trace} {number : Nat}

theorem Asks.mono {request : Request} (h : trace.Asks number request) (htrace : trace ⊆ trace')
    : trace'.Asks number request := by
  rcases h with ⟨generation, hmem⟩
  exact ⟨generation, htrace hmem⟩

theorem Grants.mono {passphrase token : JsString} (h : trace.Grants crypto parseUrl passphrase token)
    (htrace : trace ⊆ trace') : trace'.Grants crypto parseUrl passphrase token := by
  rcases h with ⟨first, second, url, text, link, prepared, hload, hlink, hinspect, hprepared, htoken⟩
  exact ⟨first, second, url, text, link, prepared, hload.mono htrace, hlink, hinspect.mono htrace,
    hprepared, htoken⟩

theorem Prepares.mono {token : JsString} (h : trace.Prepares crypto parseUrl number token)
    (htrace : trace ⊆ trace') : trace'.Prepares crypto parseUrl number token := by
  rcases h with ⟨passphrase, hasks, hgrants⟩
  exact ⟨passphrase, hasks.mono htrace, hgrants.mono htrace⟩

end

end Trace

-- A message whose request was asked for, and which is the one pending under its identifier.
def Dispatched (trace : Trace) (pending : List (Nat × (Nat × Request))) (id : Nat) (request : Request) : Prop :=
  (∃ number, trace.Asks number request) ∧ ∀ number other, (id, (number, other)) ∈ pending → other = request

theorem Dispatched.mono {trace trace' : Trace} {pending pending' : List (Nat × (Nat × Request))}
    {id : Nat}
    {request : Request} (h : Dispatched trace pending id request) (htrace : trace ⊆ trace')
    (hpending : ∀ promise, (id, promise) ∈ pending' → (id, promise) ∈ pending)
    : Dispatched trace' pending' id request := by
  rcases h with ⟨⟨number, hasks⟩, hsame⟩
  exact ⟨⟨number, hasks.mono htrace⟩, fun number other hmem => hsame number other (hpending _ hmem)⟩

section

variable (crypto : Crypto) (parseUrl : JsString → Option Shared.Url)

-- What the thread holds came with its messages, and what it answers follows from that.
structure Thread.Grounded (trace : Trace) (pending : List (Nat × (Nat × Request))) (thread : Thread)
    : Prop where
  link : ∀ link, thread.link = some link
    → ∃ number url, trace.Asks number (.load url) ∧ Shared.parseShareLink parseUrl url = .ok link
  header : thread.headerBase64 ≠ [] → ∃ number, trace.Asks number (.inspect thread.headerBase64)
  preparing : ∀ id passphrase, thread.running = some (id, .prepare passphrase) → thread.headerBase64 ≠ []
  inbox : ∀ id request, (id, request) ∈ thread.inbox → Dispatched trace pending id request
  running : ∀ id request, thread.running = some (id, request) → Dispatched trace pending id request
  outbox : ∀ id token, (id, .ok (.access token)) ∈ thread.outbox
    → ∃ passphrase, Dispatched trace pending id (.prepare passphrase)
      ∧ trace.Grants crypto parseUrl passphrase token

structure Backend.Grounded (trace : Trace) (backend : Reader.Backend) : Prop where
  threads : ∀ worker, (backend.threads worker).Grounded crypto parseUrl trace backend.crypto.pending
  sequence : ∀ worker, ∀ id ∈ (backend.threads worker).ids, id ≤ backend.crypto.sequence
  numbered : ∀ id promise, (id, promise) ∈ backend.crypto.pending → id ≤ backend.crypto.sequence
  pending : ∀ id number request, (id, (number, request)) ∈ backend.crypto.pending
    → trace.Asks number request
  settled : ∀ number token, (number, .access token) ∈ backend.settled
    → trace.Prepares crypto parseUrl number token

end

namespace Thread.Grounded

section

variable {crypto : Crypto} {unicode : Shared.Unicode} {parseUrl : JsString → Option Shared.Url}
variable {trace trace' : Trace} {pending pending' : List (Nat × (Nat × Request))}
variable {thread : Thread} {id : Nat} {request : Request} {isSupported : Bool}

theorem new : Thread.new.Grounded crypto parseUrl trace pending where
  link _ h := by cases h
  header h := absurd rfl h
  preparing _ _ h := by cases h
  inbox _ _ h := by cases h
  running _ _ h := by cases h
  outbox _ _ h := by cases h

theorem mono (h : thread.Grounded crypto parseUrl trace pending) (htrace : trace ⊆ trace')
    (hpending : ∀ id ∈ thread.ids, ∀ promise, (id, promise) ∈ pending' → (id, promise) ∈ pending)
    : thread.Grounded crypto parseUrl trace' pending' where
  link link hlink := by
    rcases h.link link hlink with ⟨number, url, hasks, hparse⟩
    exact ⟨number, url, hasks.mono htrace, hparse⟩
  header hheader := by
    rcases h.header hheader with ⟨number, hasks⟩
    exact ⟨number, hasks.mono htrace⟩
  preparing := h.preparing
  inbox id request hmem := by
    apply (h.inbox id request hmem).mono htrace
    apply hpending
    unfold ids
    simp only [List.mem_append, List.mem_map]
    exact .inl (.inl ⟨_, hmem, rfl⟩)
  running id request hrunning := by
    apply (h.running id request hrunning).mono htrace
    apply hpending
    unfold ids
    simp [hrunning]
  outbox id token hmem := by
    rcases h.outbox id token hmem with ⟨passphrase, hdispatched, hgrants⟩
    refine ⟨passphrase, hdispatched.mono htrace (hpending id ?_), hgrants.mono htrace⟩
    unfold ids
    simp only [List.mem_append, List.mem_map]
    exact .inr ⟨_, hmem, rfl⟩

theorem post (h : thread.Grounded crypto parseUrl trace pending) {result : Except String Result}
    (hresult : ∀ token, result = .ok (.access token)
      → ∃ passphrase, Dispatched trace pending id (.prepare passphrase)
        ∧ trace.Grants crypto parseUrl passphrase token)
    : (thread.post id result).Grounded crypto parseUrl trace pending := {
  h with
  outbox := fun other token hmem => by
    unfold Thread.post at hmem
    rcases List.mem_append.mp hmem with hmem | hmem
    . exact h.outbox other token hmem
    . cases List.mem_singleton.mp hmem
      exact hresult token rfl }

theorem postError (h : thread.Grounded crypto parseUrl trace pending) (code : String)
    : (thread.post id (.error code)).Grounded crypto parseUrl trace pending :=
  h.post fun token htoken => by cases htoken

theorem onmessage (h : thread.Grounded crypto parseUrl trace pending)
    (hdispatched : Dispatched trace pending id request)
    : (thread.onmessage parseUrl isSupported id request).Grounded crypto parseUrl trace pending := by
  have hrun : ∀ other request', some (id, request) = some (other, request')
      → Dispatched trace pending other request' := by
    intro other request' hsame
    cases hsame
    exact hdispatched
  unfold Thread.onmessage
  split
  . exact h.postError _
  . next hrunning =>
    rw [Option.isSome_iff_ne_none, not_not] at hrunning
    split
    . exact h.postError _
    split
    . next url =>
      split
      . exact h.postError _
      . next link hparse =>
        rcases hdispatched.1 with ⟨number, hasks⟩
        exact { h with
          link := fun link' hlink => by
            cases hlink
            exact ⟨number, url, hasks, hparse⟩
          preparing := fun _ _ hprepare => by cases hprepare
          running := hrun }
    . next text =>
      rcases hdispatched.1 with ⟨number, hasks⟩
      have hkept : Grounded crypto parseUrl trace pending { thread with headerBase64 := text } := {
        h with
        header := fun _ => ⟨number, hasks⟩
        preparing := fun _ _ hprepare => by rw [hrunning] at hprepare; cases hprepare }
      dsimp only
      split
      . exact hkept.postError _
      . split
        . exact hkept.post fun token htoken => by cases htoken
        . exact hkept.postError _
    . split
      . exact h.postError _
      . next hready =>
        simp only [Bool.or_eq_true, not_or, decide_eq_true_eq] at hready
        exact { h with
          preparing := fun _ _ _ => hready.2
          running := hrun }
    . split
      . exact h.postError _
      . exact { h with
          preparing := fun _ _ hprepare => by cases hprepare
          running := hrun }
    . exact h.postError _

theorem receive (h : thread.Grounded crypto parseUrl trace pending)
    : (thread.receive parseUrl isSupported).Grounded crypto parseUrl trace pending := by
  unfold Thread.receive
  split
  . exact h
  . next id request inbox hinbox =>
    have hdispatched := h.inbox id request (by simp [hinbox])
    have htaken : Grounded crypto parseUrl trace pending { thread with inbox } := {
      h with
      inbox := fun other request' hmem => h.inbox other request' (by simp [hinbox, hmem]) }
    exact htaken.onmessage hdispatched

theorem finish (h : thread.Grounded crypto parseUrl trace pending)
    : (thread.finish crypto unicode).Grounded crypto parseUrl trace pending := by
  unfold Thread.finish
  split
  . exact h
  . next id request hrunning =>
    have hidle : Grounded crypto parseUrl trace pending { thread with running := none } := {
      h with
      preparing := fun _ _ hprepare => by cases hprepare
      running := fun _ _ hnone => by cases hnone }
    dsimp only
    split
    . unfold finishLoad
      split
      . exact hidle
      . apply hidle.post
        intro token htoken
        unfold answer at htoken
        split at htoken
        . cases htoken
        . cases htoken
    . next passphrase =>
      unfold finishPrepare
      split
      . exact hidle
      . next link hlink =>
        split
        . exact hidle.postError _
        . next prepared hprepared =>
          have hkept : Grounded crypto parseUrl trace pending
              { thread with running := none, prepared := some prepared } :=
            { hidle with }
          apply hkept.post
          intro token htoken
          cases htoken
          rcases h.link link hlink with ⟨first, url, hload, hparse⟩
          rcases h.header (h.preparing id passphrase hrunning) with ⟨second, hinspect⟩
          exact ⟨passphrase, h.running id _ hrunning, first, second, url, _, link, prepared, hload,
            hparse, hinspect, hprepared, rfl⟩
    . unfold finishDecrypt
      split
      . exact hidle
      . have hcleared : Grounded crypto parseUrl trace pending
            { thread with running := none, prepared := none, link := none, headerBase64 := [] } := {
          hidle with
          link := fun _ hlink => by cases hlink
          header := fun hheader => absurd rfl hheader
          preparing := fun _ _ hprepare => by cases hprepare }
        apply hcleared.post
        intro token htoken
        unfold answer at htoken
        split at htoken
        . cases htoken
        . cases htoken
    . exact hidle

end

end Thread.Grounded

namespace Backend.Grounded

section

variable {crypto : Crypto} {unicode : Shared.Unicode} {parseUrl : JsString → Option Shared.Url}
variable {posts : Nat → Bool} {trace trace' : Trace} {backend : Reader.Backend}

theorem start : Grounded crypto parseUrl trace Backend.start where
  threads _ := .new
  sequence _ _ h := by cases h
  numbered _ _ h := by cases h
  pending _ _ _ h := by cases h
  settled _ _ h := by cases h

theorem mono (h : backend.Grounded crypto parseUrl trace) (htrace : trace ⊆ trace')
    : backend.Grounded crypto parseUrl trace' where
  threads worker := (h.threads worker).mono htrace fun _ _ _ hmem => hmem
  sequence := h.sequence
  numbered := h.numbered
  pending id number request hmem := (h.pending id number request hmem).mono htrace
  settled number token hmem := (h.settled number token hmem).mono htrace

theorem update (h : backend.Grounded crypto parseUrl trace) {worker : Nat} {f : Thread → Thread}
    (hthread : (f (backend.threads worker)).Grounded crypto parseUrl trace backend.crypto.pending)
    (hids : ∀ id ∈ (f (backend.threads worker)).ids, id ≤ backend.crypto.sequence)
    : (backend.update worker f).Grounded crypto parseUrl trace := {
  h with
  threads := fun other => by
    rw [threads_update]
    split
    . next hother =>
      rw [hother]
      exact hthread
    . exact h.threads other
  sequence := fun other id hid => by
    rw [threads_update] at hid
    split at hid
    . next hother =>
      rw [hother] at hid
      exact hids id hid
    . exact h.sequence other id hid }

theorem receive (h : backend.Grounded crypto parseUrl trace) (worker : Nat) (isSupported : Bool)
    : (backend.update worker (Thread.receive parseUrl isSupported)).Grounded crypto parseUrl trace :=
  h.update (h.threads worker).receive fun id hid => h.sequence worker id (Thread.mem_ids_receive hid)

theorem finish (h : backend.Grounded crypto parseUrl trace) (worker : Nat)
    : (backend.update worker (Thread.finish crypto unicode)).Grounded crypto parseUrl trace :=
  h.update (h.threads worker).finish fun id hid => h.sequence worker id (Thread.mem_ids_finish hid)

-- The bookkeeping goes on with some of the pending calls and of the settled ones.
theorem withCrypto (h : backend.Grounded crypto parseUrl trace) {next : CryptoWorker (Nat × Request)}
    {settled : List (Nat × Result)} (hsequence : backend.crypto.sequence ≤ next.sequence)
    (hpending : next.pending ⊆ backend.crypto.pending)
    (hsettled : ∀ number token, (number, .access token) ∈ settled
      → trace.Prepares crypto parseUrl number token)
    : (backend.withCrypto next settled).Grounded crypto parseUrl trace where
  threads worker := (h.threads worker).mono (List.Subset.refl _) fun _ _ _ hmem => hpending hmem
  sequence worker id hid := Nat.le_trans (h.sequence worker id hid) hsequence
  numbered id promise hmem := Nat.le_trans (h.numbered id promise (hpending hmem)) hsequence
  pending id number request hmem := h.pending id number request (hpending hmem)
  settled := hsettled

theorem settled_append (h : backend.Grounded crypto parseUrl trace) {more : List (Nat × Result)}
    (hmore : ∀ number token, (number, .access token) ∈ more → trace.Prepares crypto parseUrl number token)
    : ∀ number token, (number, .access token) ∈ backend.settled ++ more
        → trace.Prepares crypto parseUrl number token := by
  intro number token hmem
  rcases List.mem_append.mp hmem with hmem | hmem
  . exact h.settled number token hmem
  . exact hmore number token hmem

theorem fail (h : backend.Grounded crypto parseUrl trace) (error : Failure)
    : (backend.apply posts (backend.crypto.fail error)).Grounded crypto parseUrl trace := by
  have hrejections : ∀ number token, (number, .access token) ∈ rejections Thread error backend.crypto.pending
      → trace.Prepares crypto parseUrl number token := by
    intro number token hmem
    cases (mem_rejections hmem).1
  rw [apply_fail]
  exact h.withCrypto (Nat.le_refl _) (List.nil_subset _) (h.settled_append hrejections)

theorem run (h : backend.Grounded crypto parseUrl trace) {number : Nat} {request : Request}
    (hasks : trace.Asks number request)
    : (backend.apply posts (backend.crypto.run (number, request) (posts number))).Grounded crypto parseUrl
        trace := by
  cases hposts : posts number with
  | false =>
    rw [← hposts, apply_refused request hposts]
    apply h.withCrypto (Nat.le_succ _)
    . exact refused_subset _ _
    . apply h.settled_append
      simp
  | true =>
    rw [← hposts, apply_posted request hposts]
    have hdispatched : Dispatched trace (backend.noted (number, request)).pending
        (backend.crypto.sequence + 1) request := by
      refine ⟨⟨number, hasks⟩, fun other request' hmem => ?_⟩
      exact (Prod.mk.inj (eq_of_mem_noted h.numbered hmem)).2
    have hthreads : ∀ worker, (backend.threads worker).Grounded crypto parseUrl trace
        (backend.noted (number, request)).pending :=
      fun worker => (h.threads worker).mono (List.Subset.refl trace)
        fun id hid promise hmem => mem_of_mem_noted (h.sequence worker id hid) hmem
    exact {
      threads := fun worker => by
        rw [threads_withCrypto, threads_update]
        split
        . exact { hthreads worker with
            inbox := fun id request' hmem => by
              rcases List.mem_append.mp hmem with hmem | hmem
              . exact (hthreads worker).inbox id request' hmem
              . cases List.mem_singleton.mp hmem
                exact hdispatched }
        . exact hthreads worker
      sequence := fun worker id hid => by
        rw [threads_withCrypto, threads_update] at hid
        change id ≤ backend.crypto.sequence + 1
        split at hid
        . rcases Thread.mem_ids_inbox hid with hid | rfl
          . exact Nat.le_succ_of_le (h.sequence worker id hid)
          . exact Nat.le_refl _
        . exact Nat.le_succ_of_le (h.sequence worker id hid)
      numbered := fun id promise hmem => le_of_mem_noted h.numbered hmem
      pending := fun id other request' hmem => by
        rcases List.mem_append.mp hmem with hmem | hmem
        . exact h.pending id other request' hmem
        . cases List.mem_singleton.mp hmem
          exact hasks
      settled := h.settled }

theorem replay (h : backend.Grounded crypto parseUrl trace) {entry : Nat × Entry}
    (hentry : entry ∈ trace)
    : (backend.replay posts entry).Grounded crypto parseUrl trace := by
  rcases entry with ⟨generation, entry⟩
  cases entry with
  | dispose => exact h.fail .abortError
  | call number request =>
    cases hrequest : request.isCrypto with
    | false =>
      rw [replay_none posts backend (order_foreign hrequest)]
      exact h
    | true =>
      rw [replay_call posts backend (order_call hrequest)]
      exact h.run ⟨generation, hentry⟩
  | _ => exact h

theorem foldl_replay (h : backend.Grounded crypto parseUrl trace) {entries : Trace}
    (hentries : entries ⊆ trace)
    : (entries.foldl (Backend.replay posts) backend).Grounded crypto parseUrl trace := by
  apply List.foldlRecOn entries _ h
  exact fun _ hbefore entry hentry => hbefore.replay (hentries hentry)

theorem take (h : backend.Grounded crypto parseUrl trace) {worker id : Nat} {result : Except String Result}
    {outbox : List (Nat × Except String Result)}
    (houtbox : (backend.threads worker).outbox = (id, result) :: outbox)
    : (backend.update worker fun thread => { thread with outbox }).Grounded crypto parseUrl trace := by
  apply h.update
  . exact { h.threads worker with
      outbox := fun other token hmem => (h.threads worker).outbox other token (by simp [houtbox, hmem]) }
  . intro other hmem
    exact h.sequence worker other ((Thread.mem_ids_outbox houtbox).2 other hmem)

theorem deliver (h : backend.Grounded crypto parseUrl trace) (worker : Nat)
    : (backend.deliver posts worker).Grounded crypto parseUrl trace := by
  cases houtbox : (backend.threads worker).outbox with
  | nil =>
    rw [deliver_nil posts worker backend houtbox]
    exact h
  | cons answer outbox =>
    rcases answer with ⟨id, result⟩
    have htaken := h.take houtbox
    cases hlookup : backend.crypto.pending.lookup id with
    | none =>
      rw [deliver_unknown posts worker backend houtbox hlookup]
      exact htaken
    | some promise =>
      rcases promise with ⟨number, request⟩
      have hmem := List.mem_of_lookup hlookup
      have hsettled : ∀ other token, (other, .access token)
          ∈ [(number, resultOf Thread (CryptoWorker.reply result))]
            → trace.Prepares crypto parseUrl other token := by
        intro other token hother
        have hsame := List.mem_singleton.mp hother
        cases result with
        | error code => cases hsame
        | ok result =>
          cases hsame
          rcases (h.threads worker).outbox id token (by simp [houtbox]) with ⟨passphrase, hdispatched, hgrants⟩
          have hrequest := hdispatched.2 number request hmem
          subst hrequest
          exact ⟨passphrase, h.pending id number _ hmem, hgrants⟩
      rw [deliver_settled posts worker backend houtbox hlookup]
      exact htaken.withCrypto (Nat.le_refl _) (fun entry hentry => List.mem_of_mem_filter hentry)
        (htaken.settled_append hsettled)

end

end Backend.Grounded

namespace Receiver

section

variable (crypto : Crypto) (parseUrl : JsString → Option Shared.Url)

structure Grounded (receiver : Receiver) : Prop where
  backend : receiver.backend.Grounded crypto parseUrl receiver.page.trace
  justified : Trace.Justified (Trace.Leads crypto parseUrl) receiver.page.trace

end

section

variable {crypto : Crypto} {unicode : Shared.Unicode} {parseUrl : JsString → Option Shared.Url}
variable {posts : Nat → Bool} {receiver : Receiver}

theorem grounded_mount (now : Nat) : (mount now).Grounded crypto parseUrl where
  backend := .start
  justified before after _ _ _ _ h := by
    have hlength := congrArg List.length h
    simp [mount, Reader.mount] at hlength

theorem grounded_react (h : receiver.Grounded crypto parseUrl) {event : Web.Event}
    (hevent : ∀ number ticket token, event = .settle number (.access token)
      → receiver.page.host.promises.waiting number = some (.openAccess ticket)
      → Trace.Prepares crypto parseUrl receiver.page.trace number token)
    : (receiver.react posts event).Grounded crypto parseUrl := by
  have hrecorded : Trace.Justified (Trace.Leads crypto parseUrl) (recorded receiver.page event) := by
    apply h.justified.append
    intro entry hentry
    rw [List.mem_singleton.mp hentry]
    rfl
  have hstep : receiver.page.trace ⊆ (Reader.step receiver.page event).trace
      ∧ Trace.Justified (Trace.Leads crypto parseUrl) (Reader.step receiver.page event).trace := by
    cases advances_step receiver.page event with
    | quiet grows =>
      rcases grows with ⟨more, htrace, hmore⟩
      rw [htrace]
      exact ⟨fun entry hentry => by simp [recorded, hentry], hrecorded.append hmore⟩
    | opened number ticket readToken settles waiting trace =>
      rw [trace]
      refine ⟨fun entry hentry => by simp [recorded, hentry], hrecorded.consume ?_ _⟩
      have hprepares := hevent number ticket readToken settles waiting
      subst settles
      exact ⟨receiver.page.trace, number, rfl, hprepares⟩
  exact {
    backend := (h.backend.mono hstep.1).foldl_replay fun entry hentry => List.mem_of_mem_drop hentry
    justified := hstep.2 }

theorem grounded_step (h : receiver.Grounded crypto parseUrl) (event : Event)
    : (receiver.step crypto unicode parseUrl posts event).Grounded crypto parseUrl := by
  unfold step
  cases event with
  | reader event =>
    dsimp only
    split
    . exact h
    . next hguard =>
      simp only [Bool.or_eq_true, not_or, Bool.not_eq_true] at hguard
      apply grounded_react h
      intro number ticket token hevent hwaiting
      have hforeign := hguard.2
      unfold isForeign at hforeign
      rw [hevent] at hforeign
      dsimp only at hforeign
      rw [hwaiting] at hforeign
      cases hforeign
  | resume =>
    dsimp only
    split
    . exact h
    . next number result settled hsettled =>
      have htaken : Grounded crypto parseUrl { receiver with backend := { receiver.backend with settled } } := {
        h with
        backend := { h.backend with
          settled := fun other token hmem => h.backend.settled other token (by simp [hsettled, hmem]) } }
      apply grounded_react htaken
      intro other ticket token hevent _
      cases hevent
      exact h.backend.settled number token (by simp [hsettled])
  | receive worker isSupported => exact { h with backend := h.backend.receive worker isSupported }
  | finish worker => exact { h with backend := h.backend.finish worker }
  | deliver worker =>
    dsimp only
    split
    . exact h
    . exact { h with backend := h.backend.deliver worker }
  | error worker =>
    dsimp only
    split
    . exact h
    . exact { h with backend := h.backend.fail _ }
  | messageerror worker =>
    dsimp only
    split
    . exact h
    . exact { h with backend := h.backend.fail _ }

-- Every consuming request of every run comes from a preparation that has succeeded.
theorem leads_run (now : Nat) (events : List Event)
    : Trace.Justified (Trace.Leads crypto parseUrl)
        (run crypto unicode parseUrl posts (mount now) events).page.trace := by
  have hrun : ∀ receiver : Receiver, receiver.Grounded crypto parseUrl
      → (run crypto unicode parseUrl posts receiver events).Grounded crypto parseUrl := by
    induction events with
    | nil => exact fun _ h => h
    | cons event events ih => exact fun _ h => ih _ (grounded_step h event)
  exact (hrun _ (grounded_mount now)).justified

end

end Receiver

end Web
