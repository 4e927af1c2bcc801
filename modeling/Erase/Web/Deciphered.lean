import Erase.Protocol.Authenticity
import Erase.Web.Delivered
import Erase.Web.Provenance
import Erase.Web.Reading

/-!
What a reader shows in a run with its workers: the content of a packet that the service has delivered, under
the keys of a link, a header and a passphrase that it has handed to a worker.
-/

open Protocol

namespace Web

namespace Trace

def Settles (trace : Trace) (number : Nat) (result : Result) : Prop :=
  ∃ generation, (generation, .event (.settle number result)) ∈ trace

-- The service has delivered the packet.
def Fetched (trace : Trace) (packet : Bytes) : Prop :=
  ∃ (number : Nat) (id token : JsString),
    trace.Asks number (.openNote id token) ∧ trace.Settles number (.packet packet)

section

variable (crypto : Crypto) (unicode : Shared.Unicode) (parseUrl : JsString → Option Shared.Url)

-- The keys come from calls that have handed over a link, a header and a passphrase.
def Keys (trace : Trace) (prepared : Shared.PreparedOpen) : Prop :=
  ∃ (first second third : Nat) (url text passphrase : JsString) (link : Shared.ShareLink),
    trace.Asks first (.load url)
      ∧ Shared.parseShareLink parseUrl url = .ok link
      ∧ trace.Asks second (.inspect text)
      ∧ trace.Asks third (.prepare passphrase)
      ∧ Shared.prepareOpen crypto text link.secret link.id passphrase = .ok prepared

def Deciphers (trace : Trace) (packet : Bytes) (content : Shared.ContentInput) : Prop :=
  ∃ prepared, trace.Keys crypto parseUrl prepared
    ∧ Shared.decrypt crypto unicode packet prepared = .ok content

-- The answer to a call that deciphers a packet.
def Answers (trace : Trace) (number : Nat) (content : Shared.ContentInput) : Prop :=
  ∃ packet, trace.Asks number (.decrypt packet) ∧ trace.Deciphers crypto unicode parseUrl packet content

end

section

variable {crypto : Crypto} {unicode : Shared.Unicode} {parseUrl : JsString → Option Shared.Url}
variable {trace trace' : Trace} {number : Nat} {packet : Bytes} {content : Shared.ContentInput}

theorem Settles.mono {result : Result} (h : trace.Settles number result) (htrace : trace ⊆ trace')
    : trace'.Settles number result := by
  rcases h with ⟨generation, hmem⟩
  exact ⟨generation, htrace hmem⟩

theorem Fetched.mono (h : trace.Fetched packet) (htrace : trace ⊆ trace') : trace'.Fetched packet := by
  rcases h with ⟨number, id, token, hasks, hsettles⟩
  exact ⟨number, id, token, hasks.mono htrace, hsettles.mono htrace⟩

theorem Keys.mono {prepared : Shared.PreparedOpen} (h : trace.Keys crypto parseUrl prepared)
    (htrace : trace ⊆ trace') : trace'.Keys crypto parseUrl prepared := by
  rcases h with ⟨first, second, third, url, text, passphrase, link, hload, hlink, hinspect, hprepare, hprepared⟩
  exact ⟨first, second, third, url, text, passphrase, link, hload.mono htrace, hlink, hinspect.mono htrace,
    hprepare.mono htrace, hprepared⟩

theorem Deciphers.mono (h : trace.Deciphers crypto unicode parseUrl packet content) (htrace : trace ⊆ trace')
    : trace'.Deciphers crypto unicode parseUrl packet content := by
  rcases h with ⟨prepared, hkeys, hdecrypt⟩
  exact ⟨prepared, hkeys.mono htrace, hdecrypt⟩

theorem Answers.mono (h : trace.Answers crypto unicode parseUrl number content) (htrace : trace ⊆ trace')
    : trace'.Answers crypto unicode parseUrl number content := by
  rcases h with ⟨packet, hasks, hdeciphers⟩
  exact ⟨packet, hasks.mono htrace, hdeciphers.mono htrace⟩

end

end Trace

namespace Reader

-- What stands behind the calls of a reader and behind the content that it shows.
structure Accounted (crypto : Crypto) (unicode : Shared.Unicode) (parseUrl : JsString → Option Shared.Url)
    (page : ReaderPage) : Prop where
  fetching : ∀ {number ticket}, page.host.promises.waiting number = some (.openPacket ticket)
    → ∃ id token, Trace.Asks page.trace number (.openNote id token)
  fetched : ∀ {number packet}, Trace.Asks page.trace number (.decrypt packet) → Trace.Fetched page.trace packet
  shown : ∀ {content}, page.host.state.content = some content
    → ∃ number, Trace.Answers crypto unicode parseUrl page.trace number content

namespace Accounted

section

variable {crypto : Crypto} {unicode : Shared.Unicode} {parseUrl : JsString → Option Shared.Url}
variable {start page : ReaderPage} {more : Trace}

theorem mount (now : Nat) : Accounted crypto unicode parseUrl (mount now) where
  fetching h := by cases h
  fetched h := by
    rcases h with ⟨generation, hmem⟩
    cases hmem
  shown h := by cases h

-- Entries that are no calls change nothing.
theorem append (h : Accounted crypto unicode parseUrl start) (htrace : page.trace = start.trace ++ more)
    (hmore : ∀ entry ∈ more, ∀ number request, entry.2 ≠ .call number request)
    (hwaiting : ∀ number continuation, page.host.promises.waiting number = some continuation
      → start.host.promises.waiting number = some continuation)
    (hshown : ∀ {content}, page.host.state.content = some content
      → ∃ number, Trace.Answers crypto unicode parseUrl start.trace number content)
    : Accounted crypto unicode parseUrl page := by
  have hsubset : start.trace ⊆ page.trace := by
    rw [htrace]
    exact List.subset_append_left _ _
  refine ⟨?_, ?_, ?_⟩
  . intro number ticket h'
    rcases h.fetching (hwaiting _ _ h') with ⟨id, token, hasks⟩
    exact ⟨id, token, hasks.mono hsubset⟩
  . intro number packet h'
    rcases h' with ⟨generation, hmem⟩
    rw [htrace] at hmem
    rcases List.mem_append.mp hmem with hmem | hmem
    . exact (h.fetched ⟨generation, hmem⟩).mono hsubset
    . exact absurd rfl (hmore _ hmem _ _)
  . intro content h'
    rcases hshown h' with ⟨number, hanswers⟩
    exact ⟨number, hanswers.mono hsubset⟩

theorem record (h : Accounted crypto unicode parseUrl page) (event : Event)
    : Accounted crypto unicode parseUrl (page.emit (.event event)) := by
  have htrace : (page.emit (.event event)).trace
      = page.trace ++ [(page.session.generation, .event event)] := rfl
  apply h.append htrace
  . simp
  . exact fun _ _ h' => h'
  . exact h.shown

theorem rests (h : Accounted crypto unicode parseUrl start) (hrests : Rests start page)
    : Accounted crypto unicode parseUrl page := by
  rcases hrests.trace with ⟨more, htrace, hmore⟩
  apply h.append htrace
  . intro entry hentry number request hcall
    have hrecord := hmore entry hentry
    rw [hcall] at hrecord
    cases hrecord
  . exact hrests.waiting
  . intro content hcontent
    rcases hrests.content with hsame | hnone
    . exact h.shown (hsame ▸ hcontent)
    . rw [hnone] at hcontent
      cases hcontent

theorem await (h : Accounted crypto unicode parseUrl page) {request : Request} {continuation : Continuation}
    (hfetching : ∀ {ticket}, continuation = .openPacket ticket → ∃ id token, request = .openNote id token)
    (hfetched : ∀ {packet}, request = .decrypt packet → Trace.Fetched page.trace packet)
    : Accounted crypto unicode parseUrl (await request continuation page) := by
  have htrace : (Reader.await request continuation page).trace
      = page.trace ++ [(page.session.generation, .call page.host.promises.next request)] := rfl
  have hsubset : page.trace ⊆ (Reader.await request continuation page).trace :=
    List.subset_append_left _ _
  refine ⟨?_, ?_, ?_⟩
  . intro number ticket hwaiting
    rcases Promises.waiting_suspend.mp hwaiting with ⟨rfl, hsame⟩ | ⟨-, hwaiting⟩
    . rcases hfetching hsame.symm with ⟨id, token, rfl⟩
      exact ⟨id, token, page.session.generation, by simp [htrace]⟩
    . rcases h.fetching hwaiting with ⟨id, token, hasks⟩
      exact ⟨id, token, hasks.mono hsubset⟩
  . intro number packet h'
    rcases h' with ⟨generation, hmem⟩
    rw [htrace] at hmem
    rcases List.mem_append.mp hmem with hmem | hmem
    . exact (h.fetched ⟨generation, hmem⟩).mono hsubset
    . cases List.mem_singleton.mp hmem
      exact (hfetched rfl).mono hsubset
  . intro content h'
    rcases h.shown h' with ⟨number, hanswers⟩
    exact ⟨number, hanswers.mono hsubset⟩

theorem begins (h : Accounted crypto unicode parseUrl start) (hcalls : Calls Begins start page)
    : Accounted crypto unicode parseUrl page := by
  cases hcalls with
  | rests hrests => exact h.rests hrests
  | asks hrests hbegins hpage =>
    subst hpage
    apply (h.rests hrests).await
    . intro ticket hsame
      subst hsame
      cases hbegins
    . intro packet hsame
      subst hsame
      cases hbegins

theorem follows (h : Accounted crypto unicode parseUrl start) {number : Nat} {continuation : Continuation}
    {result : Result}
    (hwaiting : ∀ {ticket}, continuation = .openPacket ticket
      → ∃ id token, Trace.Asks start.trace number (.openNote id token))
    (hsettles : Trace.Settles start.trace number result)
    (hcalls : Calls (Follows continuation result) start page)
    : Accounted crypto unicode parseUrl page := by
  cases hcalls with
  | rests hrests => exact h.rests hrests
  | asks hrests hfollows hpage =>
    subst hpage
    rcases hrests.trace with ⟨more, htrace, -⟩
    apply (h.rests hrests).await
    . intro ticket hsame
      subst hsame
      cases hfollows with
      | openNote ticket id readToken => exact ⟨id, readToken, rfl⟩
    . intro packet hsame
      subst hsame
      cases hfollows with
      | decrypt ticket packet =>
        rcases hwaiting rfl with ⟨id, token, hasks⟩
        have hfetched : Trace.Fetched start.trace packet := ⟨number, id, token, hasks, hsettles⟩
        rw [htrace]
        exact hfetched.mono (List.subset_append_left _ _)

theorem opens (h : Accounted crypto unicode parseUrl start) {number : Nat} {content : Shared.ContentInput}
    (hanswers : Trace.Answers crypto unicode parseUrl start.trace number content)
    (hopens : Opens start content page) : Accounted crypto unicode parseUrl page := by
  rcases hopens with ⟨before, shown, hrests, htrace, hpromises, hcontent, hshown⟩
  rcases hrests.trace with ⟨more, hmore, -⟩
  have hnone : shown.trace = before.trace ++ [] := by rw [htrace, List.append_nil]
  have haccounted : Accounted crypto unicode parseUrl shown := by
    apply (h.rests hrests).append hnone
    . simp
    . rw [hpromises]
      exact fun _ _ h' => h'
    . intro content' hcontent'
      rw [hcontent] at hcontent'
      cases hcontent'
      rw [hmore]
      exact ⟨number, hanswers.mono (List.subset_append_left _ _)⟩
  exact haccounted.rests hshown

theorem step (h : Accounted crypto unicode parseUrl page) {event : Event}
    (hanswers : ∀ number ticket content, event = .settle number (.content content)
      → page.host.promises.waiting number = some (.openContent ticket)
      → Trace.Answers crypto unicode parseUrl page.trace number content)
    : Accounted crypto unicode parseUrl (step page event) := by
  have hrecorded := h.record event
  have hsubset : page.trace ⊆ (page.emit (.event event)).trace := List.subset_append_left _ _
  cases proceeds_step page event with
  | begins hcalls => exact hrecorded.begins hcalls
  | @follows number continuation result hevent hwaiting hcalls =>
    apply hrecorded.follows _ _ hcalls
    . exact number
    . intro ticket hsame
      subst hsame
      rcases h.fetching hwaiting with ⟨id, token, hasks⟩
      exact ⟨id, token, hasks.mono hsubset⟩
    . exact ⟨page.session.generation, by simp [Page.emit, hevent]⟩
  | @opens number ticket content hevent hwaiting hopens =>
    exact hrecorded.opens ((hanswers number ticket content hevent hwaiting).mono hsubset) hopens

end

end Accounted

end Reader

section

variable (crypto : Crypto) (unicode : Shared.Unicode) (parseUrl : JsString → Option Shared.Url)

-- The keys that a thread holds, and the content that it has posted.
structure Thread.Keyed (trace : Trace) (pending : List (Nat × (Nat × Request))) (thread : Thread) : Prop where
  prepared : ∀ {prepared}, thread.prepared = some prepared → trace.Keys crypto parseUrl prepared
  outbox : ∀ {id content}, (id, .ok (.content content)) ∈ thread.outbox
    → ∃ packet, Dispatched trace pending id (.decrypt packet)
      ∧ trace.Deciphers crypto unicode parseUrl packet content

structure Backend.Keyed (trace : Trace) (backend : Reader.Backend) : Prop where
  grounded : backend.Grounded crypto parseUrl trace
  threads : ∀ worker, (backend.threads worker).Keyed crypto unicode parseUrl trace backend.crypto.pending
  settled : ∀ number content, (number, .content content) ∈ backend.settled
    → trace.Answers crypto unicode parseUrl number content

end

namespace Thread.Keyed

section

variable {crypto : Crypto} {unicode : Shared.Unicode} {parseUrl : JsString → Option Shared.Url}
variable {trace trace' : Trace} {pending pending' : List (Nat × (Nat × Request))}
variable {thread : Thread} {id : Nat} {isSupported : Bool}

theorem new : Thread.new.Keyed crypto unicode parseUrl trace pending where
  prepared h := by cases h
  outbox h := by cases h

theorem mono (h : thread.Keyed crypto unicode parseUrl trace pending) (htrace : trace ⊆ trace')
    (hpending : ∀ id ∈ thread.ids, ∀ promise, (id, promise) ∈ pending' → (id, promise) ∈ pending)
    : thread.Keyed crypto unicode parseUrl trace' pending' where
  prepared hprepared := (h.prepared hprepared).mono htrace
  outbox hmem := by
    rcases h.outbox hmem with ⟨packet, hdispatched, hdeciphers⟩
    refine ⟨packet, hdispatched.mono htrace (hpending _ ?_), hdeciphers.mono htrace⟩
    unfold ids
    simp only [List.mem_append, List.mem_map]
    exact .inr ⟨_, hmem, rfl⟩

theorem post (h : thread.Keyed crypto unicode parseUrl trace pending) {result : Except String Result}
    (hresult : ∀ content, result = .ok (.content content)
      → ∃ packet, Dispatched trace pending id (.decrypt packet)
        ∧ trace.Deciphers crypto unicode parseUrl packet content)
    : (thread.post id result).Keyed crypto unicode parseUrl trace pending := {
  h with
  outbox := fun hmem => by
    unfold Thread.post at hmem
    rcases List.mem_append.mp hmem with hmem | hmem
    . exact h.outbox hmem
    . cases List.mem_singleton.mp hmem
      exact hresult _ rfl }

theorem postError (h : thread.Keyed crypto unicode parseUrl trace pending) (code : String)
    : (thread.post id (.error code)).Keyed crypto unicode parseUrl trace pending :=
  h.post fun content hcontent => by cases hcontent

theorem onmessage (h : thread.Keyed crypto unicode parseUrl trace pending) (request : Request)
    : (thread.onmessage parseUrl isSupported id request).Keyed crypto unicode parseUrl trace pending := by
  unfold Thread.onmessage
  split
  . exact h.postError _
  split
  . exact h.postError _
  . split
    . split
      . exact h.postError _
      . exact { h with }
    . next text =>
      have hkept : Keyed crypto unicode parseUrl trace pending { thread with headerBase64 := text } :=
        { h with }
      dsimp only
      split
      . exact hkept.postError _
      . split
        . exact hkept.post fun content hcontent => by cases hcontent
        . exact hkept.postError _
    . split
      . exact h.postError _
      . exact { h with prepared := fun hnone => by cases hnone }
    . split
      . exact h.postError _
      . exact { h with }
    . exact h.postError _

theorem receive (h : thread.Keyed crypto unicode parseUrl trace pending)
    : (thread.receive parseUrl isSupported).Keyed crypto unicode parseUrl trace pending := by
  unfold Thread.receive
  split
  . exact h
  . next id request inbox _ =>
    have htaken : Keyed crypto unicode parseUrl trace pending { thread with inbox } := { h with }
    exact htaken.onmessage request

-- The call that a handler answers is the one that its message was dispatched for.
theorem finish (h : thread.Keyed crypto unicode parseUrl trace pending)
    (hgrounded : thread.Grounded crypto parseUrl trace pending)
    : (thread.finish crypto unicode).Keyed crypto unicode parseUrl trace pending := by
  unfold Thread.finish
  split
  . exact h
  . next id request hrunning =>
    have hidle : Keyed crypto unicode parseUrl trace pending { thread with running := none } := { h with }
    dsimp only
    split
    . unfold finishLoad
      split
      . exact hidle
      . apply hidle.post
        intro content hcontent
        unfold answer at hcontent
        split at hcontent
        . cases hcontent
        . cases hcontent
    . next passphrase =>
      unfold finishPrepare
      split
      . exact hidle
      . next link hlink =>
        split
        . exact hidle.postError _
        . next prepared hprepared =>
          rcases hgrounded.link link hlink with ⟨first, url, hload, hparse⟩
          rcases hgrounded.header (hgrounded.preparing id passphrase hrunning) with ⟨second, hinspect⟩
          rcases (hgrounded.running id _ hrunning).1 with ⟨third, hprepare⟩
          have hkept : Keyed crypto unicode parseUrl trace pending
              { thread with running := none, prepared := some prepared } := {
            hidle with
            prepared := fun hsome => by
              cases hsome
              exact ⟨first, second, third, url, _, passphrase, link, hload, hparse, hinspect, hprepare,
                hprepared⟩ }
          exact hkept.post fun content hcontent => by cases hcontent
    . next packet =>
      unfold finishDecrypt
      split
      . exact hidle
      . next prepared hprepared =>
        have hcleared : Keyed crypto unicode parseUrl trace pending
            { thread with running := none, prepared := none, link := none, headerBase64 := [] } := {
          hidle with
          prepared := fun hnone => by cases hnone }
        apply hcleared.post
        intro content hcontent
        unfold answer at hcontent
        split at hcontent
        . next value hvalue =>
          cases hcontent
          exact ⟨packet, hgrounded.running id _ hrunning, prepared, h.prepared hprepared, hvalue⟩
        . cases hcontent
    . exact hidle

end

end Thread.Keyed

namespace Backend.Keyed

section

variable {crypto : Crypto} {unicode : Shared.Unicode} {parseUrl : JsString → Option Shared.Url}
variable {posts : Nat → Bool} {trace trace' : Trace} {backend : Reader.Backend}

theorem start : Keyed crypto unicode parseUrl trace Backend.start where
  grounded := .start
  threads _ := .new
  settled _ _ h := by cases h

theorem mono (h : backend.Keyed crypto unicode parseUrl trace) (htrace : trace ⊆ trace')
    : backend.Keyed crypto unicode parseUrl trace' where
  grounded := h.grounded.mono htrace
  threads worker := (h.threads worker).mono htrace fun _ _ _ hmem => hmem
  settled number content hmem := (h.settled number content hmem).mono htrace

theorem update (h : backend.Keyed crypto unicode parseUrl trace) {worker : Nat} {f : Thread → Thread}
    (hgrounded : (backend.update worker f).Grounded crypto parseUrl trace)
    (hthread : (f (backend.threads worker)).Keyed crypto unicode parseUrl trace backend.crypto.pending)
    : (backend.update worker f).Keyed crypto unicode parseUrl trace where
  grounded := hgrounded
  threads other := by
    rw [threads_update]
    split
    . next hother =>
      rw [hother]
      exact hthread
    . exact h.threads other
  settled := h.settled

theorem receive (h : backend.Keyed crypto unicode parseUrl trace) (worker : Nat) (isSupported : Bool)
    : (backend.update worker (Thread.receive parseUrl isSupported)).Keyed crypto unicode parseUrl trace :=
  h.update (h.grounded.receive worker isSupported) (h.threads worker).receive

theorem finish (h : backend.Keyed crypto unicode parseUrl trace) (worker : Nat)
    : (backend.update worker (Thread.finish crypto unicode)).Keyed crypto unicode parseUrl trace :=
  h.update (h.grounded.finish worker) ((h.threads worker).finish (h.grounded.threads worker))

theorem withCrypto (h : backend.Keyed crypto unicode parseUrl trace) {next : CryptoWorker (Nat × Request)}
    {settled : List (Nat × Result)}
    (hgrounded : (backend.withCrypto next settled).Grounded crypto parseUrl trace)
    (hpending : next.pending ⊆ backend.crypto.pending)
    (hsettled : ∀ number content, (number, .content content) ∈ settled
      → trace.Answers crypto unicode parseUrl number content)
    : (backend.withCrypto next settled).Keyed crypto unicode parseUrl trace where
  grounded := hgrounded
  threads worker := (h.threads worker).mono (List.Subset.refl _) fun _ _ _ hmem => hpending hmem
  settled := hsettled

theorem settled_append (h : backend.Keyed crypto unicode parseUrl trace) {more : List (Nat × Result)}
    (hmore : ∀ number content, (number, .content content) ∈ more
      → trace.Answers crypto unicode parseUrl number content)
    : ∀ number content, (number, .content content) ∈ backend.settled ++ more
        → trace.Answers crypto unicode parseUrl number content := by
  intro number content hmem
  rcases List.mem_append.mp hmem with hmem | hmem
  . exact h.settled number content hmem
  . exact hmore number content hmem

theorem fail (h : backend.Keyed crypto unicode parseUrl trace) (error : Failure)
    : (backend.apply posts (backend.crypto.fail error)).Keyed crypto unicode parseUrl trace := by
  have hgrounded : (backend.apply posts (backend.crypto.fail error)).Grounded crypto parseUrl trace :=
    h.grounded.fail error
  rw [apply_fail] at hgrounded ⊢
  apply h.withCrypto hgrounded (List.nil_subset _)
  apply h.settled_append
  intro number content hmem
  cases (mem_rejections hmem).1

theorem run (h : backend.Keyed crypto unicode parseUrl trace) {number : Nat} {request : Request}
    (hasks : trace.Asks number request)
    : (backend.apply posts (backend.crypto.run (number, request) (posts number))).Keyed crypto unicode parseUrl
        trace := by
  have hgrounded : (backend.apply posts (backend.crypto.run (number, request) (posts number))).Grounded crypto
      parseUrl trace := h.grounded.run hasks
  cases hposts : posts number with
  | false =>
    rw [← hposts]
    rw [apply_refused request hposts] at hgrounded ⊢
    apply h.withCrypto hgrounded
    . exact refused_subset _ _
    . apply h.settled_append
      simp
  | true =>
    rw [← hposts]
    rw [apply_posted request hposts] at hgrounded ⊢
    have hthreads : ∀ worker, (backend.threads worker).Keyed crypto unicode parseUrl trace
        (backend.noted (number, request)).pending :=
      fun worker => (h.threads worker).mono (List.Subset.refl trace)
        fun id hid promise hmem => mem_of_mem_noted (h.grounded.sequence worker id hid) hmem
    refine ⟨hgrounded, ?_, h.settled⟩
    intro worker
    rw [threads_withCrypto, threads_update]
    split
    . exact { hthreads worker with }
    . exact hthreads worker

theorem replay (h : backend.Keyed crypto unicode parseUrl trace) {entry : Nat × Entry} (hentry : entry ∈ trace)
    : (backend.replay posts entry).Keyed crypto unicode parseUrl trace := by
  rcases entry with ⟨generation, entry⟩
  cases entry with
  | dispose => exact h.fail .abortError
  | call number request =>
    cases hrequest : request.isCrypto with
    | false =>
      rw [replay_none posts backend (order_foreign hrequest)]
      exact h
    | true =>
      rw [replay_call posts backend (order_call hrequest)]
      exact h.run ⟨generation, hentry⟩
  | _ => exact h

theorem foldl_replay (h : backend.Keyed crypto unicode parseUrl trace) {entries : Trace}
    (hentries : entries ⊆ trace)
    : (entries.foldl (Backend.replay posts) backend).Keyed crypto unicode parseUrl trace := by
  apply List.foldlRecOn entries _ h
  exact fun _ hbefore entry hentry => hbefore.replay (hentries hentry)

theorem deliver (h : backend.Keyed crypto unicode parseUrl trace) (worker : Nat)
    : (backend.deliver posts worker).Keyed crypto unicode parseUrl trace := by
  have hgrounded : (backend.deliver posts worker).Grounded crypto parseUrl trace := h.grounded.deliver worker
  cases houtbox : (backend.threads worker).outbox with
  | nil =>
    rw [deliver_nil posts worker backend houtbox]
    exact h
  | cons answer outbox =>
    rcases answer with ⟨id, result⟩
    have htaken : (backend.update worker fun thread => { thread with outbox }).Keyed crypto unicode parseUrl
        trace := by
      apply h.update (h.grounded.take houtbox)
      exact { h.threads worker with
        outbox := fun hmem => (h.threads worker).outbox (by simp [houtbox, hmem]) }
    cases hlookup : backend.crypto.pending.lookup id with
    | none =>
      rw [deliver_unknown posts worker backend houtbox hlookup]
      exact htaken
    | some promise =>
      rcases promise with ⟨number, request⟩
      have hmem := List.mem_of_lookup hlookup
      have hsettled : ∀ other content, (other, .content content)
          ∈ [(number, resultOf Thread (CryptoWorker.reply result))]
            → trace.Answers crypto unicode parseUrl other content := by
        intro other content hother
        have hsame := List.mem_singleton.mp hother
        cases result with
        | error code => cases hsame
        | ok result =>
          cases hsame
          have hposted : (id, .ok (.content content)) ∈ (backend.threads worker).outbox := by
            rw [houtbox]
            exact List.mem_cons_self
          rcases (h.threads worker).outbox hposted with ⟨packet, hdispatched, hdeciphers⟩
          have hrequest := hdispatched.2 number request hmem
          subst hrequest
          exact ⟨packet, h.grounded.pending id number _ hmem, hdeciphers⟩
      rw [deliver_settled posts worker backend houtbox hlookup] at hgrounded ⊢
      exact htaken.withCrypto hgrounded (fun entry hentry => List.mem_of_mem_filter hentry)
        (htaken.settled_append hsettled)

end

end Backend.Keyed

theorem Reader.trace_subset_step (page : ReaderPage) (event : Event)
    : page.trace ⊆ (step page event).trace := by
  have hrecorded : page.trace ⊆ recorded page event := List.subset_append_left _ _
  cases advances_step page event with
  | quiet grows =>
    rcases grows with ⟨more, htrace, -⟩
    rw [htrace]
    exact List.Subset.trans hrecorded (List.subset_append_left _ _)
  | opened _ _ _ _ _ htrace =>
    rw [htrace]
    exact List.Subset.trans hrecorded (List.subset_append_left _ _)

namespace Receiver

section

variable (crypto : Crypto) (unicode : Shared.Unicode) (parseUrl : JsString → Option Shared.Url)

structure Keyed (receiver : Receiver) : Prop where
  page : Reader.Accounted crypto unicode parseUrl receiver.page
  backend : receiver.backend.Keyed crypto unicode parseUrl receiver.page.trace

end

section

variable {crypto : Crypto} {unicode : Shared.Unicode} {parseUrl : JsString → Option Shared.Url}
variable {posts : Nat → Bool} {receiver : Receiver}

theorem keyed_mount (now : Nat) : (mount now).Keyed crypto unicode parseUrl where
  page := .mount now
  backend := .start

theorem keyed_react (h : receiver.Keyed crypto unicode parseUrl) {event : Web.Event}
    (hevent : ∀ number ticket content, event = .settle number (.content content)
      → receiver.page.host.promises.waiting number = some (.openContent ticket)
      → Trace.Answers crypto unicode parseUrl receiver.page.trace number content)
    : (receiver.react posts event).Keyed crypto unicode parseUrl where
  page := h.page.step hevent
  backend := by
    apply (h.backend.mono (Reader.trace_subset_step receiver.page event)).foldl_replay
    exact fun entry hentry => List.mem_of_mem_drop hentry

theorem keyed_step (h : receiver.Keyed crypto unicode parseUrl) (event : Event)
    : (receiver.step crypto unicode parseUrl posts event).Keyed crypto unicode parseUrl := by
  unfold step
  cases event with
  | reader event =>
    dsimp only
    split
    . exact h
    . next hguard =>
      simp only [Bool.or_eq_true, not_or, Bool.not_eq_true] at hguard
      apply keyed_react h
      intro number ticket content hevent hwaiting
      -- The workers alone settle a call that deciphers.
      have hforeign := hguard.2
      unfold isForeign at hforeign
      rw [hevent] at hforeign
      dsimp only at hforeign
      rw [hwaiting] at hforeign
      cases hforeign
  | resume =>
    dsimp only
    split
    . exact h
    . next number result settled hsettled =>
      have htaken : Keyed crypto unicode parseUrl
          { receiver with backend := { receiver.backend with settled } } := {
        h with
        backend := {
          grounded := { h.backend.grounded with
            settled := fun other token hmem =>
              h.backend.grounded.settled other token (by simp [hsettled, hmem]) }
          threads := h.backend.threads
          settled := fun other content hmem => h.backend.settled other content (by simp [hsettled, hmem]) } }
      apply keyed_react htaken
      intro other ticket content hevent _
      cases hevent
      exact h.backend.settled number content (by simp [hsettled])
  | receive worker isSupported => exact { h with backend := h.backend.receive worker isSupported }
  | finish worker => exact { h with backend := h.backend.finish worker }
  | deliver worker =>
    dsimp only
    split
    . exact h
    . exact { h with backend := h.backend.deliver worker }
  | error worker =>
    dsimp only
    split
    . exact h
    . exact { h with backend := h.backend.fail _ }
  | messageerror worker =>
    dsimp only
    split
    . exact h
    . exact { h with backend := h.backend.fail _ }

theorem keyed_run (h : receiver.Keyed crypto unicode parseUrl) (events : List Event)
    : (run crypto unicode parseUrl posts receiver events).Keyed crypto unicode parseUrl := by
  induction events generalizing receiver with
  | nil => exact h
  | cons event events ih => exact ih (keyed_step h event)

/--
Whatever a user, the workers and the service do, a reader shows nothing but the content of a packet that the
service has delivered. Its header is the one that a worker has inspected, and it was opened with the link that
was loaded and the passphrase that was entered.
-/
theorem shows_deciphered (hcrypto : crypto.Lawful) (now : Nat) (events : List Event)
    {content : Shared.ContentInput}
    (hcontent : (run crypto unicode parseUrl posts (mount now) events).page.host.state.content = some content)
    : let trace := (run crypto unicode parseUrl posts (mount now) events).page.trace
      ∃ (packet : Bytes) (parsed : Shared.ParsedPacket) (first second third : Nat) (url passphrase : JsString)
          (link : Shared.ShareLink) (prepared : Shared.PreparedOpen),
        Trace.Fetched trace packet
          ∧ Shared.parsePacket packet = .ok parsed
          ∧ Trace.Asks trace first (.load url)
          ∧ Shared.parseShareLink parseUrl url = .ok link
          ∧ Trace.Asks trace second (.inspect (Shared.toBase64Url parsed.headerBytes))
          ∧ Trace.Asks trace third (.prepare passphrase)
          ∧ Shared.prepareOpen crypto (Shared.toBase64Url parsed.headerBytes) link.secret link.id passphrase
            = .ok prepared
          ∧ Shared.decrypt crypto unicode packet prepared = .ok content := by
  intro trace
  have hkeyed : (run crypto unicode parseUrl posts (mount now) events).Keyed crypto unicode parseUrl :=
    keyed_run (keyed_mount now) events
  rcases hkeyed.page.shown hcontent with ⟨number, packet, hasks, prepared, hkeys, hdecrypt⟩
  rcases hkeys
    with ⟨first, second, third, url, text, passphrase, link, hload, hlink, hinspect, hprepare, hprepared⟩
  rcases decrypt_inv hdecrypt with ⟨parsed, _, _, hparsed, hheader, -⟩
  have htext : text = Shared.toBase64Url parsed.headerBytes := by
    rcases prepareOpen_inv hcrypto hprepared with ⟨value, _, htext, -, -, -, -, -, hsame⟩
    rw [hheader, hsame]
    exact htext
  subst htext
  exact ⟨packet, parsed, first, second, third, url, passphrase, link, prepared, hkeyed.page.fetched hasks,
    hparsed, hload, hlink, hinspect, hprepare, hprepared, hdecrypt⟩

end

theorem shows_deciphered_exampleInput
    : ∃ (events : List Event) (packet : Bytes) (prepared : Shared.PreparedOpen),
      let page := (run Crypto.plain Shared.Unicode.ascii (fun _ => some exampleUrl) (fun _ => true) (mount 0)
        events).page
      page.host.state.content = some (Shared.normalized Shared.Unicode.ascii Shared.exampleInput)
        ∧ Trace.Fetched page.trace packet
        ∧ Shared.decrypt Crypto.plain Shared.Unicode.ascii packet prepared
          = .ok (Shared.normalized Shared.Unicode.ascii Shared.exampleInput) := by
  rcases exists_exampleSending with ⟨sending, upload, hinput, hhash, hupload, hviews⟩
  rcases Cli.exists_opens Crypto.plain_lawful Shared.Unicode.ascii_lawful sending with ⟨_, _, _, hnote⟩
  rcases hnote.link with ⟨id, secret, hid, hsecret⟩
  have hopens : Opens Crypto.plain Shared.Unicode.ascii ⟨sending.note.id, sending.note.secret⟩ (describe upload)
      sending.passphrase sending.note.packet _ :=
    opens_sending Crypto.plain_lawful Shared.Unicode.ascii_lawful sending hupload rfl hviews
  have hlink : Shared.parseShareLink (fun _ => some exampleUrl) [35]
      = .ok ⟨sending.note.id, sending.note.secret⟩ := by
    rw [hid, hsecret] at hhash ⊢
    exact Shared.parseShareLink_eq_ok rfl (by decide) hhash
  have hcontent := run_noteEvents hlink hopens
  rw [hinput] at hcontent
  rcases shows_deciphered Crypto.plain_lawful 0 _ hcontent
    with ⟨packet, _, _, _, _, _, _, _, prepared, hfetched, -, -, -, -, -, -, hdecrypt⟩
  exact ⟨_, packet, prepared, hcontent, hfetched, hdecrypt⟩

end Receiver

end Web
