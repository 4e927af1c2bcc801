import Erase.Web.Drafts
import Erase.Web.Inactivity
import Erase.Web.Sender

/-!
A draft that its workers seal and that an honest service takes.
-/

namespace Web

namespace Composer

section

variable {page : ComposerPage} {ticket : Ticket}

theorem submit_eq {limits : PublicConfig} (hbusy : page.host.state.busy = false)
    (hconfigured : page.host.state.configured = true) (hconfig : page.host.state.config = some limits)
    (hallowed : isRefused page.host.state limits = false) (hlive : page.Live)
    : ∃ started : ComposerPage,
      submit page = await
          (.seal page.host.state.text (submittedFiles page.host.state) page.host.state.ttl page.host.state.views
            page.host.state.passphrase)
          (.submitSealed ⟨page.session.generation, page.session.controller⟩) started
        ∧ started.trace = page.trace
        ∧ started.host.promises = page.host.promises
        ∧ started.host.origin = page.host.origin
        ∧ started.session.generation = page.session.generation
        ∧ started.session.controller = page.session.controller
        ∧ started.Live := by
  unfold submit
  rw [if_neg (by simp [hbusy, hconfigured]), Page.expire_of_live hlive]
  dsimp only
  rw [hconfig]
  dsimp only
  rw [if_neg (by simp [hallowed]), Page.ticket_of_live (Page.live_touch _ _), Page.touch_of_hasData]
  . refine ⟨_, rfl, rfl, rfl, rfl, rfl, rfl, ?_⟩
    unfold Page.Live
    dsimp only
    omega
  . simp [options, setState, modifyState, Page.modify]

theorem submitSealed_eq (hgeneration : ticket.generation = page.session.generation)
    (hsignal : ticket.signal = page.session.controller) (hlive : page.Live) (note : Sealed)
    : submitSealed ticket note page
        = await .challenge (.submitChallenge ticket note) (setState (fun state => { state with
            stage := .proof, status := "Computing proof-of-work…" }) page) := by
  unfold submitSealed
  rw [Page.valid_of_live hgeneration hsignal hlive]

theorem submitChallenge_eq (hgeneration : ticket.generation = page.session.generation)
    (hsignal : ticket.signal = page.session.controller) (hlive : page.Live) (note : Sealed)
    (challenge : Challenge)
    : submitChallenge ticket note challenge page
        = await (.proof note.packet challenge) (.submitProof ticket note challenge)
            (setState (fun state => state) page) := by
  unfold submitChallenge
  rw [Page.valid_of_live hgeneration hsignal hlive]
  rfl

theorem submitProof_eq (hgeneration : ticket.generation = page.session.generation)
    (hsignal : ticket.signal = page.session.controller) (hlive : page.Live) (note : Sealed)
    (challenge : Challenge) (nonce : JsString) (packet : Bytes)
    : submitProof ticket note challenge nonce packet page
        = await (.create packet challenge nonce) (.submitReceipt ticket note packet)
            (setState (fun state => { state with
              stage := .upload, status := "Uploading encrypted package…" }) page) := by
  unfold submitProof
  rw [Page.valid_of_live hgeneration hsignal hlive]

end

-- A page whose submission waits for a promise in its first generation.
structure Publishing (origin : JsString) (number : Nat) (continuation : Continuation) (page : ComposerPage)
    : Prop where
  waiting : page.host.promises.waiting number = some continuation
  next : page.host.promises.next = number + 1
  generation : page.session.generation = 0
  controller : page.session.controller = 0
  live : page.Live
  served : page.host.origin = origin

section

variable {page : ComposerPage} {origin : JsString} {number : Nat} {continuation next : Continuation}
variable {f : ComposerState → ComposerState}

theorem Publishing.await (h : Publishing origin number continuation page) (result : Result) (request : Request)
    : Publishing origin (number + 1) next
        (Composer.await request next (setState f (settledPage number result page))) where
  waiting := Promises.waiting_suspend.mpr (.inl ⟨h.next.symm, rfl⟩)
  next := congrArg (· + 1) h.next
  generation := h.generation
  controller := h.controller
  live := by
    have hlive := h.live
    unfold Page.Live at hlive ⊢
    exact hlive
  served := h.served

theorem Publishing.trace (h : Publishing origin number continuation page) (result : Result) (request : Request)
    : (Composer.await request next (setState f (settledPage number result page))).trace = page.trace ++ [
        (0, .event (.settle number result)),
        (0, .call (number + 1) request)] := by
  rw [← h.next, ← h.generation]
  exact List.append_assoc _ _ _

end

end Composer

namespace Sender

open Composer (Publishing Sealer)
open Backend (solo update_solo deliver_solo)

section

variable {crypto : Crypto} {unicode : Shared.Unicode} {surroundings : Composer.Surroundings}

theorem answer_seal {text passphrase : JsString} {ttl views : JsNumber} {note : Shared.CreatedNote}
    (h : Shared.create crypto unicode surroundings.random ⟨text, []⟩ ⟨ttl, views, some passphrase⟩ = .ok note)
    : Sealer.answer crypto unicode surroundings (.seal text [] ttl views passphrase)
        = .ok (.sealed (Sealer.sealedNote note)) := by
  unfold Sealer.answer Sealer.readFiles
  dsimp only
  rw [h]
  rfl

theorem answer_proof {packet : Bytes} {challenge : Challenge} {nonce : JsString}
    (h : (Shared.solveProof crypto packet (Sealer.proofChallenge challenge) surroundings.pauses).result
      = .ok nonce)
    : Sealer.answer crypto unicode surroundings (.proof packet challenge) = .ok (.proof nonce packet) := by
  unfold Sealer.answer
  dsimp only
  rw [h]
  rfl

end

-- The page of a user who has typed a draft.
def draftEvents (config : PublicConfig) (text passphrase : JsString) (ttl views : JsNumber)
    : List Composer.Event := [
  .init,
  .settle 0 (.config config),
  .text text,
  .passphrase passphrase,
  .ttl ttl,
  .views views]

def drafted (origin : JsString) (config : PublicConfig) (text passphrase : JsString) (ttl views : JsNumber)
    : ComposerPage :=
  Composer.run (Composer.mount origin 0) (draftEvents config text passphrase ttl views)

-- The worker seals the draft and proves the work, and the service gives a challenge and takes the note.
def publishingEvents (surroundings : Composer.Surroundings) (challenge : Challenge) (receipt : Receipt)
    : List Event := [
  .receive 0 true,
  .finish 0 surroundings,
  .deliver 0,
  .resume,
  .composer (.settle 2 (.challenge challenge)),
  .receive 0 true,
  .finish 0 surroundings,
  .deliver 0,
  .resume,
  .composer (.settle 4 (.receipt receipt))]

-- A composer whose user types a draft and submits it.
def publish (crypto : Crypto) (unicode : Shared.Unicode) (origin : JsString) (config : PublicConfig)
    (text passphrase : JsString) (ttl views : JsNumber) (surroundings : Composer.Surroundings)
    (challenge : Challenge) (receipt : Receipt) : Sender :=
  run crypto unicode (fun _ => true) (mount origin 0)
    ((draftEvents config text passphrase ttl views).map .composer ++ [.composer .submit]
      ++ publishingEvents surroundings challenge receipt)

section

variable {crypto : Crypto} {unicode : Shared.Unicode} {posts : Nat → Bool}
variable {page : ComposerPage} {origin : JsString} {note : Composer.Sealed} {challenge : Challenge}
variable {nonce : JsString}

theorem react_eq {sender : Sender} {event : Composer.Event} {more : List (Nat × Composer.Entry)}
    (htrace : (Composer.step sender.page event).trace = sender.page.trace ++ more)
    : sender.react posts event = {
        page := Composer.step sender.page event
        backend := more.foldl (Backend.replay posts) sender.backend } := by
  unfold react
  dsimp only
  rw [htrace, List.drop_left]

theorem step_deliver {sender : Sender} (hsettled : sender.backend.settled = []) (worker : Nat)
    : step crypto unicode posts sender (.deliver worker)
        = { sender with backend := sender.backend.deliver posts worker } :=
  if_neg (by simp [hsettled])

theorem step_composer {sender : Sender} (hsettled : sender.backend.settled = []) {event : Composer.Event}
    (hforeign : sender.isForeign event = false)
    : step crypto unicode posts sender (.composer event) = sender.react posts event :=
  if_neg (by simp [hsettled, hforeign])

theorem step_receive_solo (page : ComposerPage) (worker : CryptoWorker (Nat × Composer.Request))
    (thread : Sealer) (settled : List (Nat × Composer.Result)) (isSupported : Bool)
    : step crypto unicode posts ⟨page, solo worker thread settled⟩ (.receive 0 isSupported)
        = ⟨page, solo worker (thread.receive isSupported) settled⟩ := by
  unfold step
  dsimp only
  rw [update_solo]

theorem step_finish_solo (page : ComposerPage) (worker : CryptoWorker (Nat × Composer.Request))
    (thread : Sealer) (settled : List (Nat × Composer.Result)) (surroundings : Composer.Surroundings)
    : step crypto unicode posts ⟨page, solo worker thread settled⟩ (.finish 0 surroundings)
        = ⟨page, solo worker (thread.finish crypto unicode surroundings) settled⟩ := by
  unfold step
  dsimp only
  rw [update_solo]

theorem step_deliver_solo (page : ComposerPage) (worker : CryptoWorker (Nat × Composer.Request))
    {thread : Sealer} {id : Nat} {result : Except String Composer.Result}
    (houtbox : thread.outbox = [(id, result)])
    : step crypto unicode posts ⟨page, solo worker thread []⟩ (.deliver 0) = {
        page := page
        backend := (solo worker { thread with outbox := [] } []).apply posts
          (worker.onmessage id result) } := by
  rw [step_deliver rfl, deliver_solo worker houtbox]
  rfl

theorem step_resume_solo {page : ComposerPage} (worker : CryptoWorker (Nat × Composer.Request))
    (thread : Sealer) {number : Nat} {result : Composer.Result} {more : List (Nat × Composer.Entry)}
    (htrace : (Composer.step page (.settle number result)).trace = page.trace ++ more)
    : step crypto unicode posts ⟨page, solo worker thread [(number, result)]⟩ .resume = {
        page := Composer.step page (.settle number result)
        backend := more.foldl (Backend.replay posts) (solo worker thread []) } := by
  change react posts (.settle number result) ⟨page, solo worker thread []⟩ = _
  exact react_eq htrace

theorem step_composer_solo {page : ComposerPage} (worker : CryptoWorker (Nat × Composer.Request))
    (thread : Sealer) {event : Composer.Event} {more : List (Nat × Composer.Entry)}
    (hforeign : isForeign ⟨page, solo worker thread []⟩ event = false)
    (htrace : (Composer.step page event).trace = page.trace ++ more)
    : step crypto unicode posts ⟨page, solo worker thread []⟩ (.composer event) = {
        page := Composer.step page event
        backend := more.foldl (Backend.replay posts) (solo worker thread []) } := by
  rw [step_composer rfl hforeign, react_eq htrace]

-- A settled promise whose method goes on with a call of the service.
theorem step_resume_await {number : Nat} {continuation next : Composer.Continuation}
    (h : Publishing origin number continuation page) {result : Composer.Result} {request : Composer.Request}
    {f : ComposerState → ComposerState} (hrequest : request.isCrypto = false)
    (hstep : Composer.step page (.settle number result)
      = Composer.await request next (Composer.setState f (Composer.settledPage number result page)))
    (worker : CryptoWorker (Nat × Composer.Request)) (thread : Sealer)
    : ∃ publishing, Publishing origin (number + 1) next publishing
      ∧ step crypto unicode posts ⟨page, solo worker thread [(number, result)]⟩ .resume
        = ⟨publishing, solo worker thread []⟩ := by
  have htrace := congrArg Page.trace hstep
  rw [h.trace] at htrace
  refine ⟨Composer.step page (.settle number result), ?_, ?_⟩
  . rw [hstep]
    exact h.await _ _
  . rw [step_resume_solo _ _ htrace, List.foldl_cons, List.foldl_cons, List.foldl_nil,
      Backend.replay_none _ _ (Composer.order_foreign hrequest)]
    rfl

theorem step_sealed (h : Publishing origin 1 (.submitSealed ⟨0, 0⟩) page) (thread : Sealer)
    : ∃ publishing, Publishing origin 2 (.submitChallenge ⟨0, 0⟩ note) publishing
      ∧ step crypto unicode (fun _ => true)
          ⟨page, solo { worker := some 0, created := 1, sequence := 1, pending := [] } thread
            [(1, .sealed note)]⟩ .resume
        = ⟨publishing, solo { worker := some 0, created := 1, sequence := 1, pending := [] } thread []⟩ := by
  have hstep : Composer.step page (.settle 1 (.sealed note)) = _ := Composer.step_settle h.waiting rfl
  have hsubmit := @Composer.submitSealed_eq (Composer.settledPage 1 (.sealed note) page) ⟨0, 0⟩
    h.generation.symm h.controller.symm h.live note
  exact step_resume_await h rfl (hstep.trans hsubmit) _ thread

theorem step_challenge (h : Publishing origin 2 (.submitChallenge ⟨0, 0⟩ note) page) (challenge : Challenge)
    (thread : Sealer)
    : ∃ publishing, Publishing origin 3 (.submitProof ⟨0, 0⟩ note challenge) publishing
      ∧ step crypto unicode (fun _ => true)
          ⟨page, solo { worker := some 0, created := 1, sequence := 1, pending := [] } thread []⟩
          (.composer (.settle 2 (.challenge challenge))) = {
        page := publishing
        backend := solo {
            worker := some 0
            created := 1
            sequence := 2
            pending := [(2, (3, .proof note.packet challenge))] }
          { thread with inbox := thread.inbox ++ [(2, .proof note.packet challenge)] } [] } := by
  have hstep : Composer.step page (.settle 2 (.challenge challenge)) = _ := Composer.step_settle h.waiting rfl
  have hsubmit := @Composer.submitChallenge_eq (Composer.settledPage 2 (.challenge challenge) page) ⟨0, 0⟩
    h.generation.symm h.controller.symm h.live note challenge
  have htrace := congrArg Page.trace (hstep.trans hsubmit)
  rw [h.trace] at htrace
  have hforeign : isForeign ⟨page, solo { worker := some 0, created := 1, sequence := 1, pending := [] }
      thread []⟩ (.settle 2 (.challenge challenge)) = false := by
    unfold isForeign
    dsimp only
    rw [h.waiting]
    rfl
  refine ⟨Composer.step page (.settle 2 (.challenge challenge)), ?_, ?_⟩
  . rw [hstep, hsubmit]
    exact h.await _ _
  . rw [step_composer_solo _ _ hforeign htrace]
    exact congrArg (Sender.mk _) (update_solo _ thread []
      fun thread => { thread with inbox := thread.inbox ++ [(2, .proof note.packet challenge)] })

theorem step_proof (h : Publishing origin 3 (.submitProof ⟨0, 0⟩ note challenge) page) (nonce : JsString)
    (packet : Bytes) (thread : Sealer)
    : ∃ publishing, Publishing origin 4 (.submitReceipt ⟨0, 0⟩ note packet) publishing
      ∧ step crypto unicode (fun _ => true)
          ⟨page, solo { worker := some 0, created := 1, sequence := 2, pending := [] } thread
            [(3, .proof nonce packet)]⟩ .resume
        = ⟨publishing, solo { worker := some 0, created := 1, sequence := 2, pending := [] } thread []⟩ := by
  have hstep : Composer.step page (.settle 3 (.proof nonce packet)) = _ := Composer.step_settle h.waiting rfl
  have hsubmit := @Composer.submitProof_eq (Composer.settledPage 3 (.proof nonce packet) page) ⟨0, 0⟩
    h.generation.symm h.controller.symm h.live note challenge nonce packet
  exact step_resume_await h rfl (hstep.trans hsubmit) _ thread

theorem step_receipt {packet : Bytes} (h : Publishing origin 4 (.submitReceipt ⟨0, 0⟩ note packet) page)
    {receipt : Receipt} (hid : receipt.id = note.id) (worker : CryptoWorker (Nat × Composer.Request))
    (thread : Sealer)
    : (step crypto unicode (fun _ => true) ⟨page, solo worker thread []⟩
        (.composer (.settle 4 (.receipt receipt)))).page.host.state.link
      = Composer.shareLink origin note := by
  have hstep : Composer.step page (.settle 4 (.receipt receipt)) = _ := Composer.step_settle h.waiting rfl
  have hstate := @Composer.submitReceipt_eq (Composer.settledPage 4 (.receipt receipt) page) ⟨0, 0⟩ note receipt
    h.generation.symm h.controller.symm h.live hid packet
  have hforeign : isForeign ⟨page, solo worker thread []⟩ (.settle 4 (.receipt receipt)) = false := by
    unfold isForeign
    dsimp only
    rw [h.waiting]
    rfl
  rw [step_composer rfl hforeign]
  change (Composer.step page (.settle 4 (.receipt receipt))).host.state.link = _
  rw [hstep, ← h.served]
  exact congrArg ComposerState.link hstate

-- A submitted draft is published, and its link is shown.
theorem run_publishingEvents (h : Publishing origin 1 (.submitSealed ⟨0, 0⟩) page)
    {text : JsString} {files : List Composer.LocalFile} {ttl views : JsNumber} {passphrase : JsString}
    {surroundings : Composer.Surroundings} {receipt : Receipt}
    (hfiles : files.length ≤ Shared.maxFiles) (hsize : Composer.totalSize files ≤ Shared.maxContentBytes)
    (hseals : Sealer.answer crypto unicode surroundings (.seal text files ttl views passphrase)
      = .ok (.sealed note))
    (hproves : Sealer.answer crypto unicode surroundings (.proof note.packet challenge)
      = .ok (.proof nonce note.packet))
    (hid : receipt.id = note.id)
    : (run crypto unicode (fun _ => true) {
          page
          backend := solo {
              worker := some 0
              created := 1
              sequence := 1
              pending := [(1, (1, .seal text files ttl views passphrase))] }
            { Sealer.new with inbox := [(1, .seal text files ttl views passphrase)] } [] }
        (publishingEvents surroundings challenge receipt)).page.host.state.link
      = Composer.shareLink origin note := by
  rcases @step_sealed crypto unicode page origin note h Sealer.new with ⟨waiting, hwaiting, hsealed⟩
  rcases @step_challenge crypto unicode waiting origin note hwaiting challenge Sealer.new
    with ⟨proving, hproving, hchallenged⟩
  rcases @step_proof crypto unicode proving origin note challenge hproving nonce note.packet Sealer.new
    with ⟨uploading, huploading, hproved⟩
  have hreceived : Sealer.receive true { Sealer.new with inbox := [(1, .seal text files ttl views passphrase)] }
      = { Sealer.new with running := some (1, .seal text files ttl views passphrase) } := by
    simp [Sealer.receive, Sealer.onmessage, Sealer.new, Nat.not_lt.mpr hfiles, Nat.not_lt.mpr hsize]
  have hfinished : Sealer.finish crypto unicode surroundings
        { Sealer.new with running := some (1, .seal text files ttl views passphrase) }
      = { Sealer.new with outbox := [(1, .ok (.sealed note))] } := by
    simp [Sealer.finish, Sealer.new, Sealer.post, hseals]
  have hanswered : Sealer.finish crypto unicode surroundings
        { Sealer.new with running := some (2, .proof note.packet challenge) }
      = { Sealer.new with outbox := [(2, .ok (.proof nonce note.packet))] } := by
    simp [Sealer.finish, Sealer.new, Sealer.post, hproves]
  have hposted : (solo {
        worker := some 0
        created := 1
        sequence := 1
        pending := [(1, (1, .seal text files ttl views passphrase))] }
        { Sealer.new with outbox := [] } []).apply (fun _ => true)
          (CryptoWorker.onmessage 1 (.ok (.sealed note)) {
            worker := some 0
            created := 1
            sequence := 1
            pending := [(1, (1, .seal text files ttl views passphrase))] })
      = solo { worker := some 0, created := 1, sequence := 1, pending := [] } Sealer.new
          [(1, .sealed note)] := rfl
  have hsettled : (solo {
        worker := some 0
        created := 1
        sequence := 2
        pending := [(2, (3, .proof note.packet challenge))] }
        { Sealer.new with outbox := [] } []).apply (fun _ => true)
          (CryptoWorker.onmessage 2 (.ok (.proof nonce note.packet)) {
            worker := some 0
            created := 1
            sequence := 2
            pending := [(2, (3, .proof note.packet challenge))] })
      = solo { worker := some 0, created := 1, sequence := 2, pending := [] } Sealer.new
          [(3, .proof nonce note.packet)] := rfl
  have hrunning : Sealer.receive true
        { Sealer.new with inbox := Sealer.new.inbox ++ [(2, .proof note.packet challenge)] }
      = { Sealer.new with running := some (2, .proof note.packet challenge) } := rfl
  unfold run publishingEvents
  rw [List.foldl_cons, step_receive_solo, hreceived, List.foldl_cons, step_finish_solo, hfinished,
    List.foldl_cons, step_deliver_solo _ _ rfl, hposted, List.foldl_cons, hsealed, List.foldl_cons, hchallenged,
    List.foldl_cons, step_receive_solo, hrunning, List.foldl_cons, step_finish_solo, hanswered,
    List.foldl_cons, step_deliver_solo _ _ rfl, hsettled, List.foldl_cons, hproved, List.foldl_cons,
    List.foldl_nil]
  exact step_receipt huploading hid _ _

-- An event that makes no call leaves the workers alone.
theorem step_composer_recorded {page : ComposerPage} {backend : Composer.Backend} {event : Composer.Event}
    (hsettled : backend.settled = []) (hforeign : isForeign ⟨page, backend⟩ event = false)
    (htrace : (Composer.step page event).trace = page.trace ++ [(page.session.generation, .event event)])
    : step crypto unicode posts ⟨page, backend⟩ (.composer event) = ⟨Composer.step page event, backend⟩ := by
  rw [step_composer hsettled hforeign, react_eq htrace]
  rfl

theorem run_draftEvents (origin : JsString) (config : PublicConfig) (text passphrase : JsString)
    (ttl views : JsNumber)
    : run crypto unicode (fun _ => true) (mount origin 0)
        ((draftEvents config text passphrase ttl views).map .composer)
      = ⟨drafted origin config text passphrase ttl views, .start⟩ := by
  have hinit : step crypto unicode (fun _ => true) (mount origin 0) (.composer .init)
      = ⟨Composer.step (Composer.mount origin 0) .init, .start⟩ := by
    have htrace : (Composer.step (mount origin 0).page .init).trace
        = (mount origin 0).page.trace ++ [(0, .event .init), (0, .call 0 .config)] := rfl
    rw [step_composer rfl rfl, react_eq htrace]
    rfl
  unfold run draftEvents
  simp only [List.map_cons, List.map_nil]
  rw [List.foldl_cons, hinit, List.foldl_cons, step_composer_recorded rfl rfl rfl,
    List.foldl_cons, step_composer_recorded rfl rfl rfl, List.foldl_cons, step_composer_recorded rfl rfl rfl,
    List.foldl_cons, step_composer_recorded rfl rfl rfl, List.foldl_cons, step_composer_recorded rfl rfl rfl,
    List.foldl_nil]
  rfl

-- A draft that the page does not refuse goes to the worker.
theorem run_submit {config : PublicConfig} {text passphrase : JsString} {ttl views : JsNumber}
    (hallowed : Composer.isRefused (drafted origin config text passphrase ttl views).host.state config = false)
    : ∃ submitted, Publishing origin 1 (.submitSealed ⟨0, 0⟩) submitted
      ∧ run crypto unicode (fun _ => true) (mount origin 0)
          ((draftEvents config text passphrase ttl views).map .composer ++ [.composer .submit]) = {
        page := submitted
        backend := solo {
            worker := some 0
            created := 1
            sequence := 1
            pending := [(1, (1, .seal text [] ttl views passphrase))] }
          { Sealer.new with inbox := [(1, .seal text [] ttl views passphrase)] } [] } := by
  let page := drafted origin config text passphrase ttl views
  have hlive : (page.emit (.event .submit)).Live := fun h => h.1 rfl
  rcases @Composer.submit_eq (page.emit (.event .submit)) config rfl rfl rfl hallowed hlive
    with ⟨started, hstep, htrace, hpromises, horigin, hgeneration, hcontroller, hstarted⟩
  have hsubmit : Composer.step page .submit = _ := hstep
  have hcalls : (Composer.step page .submit).trace = page.trace ++ [
      (0, .event .submit),
      (0, .call 1 (.seal text [] ttl views passphrase))] := by
    have hawait : ∀ request continuation, (Composer.await request continuation started).trace = started.trace
        ++ [(started.session.generation, .call started.host.promises.next request)] := fun _ _ => rfl
    rw [hsubmit, hawait, htrace, hgeneration, hpromises]
    exact List.append_assoc _ _ _
  refine ⟨Composer.step page .submit, ?_, ?_⟩
  . rw [hsubmit]
    exact {
      waiting := Promises.waiting_suspend.mpr (.inl ⟨(congrArg Promises.next hpromises).symm, rfl⟩)
      next := congrArg (fun promises => promises.next + 1) hpromises
      generation := hgeneration
      controller := hcontroller
      live := hstarted
      served := horigin }
  . unfold run
    have hdraft := @run_draftEvents crypto unicode origin config text passphrase ttl views
    unfold run at hdraft
    rw [List.foldl_append, hdraft, List.foldl_cons, List.foldl_nil, step_composer rfl rfl, react_eq hcalls]
    rfl

-- A draft that the page does not refuse is published, and its link is shown.
theorem link_publish {config : PublicConfig} {text passphrase : JsString} {ttl views : JsNumber}
    {surroundings : Composer.Surroundings} {created : Shared.CreatedNote} {receipt : Receipt}
    (hallowed : Composer.isRefused (drafted origin config text passphrase ttl views).host.state config = false)
    (hcreated : Shared.create crypto unicode surroundings.random ⟨text, []⟩ ⟨ttl, views, some passphrase⟩
      = .ok created)
    (hsolved : (Shared.solveProof crypto created.packet (Sealer.proofChallenge challenge)
      surroundings.pauses).result = .ok nonce)
    (hid : receipt.id = created.id)
    : (publish crypto unicode origin config text passphrase ttl views surroundings challenge
        receipt).page.host.state.link = Composer.shareLink origin (Sealer.sealedNote created) := by
  rcases @run_submit crypto unicode origin config text passphrase ttl views hallowed
    with ⟨submitted, hsubmitted, hrun⟩
  unfold publish
  unfold run at hrun ⊢
  rw [List.foldl_append, hrun]
  exact run_publishingEvents hsubmitted (Nat.zero_le _) (Nat.zero_le _) (answer_seal hcreated)
    (answer_proof hsolved) hid

end

end Sender

end Web
