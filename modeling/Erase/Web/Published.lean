import Erase.Cli.Receipt
import Erase.Web.Answering
import Erase.Web.Publication

/-!
What a composer publishes in a run with its workers: packets that `create` has made of a draft, with a proof
of work, under a link that opens them.
-/

open Protocol

namespace Web

namespace Sender

section

variable {crypto : Crypto} {unicode : Shared.Unicode}

-- A worker was given the draft, and has read its files.
def Requested (trace : List (Nat × Composer.Entry)) (sending : Sending crypto unicode) : Prop :=
  ∃ (number : Nat) (text : JsString) (files : List Composer.LocalFile) (ttl views : JsNumber)
      (passphrase : JsString) (arrayBuffer : Nat → Option Bytes) (inputs : List Shared.FileInput),
    Composer.Asks trace number (.seal text files ttl views passphrase)
      ∧ Composer.Sealer.readFiles arrayBuffer 0 files = some inputs
      ∧ sending.input = ⟨text, inputs⟩
      ∧ sending.options = ⟨ttl, views, some passphrase⟩

-- The packet of a draft, with a proof of work for a challenge that the service has given.
structure Uploads (trace : List (Nat × Composer.Entry)) (sending : Sending crypto unicode)
    (challenge : Challenge) (nonce : JsString) : Prop where
  requested : Requested trace sending
  accepted : ∃ packet, Server.parsePacket sending.note.packet = .ok packet
  challenged : Composer.Challenged trace challenge
  work : ∀ text, Server.validId text = true → challenge.challenge = JsString.ofString text
    → 1 ≤ challenge.bits
    → ∃ n : Nat, nonce = JsString.ofString (toString n)
      ∧ Server.verifyWork crypto.sha256 text (toString n) sending.note.packet challenge.bits = .ok true

end

section

variable (crypto : Crypto) (unicode : Shared.Unicode)

structure Grounded (origin : JsString) (sender : Sender) : Prop where
  accounted : Composer.Accounted origin sender.page
  backend : sender.backend.Answering crypto unicode sender.page.trace
  settled : ∀ number result, Composer.Settles sender.page.trace number result
    → ∃ request, Composer.Asks sender.page.trace number request
      ∧ Composer.Served crypto unicode request result

end

section

variable {crypto : Crypto} {unicode : Shared.Unicode} {posts : Nat → Bool} {origin : JsString}
variable {sender : Sender}

theorem grounded_mount (origin : JsString) (now : Nat) : (mount origin now).Grounded crypto unicode origin where
  accounted := .mount origin now
  backend := .start
  settled number result h := by
    rcases h with ⟨generation, hmem⟩
    cases hmem

theorem grounded_react (h : sender.Grounded crypto unicode origin) {event : Composer.Event}
    (hevent : ∀ number result, event = .settle number result
      → ∃ request, Composer.Asks sender.page.trace number request
        ∧ Composer.Served crypto unicode request result)
    : (sender.react posts event).Grounded crypto unicode origin := by
  rcases Composer.records_step sender.page event with ⟨more, htrace, hmore⟩
  have hsubset : sender.page.trace ⊆ (Composer.step sender.page event).trace := by
    rw [htrace]
    exact List.Subset.trans (List.subset_append_left _ _) (List.subset_append_left _ _)
  refine ⟨h.accounted.step event, ?_, ?_⟩
  . apply (h.backend.mono hsubset).foldl_replay
    exact fun entry hentry => List.mem_of_mem_drop hentry
  . intro number result hsettles
    have hknown : ∃ request, Composer.Asks sender.page.trace number request
        ∧ Composer.Served crypto unicode request result := by
      rcases hsettles with ⟨generation, hmem⟩
      have hmem' : (generation, .event (.settle number result))
          ∈ sender.page.trace ++ [(sender.page.session.generation, .event event)] ++ more := htrace ▸ hmem
      rcases List.mem_append.mp hmem' with hmem' | hmem'
      . rcases List.mem_append.mp hmem' with hmem' | hmem'
        . exact h.settled number result ⟨generation, hmem'⟩
        . cases List.mem_singleton.mp hmem'
          exact hevent number result rfl
      . exact absurd rfl (hmore _ hmem' _)
    rcases hknown with ⟨request, hasks, hserved⟩
    exact ⟨request, hasks.mono hsubset, hserved⟩

-- The calls that no worker serves wait for whatever they are settled with.
theorem served_of_not_foreign (h : sender.Grounded crypto unicode origin) {number : Nat}
    {result : Composer.Result} (hforeign : sender.isForeign (.settle number result) = false)
    : ∃ request, Composer.Asks sender.page.trace number request
      ∧ Composer.Served crypto unicode request result := by
  unfold isForeign at hforeign
  dsimp only at hforeign
  cases hwaiting : sender.page.host.promises.waiting number with
  | none =>
    rw [hwaiting] at hforeign
    cases hforeign
  | some continuation =>
    rw [hwaiting] at hforeign
    have hleads := h.accounted.leads hwaiting
    cases continuation with
    | submitSealed ticket => cases hforeign
    | submitProof ticket sealed challenge => cases hforeign
    | submitChallenge ticket sealed => exact ⟨_, hleads.2, .inr (.inl rfl)⟩
    | submitReceipt ticket sealed packet =>
      rcases hleads with ⟨challenge, nonce, -, hasks⟩
      exact ⟨_, hasks, .inr (.inl rfl)⟩
    | _ =>
      rcases hleads with ⟨request, hcrypto, hasks⟩
      exact ⟨request, hasks, .inr (.inl hcrypto)⟩

theorem grounded_step (h : sender.Grounded crypto unicode origin) (event : Event)
    : (sender.step crypto unicode posts event).Grounded crypto unicode origin := by
  unfold step
  cases event with
  | composer event =>
    dsimp only
    split
    . exact h
    . next hguard =>
      simp only [Bool.or_eq_true, not_or, Bool.not_eq_true] at hguard
      apply grounded_react h
      intro number result hevent
      rw [hevent] at hguard
      exact served_of_not_foreign h hguard.2
  | resume =>
    dsimp only
    split
    . exact h
    . next number result settled hsettled =>
      have htaken : Grounded crypto unicode origin
          { sender with backend := { sender.backend with settled } } := {
        h with
        backend := { h.backend with
          settled := fun other answer hmem => h.backend.settled other answer (by simp [hsettled, hmem]) } }
      apply grounded_react htaken
      intro other answer hevent
      cases hevent
      exact h.backend.settled number result (by simp [hsettled])
  | receive worker isSupported =>
    exact { h with backend := h.backend.update worker (Composer.Sealer.evolves_receive isSupported _) }
  | finish worker surroundings =>
    exact { h with backend := h.backend.update worker (Composer.Sealer.evolves_finish surroundings _) }
  | deliver worker =>
    dsimp only
    split
    . exact h
    . exact { h with backend := h.backend.deliver worker }
  | error worker =>
    dsimp only
    split
    . exact h
    . exact { h with backend := h.backend.fail _ }
  | messageerror worker =>
    dsimp only
    split
    . exact h
    . exact { h with backend := h.backend.fail _ }

theorem grounded_run (h : sender.Grounded crypto unicode origin) (events : List Event)
    : (run crypto unicode posts sender events).Grounded crypto unicode origin := by
  induction events generalizing sender with
  | nil => exact h
  | cons event events ih => exact ih (grounded_step h event)

theorem shareLink_eq (origin : JsString) (note : Shared.CreatedNote)
    : Composer.shareLink origin (Composer.Sealer.sealedNote note)
        = origin ++ JsString.ofString "/view" ++ Shared.shareHash note.id note.secret := by
  have hview : JsString.ofString "/view#1." = JsString.ofString "/view" ++ JsString.ofString "#1." := by
    decide
  unfold Composer.shareLink Composer.Sealer.sealedNote Shared.shareHash
  rw [hview]
  simp only [List.append_assoc]

theorem answers_seal {text : JsString} {files : List Composer.LocalFile} {ttl views : JsNumber}
    {passphrase : JsString} {sealed : Composer.Sealed}
    (h : Composer.Answers crypto unicode (.seal text files ttl views passphrase) (.sealed sealed))
    : ∃ (sending : Sending crypto unicode) (arrayBuffer : Nat → Option Bytes)
        (inputs : List Shared.FileInput),
      Composer.Sealer.readFiles arrayBuffer 0 files = some inputs
        ∧ sending.input = ⟨text, inputs⟩
        ∧ sending.options = ⟨ttl, views, some passphrase⟩
        ∧ sealed = Composer.Sealer.sealedNote sending.note := by
  rcases h with ⟨surroundings, hanswer⟩
  unfold Composer.Sealer.answer at hanswer
  dsimp only at hanswer
  split at hanswer
  . cases hanswer
  . next inputs hinputs =>
    cases hcreated : Shared.create crypto unicode surroundings.random ⟨text, inputs⟩
        ⟨ttl, views, some passphrase⟩ with
    | error error =>
      rw [hcreated] at hanswer
      cases hanswer
    | ok note =>
      rw [hcreated] at hanswer
      cases hanswer
      exact ⟨⟨_, _, _, note, hcreated⟩, surroundings.arrayBuffer, inputs, hinputs, rfl, rfl, rfl⟩

theorem answers_proof {packet returned : Bytes} {challenge : Challenge} {nonce : JsString}
    (h : Composer.Answers crypto unicode (.proof packet challenge) (.proof nonce returned))
    : returned = packet ∧ ∃ pauses,
      (Shared.solveProof crypto packet (Composer.Sealer.proofChallenge challenge) pauses).result
        = .ok nonce := by
  rcases h with ⟨surroundings, hanswer⟩
  unfold Composer.Sealer.answer at hanswer
  dsimp only at hanswer
  cases hsolved : (Shared.solveProof crypto packet (Composer.Sealer.proofChallenge challenge)
      surroundings.pauses).result with
  | error error =>
    rw [hsolved] at hanswer
    cases hanswer
  | ok text =>
    rw [hsolved] at hanswer
    cases hanswer
    exact ⟨rfl, surroundings.pauses, hsolved⟩

theorem bits_le_of_solved {challenge : Challenge} {packet : Bytes} {pauses : Shared.Pauses}
    {nonce : JsString}
    (h : (Shared.solveProof crypto packet (Composer.Sealer.proofChallenge challenge) pauses).result = .ok nonce)
    : challenge.bits ≤ 24 := by
  have hvalid := (Shared.solveProof_eq_ok h).1
  unfold Shared.isInvalidChallenge Composer.Sealer.proofChallenge at hvalid
  simp only [Bool.or_eq_false_iff, Bool.not_eq_false', Option.any_eq_true] at hvalid
  rcases hvalid.1.2 with ⟨bits, hbits, hrange⟩
  unfold JsNumber.safeInteger? JsNumber.ofNat at hbits
  dsimp only at hbits
  split at hbits
  . have hvalue : (challenge.bits : ℤ) = bits := by simpa using hbits
    simp only [Bool.and_eq_true, decide_eq_true_eq] at hrange
    omega
  . cases hbits

-- A call that creates a note carries the packet of a draft and a proof of work for it.
theorem uploads_of_posted (hcrypto : crypto.Lawful) (hunicode : unicode.Lawful)
    (h : sender.Grounded crypto unicode origin) {sealed : Composer.Sealed} {packet : Bytes}
    {challenge : Challenge} {nonce : JsString}
    (hposted : Composer.Posted sender.page.trace sealed packet challenge nonce)
    : ∃ sending : Sending crypto unicode, Uploads sender.page.trace sending challenge nonce
      ∧ sending.note.packet = packet
      ∧ sealed = Composer.Sealer.sealedNote sending.note := by
  rcases hposted.seals
    with ⟨number, generation, ⟨generation', text, files, ttl, views, passphrase, hmem⟩, hsealed⟩
  have hasks : Composer.Asks sender.page.trace number (.seal text files ttl views passphrase) :=
    ⟨generation', hmem⟩
  rcases h.settled number _ ⟨generation, hsealed⟩ with ⟨request, hrequest, hserved⟩
  rw [h.accounted.single hasks hrequest] at hserved
  rcases hserved with ⟨error, herror⟩ | hcrypto' | hanswers
  . cases herror
  . cases hcrypto'
  rcases answers_seal hanswers with ⟨sending, arrayBuffer, inputs, hinputs, hinput, hoptions, rfl⟩
  rcases hposted.proved with ⟨proof, hproof, hsettles⟩
  rcases h.settled proof _ hsettles with ⟨request, hrequest, hserved⟩
  rw [h.accounted.single hproof hrequest] at hserved
  rcases hserved with ⟨error, herror⟩ | hcrypto' | hanswers
  . cases herror
  . cases hcrypto'
  rcases answers_proof hanswers with ⟨hpacket, pauses, hsolved⟩
  rcases Cli.exists_opens hcrypto hunicode sending with ⟨parsed, peek, prepared, hopens⟩
  refine ⟨sending, ⟨?_, ⟨parsed, hopens.parsed⟩, hposted.challenged, ?_⟩, hpacket.symm, rfl⟩
  . exact ⟨number, text, files, ttl, views, passphrase, arrayBuffer, inputs, hasks, hinputs, hinput, hoptions⟩
  . intro challengeText hvalid hsame hbits
    have hle := bits_le_of_solved hsolved
    unfold Composer.Sealer.proofChallenge at hsolved
    rw [hsame] at hsolved
    rcases solveProof_verifyWork hcrypto hvalid ⟨hbits, hle⟩ hsolved with ⟨n, hnonce, hwork, -⟩
    exact ⟨n, hnonce, hwork⟩

/--
Whatever a user, the workers and the service do, every note that a composer asks the service to create is the
packet of a draft that was handed to a worker, with a proof of work. A shown link is that of such a note, which
the service has named, and opens it to the draft.
-/
theorem publishes_drafts (hcrypto : crypto.Lawful) (hunicode : unicode.Lawful) (origin : JsString) (now : Nat)
    (events : List Event)
    : let page := (run crypto unicode posts (mount origin now) events).page
      (∀ number packet challenge nonce,
        Composer.Asks page.trace number (.create packet challenge nonce)
          → ∃ sending : Sending crypto unicode, Uploads page.trace sending challenge nonce
            ∧ sending.note.packet = packet)
      ∧ (page.host.state.link ≠ []
        → ∃ (sending : Sending crypto unicode) (challenge : Challenge) (nonce : JsString) (number : Nat)
            (receipt : Receipt) (packet : Server.Packet) (prepared : Shared.PreparedOpen),
          Uploads page.trace sending challenge nonce
            ∧ Composer.Asks page.trace number (.create sending.note.packet challenge nonce)
            ∧ Composer.Settles page.trace number (.receipt receipt)
            ∧ receipt.id = sending.note.id
            ∧ page.host.state.link = origin ++ JsString.ofString "/view"
              ++ Shared.shareHash sending.note.id sending.note.secret
            ∧ Server.parsePacket sending.note.packet = .ok packet
            ∧ Shared.prepareOpen crypto (JsString.ofString (Server.encodeUrlSafe packet.headerBytes))
              sending.note.secret sending.note.id sending.passphrase = .ok prepared
            ∧ Shared.decrypt crypto unicode sending.note.packet prepared
              = .ok (Shared.normalized unicode sending.input)) := by
  intro page
  have hgrounded : (run crypto unicode posts (mount origin now) events).Grounded crypto unicode origin :=
    grounded_run (grounded_mount origin now) events
  constructor
  . intro number packet challenge nonce hasks
    rcases hgrounded.accounted.posted hasks with ⟨sealed, hposted⟩
    rcases uploads_of_posted hcrypto hunicode hgrounded hposted with ⟨sending, huploads, hpacket, -⟩
    exact ⟨sending, huploads, hpacket⟩
  . intro hlink
    rcases hgrounded.accounted.shown hlink
      with ⟨sealed, packet, challenge, nonce, number, receipt, hposted, hasks, hsettles, hid, hshown⟩
    rcases uploads_of_posted hcrypto hunicode hgrounded hposted with ⟨sending, huploads, rfl, rfl⟩
    rcases Cli.exists_opens hcrypto hunicode sending with ⟨parsed, peek, prepared, hopens⟩
    refine ⟨sending, challenge, nonce, number, receipt, parsed, prepared, huploads, hasks, hsettles, hid, ?_,
      hopens.parsed, hopens.prepares, hopens.decrypts⟩
    rw [hshown]
    exact shareLink_eq origin sending.note

end

def exampleSurroundings : Composer.Surroundings where
  arrayBuffer _ := none
  random := exampleRandomness
  before _ := 0
  after _ := 0

def exampleChallenge : Challenge where
  challenge := Shared.toBase64Url Cli.exampleToken
  bits := 1
  expiresAt := 1

theorem isPackable_exampleText : Shared.IsPackable Shared.Unicode.ascii ⟨[65], []⟩ where
  text_wellFormed := by decide
  text_le := by decide
  files_le := by decide
  nonempty := by decide
  accepts := trivial

-- The packet of the example text, with its proof.
theorem exists_exampleText
    : ∃ (note : Shared.CreatedNote) (upload : Server.Packet) (nonce : JsString),
      Shared.create Crypto.plain Shared.Unicode.ascii exampleRandomness ⟨[65], []⟩
          ⟨.ofNat 3600, .ofNat 1, some []⟩ = .ok note
        ∧ Server.parsePacket note.packet = .ok upload
        ∧ 1 ≤ upload.header.views
        ∧ (Shared.solveProof Crypto.plain note.packet (Composer.Sealer.proofChallenge exampleChallenge)
          exampleSurroundings.pauses).result = .ok nonce := by
  rcases Shared.layOut_extends exampleRandomness.padding (Shared.encoderEncode [65]) []
    with ⟨clear, hclear, -⟩
  have hpack : Shared.pack Shared.Unicode.ascii exampleRandomness.padding ⟨[65], []⟩ = .ok clear :=
    Shared.pack_eq_ok_iff.mpr ⟨isPackable_exampleText, hclear⟩
  have hlength := (clear_blocks Shared.Unicode.ascii_lawful hpack).1
  let value := valueOf Crypto.plain_lawful exampleRandomness ⟨3600, by decide⟩ ⟨1, by decide⟩ []
  have hframed := isFramed_created Crypto.plain_lawful Shared.Unicode.ascii_lawful hpack value
    (keysOf Crypto.plain exampleRandomness []).key
  have hcreated : Shared.create Crypto.plain Shared.Unicode.ascii exampleRandomness ⟨[65], []⟩
      ⟨.ofNat 3600, .ofNat 1, some []⟩ = .ok _ :=
    create_eq_ok Crypto.plain_lawful hpack hlength ⟨3600, by decide⟩ ⟨1, by decide⟩ (by decide) (by decide)
  exact ⟨_, ⟨_, value.bytes, value.toServer⟩, _, hcreated,
    serverParsePacket_eq_ok_iff.mpr ⟨value, _, hframed, rfl⟩, value.views.2.1,
    Cli.solveProof_exampleSend (sharedParsePacket_eq_ok_iff.mpr ⟨value, _, hframed, rfl⟩)⟩

-- The page of a user who submits the example text shows a link.
theorem publishes_drafts_exampleText
    : ∃ (receipt : Receipt) (sending : Sending Crypto.plain Shared.Unicode.ascii) (challenge : Challenge)
        (nonce : JsString) (number : Nat),
      let page := (publish Crypto.plain Shared.Unicode.ascii [] Composer.exampleConfig [65] [] (.ofNat 3600)
        (.ofNat 1) exampleSurroundings exampleChallenge receipt).page
      page.host.state.link ≠ []
        ∧ Uploads page.trace sending challenge nonce
        ∧ Composer.Asks page.trace number (.create sending.note.packet challenge nonce)
        ∧ page.host.state.link = [] ++ JsString.ofString "/view"
          ++ Shared.shareHash sending.note.id sending.note.secret := by
  rcases exists_exampleText with ⟨note, upload, nonce, hcreated, -, -, hsolved⟩
  have hlink : (publish Crypto.plain Shared.Unicode.ascii [] Composer.exampleConfig [65] [] (.ofNat 3600)
      (.ofNat 1) exampleSurroundings exampleChallenge ⟨note.id, 1⟩).page.host.state.link = _ :=
    link_publish (by decide +kernel) hcreated hsolved rfl
  have hshown : (publish Crypto.plain Shared.Unicode.ascii [] Composer.exampleConfig [65] [] (.ofNat 3600)
      (.ofNat 1) exampleSurroundings exampleChallenge ⟨note.id, 1⟩).page.host.state.link ≠ [] := by
    rw [hlink]
    intro hnil
    have hview : JsString.ofString "/view#1." = [] := by
      unfold Composer.shareLink at hnil
      simp only [List.append_eq_nil_iff] at hnil
      exact hnil.1.1.1.2
    revert hview
    decide
  rcases (publishes_drafts Crypto.plain_lawful Shared.Unicode.ascii_lawful [] 0 _).2 hshown
    with ⟨sending, challenge, nonce, number, _, _, _, huploads, hasks, -, -, hsame, -⟩
  exact ⟨⟨note.id, 1⟩, sending, challenge, nonce, number, hshown, huploads, hasks, hsame⟩

end Sender

end Web
