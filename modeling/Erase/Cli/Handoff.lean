import Erase.Cli.Receipt
import Erase.Store.Availability

/-!
A note that `send` has posted is received: `receive` gets the content that was sent from whatever state the
server has come to, as long as nobody has deleted the note, it has views left and it has not expired.
-/

open Protocol Client

namespace Cli

namespace Exchange

variable {α β : Type}

theorem ofCli_ok_bind (a : α) (f : α → Exchange β) : (ofCli (.ok a) >>= f) = f a := rfl

theorem ofShared_ok_bind (a : α) (f : α → Exchange β) : (ofShared (.ok a) >>= f) = f a := rfl

theorem sent_ok_bind (request : Request) (a : α) (f : α → Exchange β)
    : ((⟨[request], .ok a⟩ : Exchange α) >>= f) = ⟨request :: (f a).requests, (f a).result⟩ := rfl

theorem mem_sent_bind (request : Request) (answer : Except Failure α) (f : α → Exchange β)
    : request ∈ ((⟨[request], answer⟩ : Exchange α) >>= f).requests :=
  mem_requests_bind.mpr (.inl List.mem_cons_self)

end Exchange

section

variable {crypto : Crypto} {unicode : Shared.Unicode} {parseUrl : JsString → Option Location}

theorem request_of_valid {α : Type} {make : JsString → JsString → Request} {id token : JsString}
    (hid : isCapability id = true) (htoken : isCapability token = true) (answer : Except Failure α)
    : request make id token answer = ⟨[make id token], answer⟩ := by
  unfold request
  rw [if_neg (by simp [hid]), if_neg (by simp [htoken])]

-- A recipient who is given the link and the passphrase of a note, and a place to save it.
structure Recipient (receiver : Surroundings) (url passphrase : JsString) : Prop where
  output : receiver.output.getD [] ≠ []
  empty : receiver.destination = .ok true
  server : receiver.server = none
  link : ∃ text, stdin receiver.stdin 2048 = .ok text ∧ trim text = url
  passphrase : Cli.passphrase receiver.passphraseFile = .ok passphrase

-- The replies that the recipient's command takes in are those of the server, whole.
structure Replied (crypto : Crypto) (describing checking opening : Server.Cache) (receiver : Surroundings)
    (requests : List Request) : Prop where
  metadata : ∀ (id token hash : String) (reply : Server.Metadata),
    .metadata (JsString.ofString id) (JsString.ofString token) ∈ requests
      → Server.tokenHash crypto.sha256 token = .ok hash
      → describing.metadata Store.allowAll id hash = .ok reply
      → ∃ response, Delivers reply.toVec response
        ∧ ∀ metadata, Api.metadata response = .ok metadata → receiver.metadata = .ok metadata
  packet : ∀ (id token hash : String) (bytes : Bytes),
    .openNote (JsString.ofString id) (JsString.ofString token) ∈ requests
      → Server.tokenHash crypto.sha256 token = .ok hash
      → checking.call Store.allowAll (.access (Server.asBytes id) (Server.asBytes hash) .checkOpen) = .ok []
      → opening.call Store.allowAll (.access (Server.asBytes id) (Server.asBytes hash) .openNote)
        >>= Server.packetOf = .ok bytes
      → ∃ config head page response,
        Carries (answered config head page (.ok (.access (.packet bytes)))) response
          ∧ ∀ packet, Api.openNote response = .ok (some packet) → receiver.packet = .ok packet

-- What `receive` does with a link that it can use, up to its first request.
theorem receive_eq {receiver : Surroundings} {url passphrase origin peek : JsString} {id secret : ByteString 32}
    (hrecipient : Recipient receiver url passphrase) (hlocated : Located parseUrl origin url id secret)
    (hpeek : Shared.derivePeek crypto (Shared.toBase64Url secret) (Shared.toBase64Url id) = .ok peek)
    : receive crypto unicode parseUrl receiver
        = (do
          let metadata ← metadata (Shared.toBase64Url id) peek receiver.metadata
          let passphrase ← .ofCli (.ok passphrase)
          let prepared ← .ofShared (Shared.prepareOpen crypto metadata.header (Shared.toBase64Url secret)
            (Shared.toBase64Url id) passphrase)
          let packet ← request .openNote (Shared.toBase64Url id) prepared.readToken receiver.packet
          let content ← .ofShared (Shared.decrypt crypto unicode packet prepared)
          let _ ← (⟨[], receiver.writeContent content⟩ : Exchange Unit)
          return content.files.length + if content.text ≠ [] then 1 else 0) := by
  rcases hlocated.parsed with ⟨place, hplace, horigin, hshare, hhash⟩
  rcases hrecipient.link with ⟨text, htext, htrim⟩
  have hserver : serverOrigin parseUrl (receiver.server.getD place.origin) = .ok origin := by
    rw [hrecipient.server, Option.getD_none, horigin]
    exact hlocated.server
  have hparse : (fun value => (parseUrl value).map Location.toUrl) url = some place.toUrl := by
    dsimp only
    rw [hplace]
    rfl
  unfold receive
  rw [if_neg hrecipient.output, hrecipient.empty, Exchange.ofCli_ok_bind, if_neg (by simp), htext,
    Exchange.ofCli_ok_bind, htrim]
  dsimp only
  rw [hplace, Option.elim_some, Exchange.ofCli_ok_bind, hserver, Exchange.ofCli_ok_bind,
    if_neg (not_not.mpr horigin), Shared.parseShareLink_eq_ok hparse hshare hhash]
  rw [Exchange.ofShared_ok_bind, hpeek, Exchange.ofShared_ok_bind, hrecipient.passphrase]

theorem isInvalidMetadata_eq_false {header : Bytes} (hheader : header.length ≤ 2048) {expires remaining : Nat}
    (hexpires : expires < 2 ^ 53) (hremaining : 1 ≤ remaining ∧ remaining ≤ 100)
    : isInvalidMetadata ⟨Shared.toBase64Url header, .ofNat expires, .ofNat remaining⟩ = false := by
  have hlength : (Shared.toBase64Url header).length ≤ 2731 := by
    rw [Shared.length_toBase64Url]
    omega
  simp only [isInvalidMetadata, isInteger_ofNat, lessThan_ofNat, greaterThan_ofNat,
    JsNumber.safeInteger?_ofNat hexpires, Option.isNone_some, Bool.not_true, Bool.or_false,
    Bool.or_eq_false_iff, decide_eq_false_iff_not]
  omega

-- A save that reports the number of its outputs.
theorem write_bind (written : Except Failure Unit) (n : Nat)
    : ((⟨[], written⟩ : Exchange Unit) >>= fun _ => (pure n : Exchange Nat))
        = ⟨[], written.map fun _ => n⟩ := by
  cases written with
  | error failure => rfl
  | ok _ => rfl

def outputCount (content : Shared.ContentInput) : Nat :=
  content.files.length + if content.text ≠ [] then 1 else 0

section

variable {sending : Sending crypto unicode} {packet : Server.Packet} {peek : JsString}
variable {prepared : Shared.PreparedOpen} {receiver : Surroundings} {origin url : JsString}

theorem Opens.bytes (h : Opens sending packet peek prepared) : packet.bytes = sending.note.packet := by
  rcases serverParsePacket_eq_ok_iff.mp h.parsed with ⟨value, ciphertext, hframed, rfl⟩
  rfl

theorem Opens.admitted (h : Opens sending packet peek prepared) : Store.Admitted packet := by
  rw [Store.Admitted, h.bytes]
  exact h.parsed

theorem Opens.policy (h : Opens sending packet peek prepared)
    : 1 ≤ packet.header.ttl ∧ packet.header.ttl ≤ 604800 ∧ 1 ≤ packet.header.views ∧ packet.header.views ≤ 100
      ∧ 1 ≤ packet.headerBytes.length ∧ packet.headerBytes.length ≤ 2048 := by
  rcases serverParsePacket_eq_ok_iff.mp h.parsed with ⟨value, ciphertext, hframed, rfl⟩
  have httl : 1 ≤ value.ttl.1 ∧ value.ttl.1 ≤ 604800 := by
    have := value.ttl.2
    omega
  have hheader : 1 ≤ value.bytes.length ∧ value.bytes.length ≤ 2048 := value.length_bytes_bounds
  exact ⟨httl.1, httl.2, value.views.2.1, value.views.2.2, hheader⟩

theorem receive_sends_metadata {id secret : ByteString 32} (hopens : Opens sending packet peek prepared)
    (hid : sending.note.id = Shared.toBase64Url id) (hsecret : sending.note.secret = Shared.toBase64Url secret)
    (hlocated : Located parseUrl origin url id secret) (hrecipient : Recipient receiver url sending.passphrase)
    : .metadata sending.note.id peek ∈ (receive crypto unicode parseUrl receiver).requests := by
  have hpeek := hopens.derived
  rw [hid, hsecret] at hpeek
  have hcapability : isCapability (Shared.toBase64Url id) = true := isCapability_toBase64Url id.2
  rw [receive_eq hrecipient hlocated hpeek, hid, Exchange.mem_requests_bind]
  refine .inl ?_
  rw [metadata, request_of_valid hcapability hopens.tokens.1]
  exact Exchange.mem_sent_bind _ _ _

-- What `receive` does once it has been told of the note.
theorem receive_told {id secret : ByteString 32} (hopens : Opens sending packet peek prepared)
    (hid : sending.note.id = Shared.toBase64Url id) (hsecret : sending.note.secret = Shared.toBase64Url secret)
    (hlocated : Located parseUrl origin url id secret) (hrecipient : Recipient receiver url sending.passphrase)
    {expires remaining : Nat} (hheader : packet.headerBytes.length ≤ 2048) (hexpires : expires < 2 ^ 53)
    (hremaining : 1 ≤ remaining ∧ remaining ≤ 100)
    (htold : receiver.metadata
      = .ok ⟨Shared.toBase64Url packet.headerBytes, .ofNat expires, .ofNat remaining⟩)
    : receive crypto unicode parseUrl receiver
        = let rest : Exchange Nat := do
            let packet ← (⟨[.openNote sending.note.id prepared.readToken], receiver.packet⟩ : Exchange Bytes)
            let content ← .ofShared (Shared.decrypt crypto unicode packet prepared)
            let _ ← (⟨[], receiver.writeContent content⟩ : Exchange Unit)
            return outputCount content
          ⟨.metadata sending.note.id peek :: rest.requests, rest.result⟩ := by
  have hpeek := hopens.derived
  have hprepares := hopens.prepares
  rw [HeaderValue.ofString_encodeUrlSafe] at hprepares
  rw [hid, hsecret] at hpeek hprepares
  have hcapability : isCapability (Shared.toBase64Url id) = true := isCapability_toBase64Url id.2
  have hmetadata : metadata (Shared.toBase64Url id) peek receiver.metadata
      = ⟨[.metadata (Shared.toBase64Url id) peek],
        .ok ⟨Shared.toBase64Url packet.headerBytes, .ofNat expires, .ofNat remaining⟩⟩ := by
    rw [metadata, request_of_valid hcapability hopens.tokens.1, htold, Exchange.sent_ok_bind,
      if_neg (by simp [isInvalidMetadata_eq_false hheader hexpires hremaining])]
    rfl
  rw [receive_eq hrecipient hlocated hpeek, hmetadata, Exchange.sent_ok_bind, Exchange.ofCli_ok_bind,
    hprepares, Exchange.ofShared_ok_bind, request_of_valid hcapability hopens.tokens.2.1, hid]
  rfl

-- What a recipient is given by a server that has stored the packet.
theorem receive_delivers (hopens : Opens sending packet peek prepared) {id secret : ByteString 32}
    (hid : sending.note.id = Shared.toBase64Url id) (hsecret : sending.note.secret = Shared.toBase64Url secret)
    (hlocated : Located parseUrl origin url id secret) (hrecipient : Recipient receiver url sending.passphrase)
    {describing checking opening : Server.Cache} {second first last middle : Nat}
    (hdated : second + 604800 < 2 ^ 53) (hfirst : first < packet.header.views)
    (hdescribes : Store.Available describing packet second first)
    (hchecks : Store.Available checking packet second middle)
    (hgives : Store.Available opening packet second last)
    (hreplied : Replied crypto describing checking opening receiver
      (receive crypto unicode parseUrl receiver).requests)
    : receive crypto unicode parseUrl receiver
        = ⟨[.metadata sending.note.id peek, .openNote sending.note.id prepared.readToken],
          (receiver.writeContent (Shared.normalized unicode sending.input)).map
            fun _ => outputCount (Shared.normalized unicode sending.input)⟩ := by
  rcases hopens.policy with ⟨hpositive, httl, -, hviews, hheader⟩
  have hexpires : 1 ≤ second + packet.header.ttl ∧ second + packet.header.ttl < 2 ^ 53 := by omega
  have hremaining : 1 ≤ packet.header.views - first ∧ packet.header.views - first ≤ 100 := by omega
  rcases hopens.peek with ⟨peekText, hpeekText, hpeekHash⟩
  rcases hopens.read with ⟨readText, hreadText, hreadHash⟩
  have hasked : .metadata (JsString.ofString packet.header.id) (JsString.ofString peekText)
      ∈ (receive crypto unicode parseUrl receiver).requests := by
    rw [hpeekText, ← hopens.id]
    exact receive_sends_metadata hopens hid hsecret hlocated hrecipient
  rcases hreplied.metadata _ _ _ _ hasked hpeekHash hdescribes.metadata with ⟨response, hdelivers, htold⟩
  have htold := htold _ (metadata_accepted hheader hexpires hremaining hdelivers).2
  have hreceive : receive crypto unicode parseUrl receiver = _ :=
    receive_told hopens hid hsecret hlocated hrecipient hheader.2 hexpires.2 hremaining htold
  have hopened : .openNote (JsString.ofString packet.header.id) (JsString.ofString readText)
      ∈ (receive crypto unicode parseUrl receiver).requests := by
    rw [hreceive, hreadText, ← hopens.id]
    exact List.mem_cons_of_mem _ (Exchange.mem_sent_bind _ _ _)
  have hgiven : opening.call Store.allowAll (.access (Server.asBytes packet.header.id)
      (Server.asBytes packet.header.read) .openNote) >>= Server.packetOf = .ok packet.bytes := by
    rw [hgives.openNote]
    rfl
  rcases hreplied.packet _ _ _ _ hopened hreadHash hchecks.checkOpen hgiven
    with ⟨config, head, page, response, hcarries, hpacket⟩
  have hpacket : receiver.packet = .ok packet.bytes :=
    hpacket _ (hcarries.packet rfl getAll_contentType rfl hopens.admitted.length_le).2
  rw [hreceive, hpacket, hopens.bytes]
  dsimp only
  rw [Exchange.sent_ok_bind, hopens.decrypts, Exchange.ofShared_ok_bind, write_bind]

end

/--
What `send` has posted can be received: from a server that has stored the packet, and whose cache refuses no
write, whoever has the printed link and the passphrase gets the content that was sent, in one request for its
header and one for itself, if the server admits both and its replies arrive whole.
-/
theorem handoff (hcrypto : crypto.Lawful) (hunicode : unicode.Lawful) (hurls : UrlLaws parseUrl)
    {sender : SendSurroundings} {output : JsString}
    (hsent : (send crypto unicode parseUrl sender).result = .ok output)
    : ∃ (origin challenge nonce url : JsString) (sending : Sending crypto unicode) (packet : Server.Packet),
      (send crypto unicode parseUrl sender).log
          = [⟨origin, .challenge⟩, ⟨origin, .create sending.note.packet challenge nonce⟩]
        ∧ Outset crypto unicode parseUrl sender origin sending
        ∧ Server.parsePacket sending.note.packet = .ok packet
        ∧ makeShareLink parseUrl origin sending.note.id sending.note.secret = .ok url
        ∧ Holds output url sending.note.id sending.note.revokeToken
        ∧ ∀ (maxNotes maxBytes : Nat) (cache created opening : Server.Cache)
            (asked checked later : List Server.Event) (answers : List Server.Answer) (receiver : Surroundings),
          Store.Deposited maxNotes maxBytes cache packet created
            → Store.Keeping maxNotes maxBytes packet (cache.now / 1000) created
              (asked ++ (checked ++ later)) opening answers
            → opening.now * 1000 < 2 ^ 63
            → Recipient receiver url sending.passphrase
            → let session := receive crypto unicode parseUrl receiver
              Replied crypto (created.run asked).1 (created.run (asked ++ checked)).1 opening receiver
                  session.requests
                → ∃ peek read, session.requests
                    = [.metadata sending.note.id peek, .openNote sending.note.id read]
                  ∧ session.result = (receiver.writeContent (Shared.normalized unicode sending.input)).map
                    fun _ => outputCount (Shared.normalized unicode sending.input) := by
  have hprogress : Progress crypto unicode parseUrl sender (send crypto unicode parseUrl sender) :=
    send_progress sender
  generalize send crypto unicode parseUrl sender = session at hsent hprogress
  cases hprogress with
  | unready => cases hsent
  | asked => cases hsent
  | @posted result origin nonce challenge sending houtset hchallenge hsolved hconfirmed =>
    rcases exists_opens hcrypto hunicode sending with ⟨packet, peek, prepared, hopens⟩
    rcases hopens.link with ⟨id, secret, hid, hsecret⟩
    rcases exists_located hurls houtset.server id secret with ⟨url, hlocated⟩
    rcases (hconfirmed output hsent).named with ⟨_, -, -, expiresAt, other, hexpires, hother, rfl⟩
    have hsame : other = url := by
      have hmade := hlocated.made
      rw [← hid, ← hsecret] at hmade
      exact Except.ok.inj (hother.symm.trans hmade)
    subst hsame
    refine ⟨origin, challenge.challenge, nonce, other, sending, packet, rfl, houtset,
      hopens.parsed, hother, holds_receipt other _ _ hexpires, ?_⟩
    intro maxNotes maxBytes cache created opening asked checked later answers receiver hdeposited hkeeping
      hclock hrecipient session hreplied
    have hdated := hkeeping.dated hdeposited hclock
    have hexpires : cache.now / 1000 + packet.header.ttl < 2 ^ 53 := by
      have httl := hopens.policy.2.1
      omega
    have hasked := hkeeping.of_append
    have hgrouped := hkeeping
    rw [← List.append_assoc] at hgrouped
    have hviews := hasked.views
    have hreceives := receive_delivers hopens hid hsecret hlocated hrecipient hdated hviews
      (Store.available_of_keeping hdeposited hasked hexpires)
      (Store.available_of_keeping hdeposited hgrouped.of_append hexpires)
      (Store.available_of_keeping hdeposited hkeeping hexpires) hreplied
    exact ⟨peek, prepared.readToken, congrArg Exchange.requests hreceives, congrArg Exchange.result hreceives⟩

theorem ofString_injective {text other : String} (h : JsString.ofString text = JsString.ofString other)
    : text = other :=
  String.toList_injective (JsString.ofChars_injective h)

-- A recipient who has been given the link by hand, and what a server with the note answers.
def exampleReceiver (packet : Server.Packet) : Surroundings where
  output := some (JsString.ofString "received")
  server := none
  passphraseFile := exampleSend.passphraseFile
  destination := .ok true
  stdin := Shared.encoderEncode (shareLink exampleOrigin exampleRandomness.id exampleRandomness.master)
  metadata := .ok ⟨Shared.toBase64Url packet.headerBytes, .ofNat packet.header.ttl,
    .ofNat packet.header.views⟩
  packet := .ok packet.bytes
  writeContent _ := .ok ()

theorem replied_exampleReceiver {sending : Sending crypto unicode} {packet : Server.Packet} {peek : JsString}
    {prepared : Shared.PreparedOpen} (hopens : Opens sending packet peek prepared) {origin url : JsString}
    {id secret : ByteString 32} (hid : sending.note.id = Shared.toBase64Url id)
    (hsecret : sending.note.secret = Shared.toBase64Url secret) (hlocated : Located parseUrl origin url id secret)
    (hrecipient : Recipient (exampleReceiver packet) url sending.passphrase) {created : Server.Cache}
    (havailable : Store.Available created packet 0 0)
    : Replied crypto created created created (exampleReceiver packet)
        (receive crypto unicode parseUrl (exampleReceiver packet)).requests := by
  rcases hopens.policy with ⟨hpositive, httl, hviews, hlimit, hheader⟩
  rcases hopens.peek with ⟨peekText, hpeekText, hpeekHash⟩
  rcases hopens.read with ⟨readText, hreadText, hreadHash⟩
  have hexpires : 1 ≤ 0 + packet.header.ttl ∧ 0 + packet.header.ttl < 2 ^ 53 := by omega
  have hremaining : 1 ≤ packet.header.views - 0 ∧ packet.header.views - 0 ≤ 100 := by omega
  have hrequests : (receive crypto unicode parseUrl (exampleReceiver packet)).requests
      = [.metadata sending.note.id peek, .openNote sending.note.id prepared.readToken] := by
    have htold := receive_told hopens hid hsecret hlocated hrecipient hheader.2 (by omega) ⟨hviews, hlimit⟩ rfl
    have hpacket : (exampleReceiver packet).packet = .ok sending.note.packet := congrArg Except.ok hopens.bytes
    rw [htold, hpacket]
    dsimp only
    rw [Exchange.sent_ok_bind, hopens.decrypts, Exchange.ofShared_ok_bind, write_bind]
  rw [hrequests]
  constructor
  . intro note token hash reply hrequest hhash hreply
    simp only [List.mem_cons, Request.metadata.injEq, reduceCtorEq, List.not_mem_nil, or_false] at hrequest
    rw [hopens.id, ← hpeekText] at hrequest
    rcases hrequest with ⟨hnote, htoken⟩
    cases ofString_injective hnote
    cases ofString_injective htoken
    cases hhash.symm.trans hpeekHash
    cases hreply.symm.trans havailable.metadata
    refine ⟨_, delivers_exampleReply _, ?_⟩
    intro metadata hmetadata
    rw [(metadata_accepted hheader hexpires hremaining (delivers_exampleReply _)).2] at hmetadata
    cases hmetadata
    rw [Nat.zero_add, Nat.sub_zero]
    rfl
  . intro note token hash bytes hrequest hhash hchecked hopened
    simp only [List.mem_cons, Request.openNote.injEq, reduceCtorEq, List.not_mem_nil, or_false,
      false_or] at hrequest
    rw [hopens.id, ← hreadText] at hrequest
    rcases hrequest with ⟨hnote, htoken⟩
    cases ofString_injective hnote
    cases ofString_injective htoken
    cases hhash.symm.trans hreadHash
    rw [havailable.openNote] at hopened
    cases hopened
    refine ⟨.default, Server.exampleCall, ⟨200, [], []⟩, _, carries_inOnePiece _, ?_⟩
    intro given hgiven
    rw [((carries_inOnePiece _).packet rfl getAll_contentType rfl hopens.admitted.length_le).2] at hgiven
    cases hgiven
    rfl

end

theorem recipient_exampleReceiver (packet : Server.Packet) {passphrase : JsString}
    (hpassphrase : Cli.passphrase exampleSend.passphraseFile = .ok passphrase)
    : Recipient (exampleReceiver packet)
        (shareLink exampleOrigin exampleRandomness.id exampleRandomness.master) passphrase where
  output := List.cons_ne_nil _ _
  empty := rfl
  server := rfl
  link := by
    have hwellFormed : JsString.WellFormed
        (shareLink exampleOrigin exampleRandomness.id exampleRandomness.master) := by
      decide +kernel
    refine ⟨shareLink exampleOrigin exampleRandomness.id exampleRandomness.master, ?_, by decide +kernel⟩
    unfold stdin exampleReceiver
    dsimp only
    rw [if_neg (by decide +kernel), decodeFatal, Shared.encoderEncode, Utf8.decode?_encode]
    dsimp only
    rw [hwellFormed]
  passphrase := hpassphrase

theorem located_exampleParse (id secret : ByteString 32)
    : Located exampleParse exampleOrigin (shareLink exampleOrigin id secret) id secret := by
  have hplace : exampleParse exampleOrigin = some exampleLocation := by
    unfold exampleParse
    exact if_pos rfl
  have hserver : IsServer exampleLocation := ⟨by decide, ⟨by decide, by decide⟩, .inl rfl⟩
  rcases exists_located urlLaws_exampleParse serverOrigin_exampleParse id secret with ⟨url, hlocated⟩
  have hmade := makeShareLink_eq_ok hplace hserver rfl rfl rfl id secret
  cases hmade.symm.trans hlocated.made
  exact hlocated

-- The posted packet reaches a server, and the link that was printed for it brings the content back.
theorem handoff_exampleSend
    : ∃ (sending : Sending Crypto.plain Shared.Unicode.ascii) (packet : Server.Packet)
        (cache created : Server.Cache),
      Store.Deposited Server.Config.new.maxNotes Server.Config.new.maxStorageBytes cache packet created
        ∧ sending.note.packet = packet.bytes
        ∧ (receive Crypto.plain Shared.Unicode.ascii exampleParse (exampleReceiver packet)).result
          = .ok (outputCount (Shared.normalized Shared.Unicode.ascii sending.input)) := by
  rcases handoff Crypto.plain_lawful Shared.Unicode.ascii_lawful urlLaws_exampleParse send_exampleSend
    with ⟨origin, challenge, nonce, url, sending, packet, -, houtset, hpacket, hurl, -, hreceives⟩
  rcases exists_opens Crypto.plain_lawful Shared.Unicode.ascii_lawful sending
    with ⟨packet', peek, prepared, hopens⟩
  cases hpacket.symm.trans hopens.parsed
  rcases create_inv Crypto.plain_lawful Shared.Unicode.ascii_lawful sending.created
    with ⟨ttl, views, clear, -, -, -, hnote⟩
  rw [houtset.random] at hnote
  have hid : sending.note.id = Shared.toBase64Url exampleRandomness.id := congrArg Shared.CreatedNote.id hnote
  have hsecret : sending.note.secret = Shared.toBase64Url exampleRandomness.master :=
    congrArg Shared.CreatedNote.secret hnote
  have horigin : origin = exampleOrigin := Except.ok.inj (houtset.server.symm.trans serverOrigin_exampleParse)
  have hlocated := located_exampleParse exampleRandomness.id exampleRandomness.master
  rw [horigin, hid, hsecret] at hurl
  cases hurl.symm.trans hlocated.made
  have hrecipient := recipient_exampleReceiver packet houtset.passphrase
  rcases hopens.policy with ⟨hpositive, -, hviews, -, hheader⟩
  have hlength := hopens.admitted.length_le
  rcases Store.exists_deposited hopens.admitted (by
    have hmax : Server.maxPacketBytes ≤ 2 ^ 26 + 2 ^ 17 := by decide
    omega) with ⟨cache, created, hnow, hdeposited⟩
  have hcreated := hdeposited.now
  have hkeeping : Store.Keeping Server.Config.new.maxNotes Server.Config.new.maxStorageBytes packet
      (cache.now / 1000) created ([] ++ ([] ++ [])) created [] := by
    refine ⟨rfl, nofun, nofun, ?_, ?_⟩
    . rw [List.countP_nil]
      omega
    . omega
  have havailable := Store.available_of_keeping hdeposited hkeeping (by
    have httl := hopens.policy.2.1
    omega)
  rw [hnow] at havailable
  have hreceived := hreceives _ _ cache created created [] [] [] [] (exampleReceiver packet) hdeposited hkeeping
    (by omega) hrecipient (replied_exampleReceiver hopens hid hsecret hlocated hrecipient havailable)
  rcases hreceived with ⟨_, _, -, hresult⟩
  exact ⟨sending, packet, cache, created, hdeposited, hopens.bytes.symm, hresult⟩

end Cli
