import Erase.Cli.Send
import Erase.Client.Acceptance
import Erase.Protocol.Bucketing
import Erase.Protocol.Proof
import Erase.Protocol.Sending
import Erase.Shared.Canonical

/-!
What `send` asks of a server, in which order, and what the receipt that it prints is good for.
-/

open Protocol Client

namespace Cli

open Dialogue

section

variable (crypto : Crypto) (unicode : Shared.Unicode) (parseUrl : JsString → Option Location)

-- What `send` has found and made before it sends anything.
structure Outset (surroundings : SendSurroundings) (origin : JsString)
    (sending : Sending crypto unicode) : Prop where
  server : serverOrigin parseUrl (surroundings.server.getD defaultServer) = .ok origin
  gathered : Gathered unicode surroundings sending.input
  passphrase : Cli.passphrase surroundings.passphraseFile = .ok sending.passphrase
  ttl : number surroundings.ttl = some sending.options.ttl
  views : number surroundings.views = some sending.options.views
  random : sending.random = surroundings.random

-- What has come back by the time that the receipt is printed.
structure Confirmed (surroundings : SendSurroundings) (origin : JsString) (note : Shared.CreatedNote)
    (output : JsString) : Prop where
  named : ∃ created, (surroundings.created >>= Api.create) = .ok created
    ∧ created.id = .string note.id ∧ ∃ expiresAt url, created.expiresAt.safeInteger? = some expiresAt
      ∧ makeShareLink parseUrl origin note.id note.secret = .ok url
      ∧ output = (receipt url expiresAt note.id note.revokeToken).pretty 0 ++ [10]

-- How far a call of `send` gets.
inductive Progress (surroundings : SendSurroundings) : Dialogue JsString → Prop where
  | unready {failure : CommandFailure} : Progress surroundings ⟨[], .error failure⟩
  | asked {failure : CommandFailure} {origin : JsString} (sending : Sending crypto unicode)
      (houtset : Outset crypto unicode parseUrl surroundings origin sending)
      : Progress surroundings ⟨[⟨origin, .challenge⟩], .error failure⟩
  | posted {result : Except CommandFailure JsString} {origin nonce : JsString}
      {challenge : Shared.Challenge} (sending : Sending crypto unicode)
      (houtset : Outset crypto unicode parseUrl surroundings origin sending)
      (hchallenge : (surroundings.challenge >>= Api.challenge) = .ok challenge)
      (hsolved : (Shared.solveProof crypto sending.note.packet challenge surroundings.pauses).result
        = .ok nonce)
      (hconfirmed : ∀ output, result = .ok output
        → Confirmed parseUrl surroundings origin sending.note output)
      : Progress surroundings
          ⟨[⟨origin, .challenge⟩, ⟨origin, .create sending.note.packet challenge.challenge nonce⟩], result⟩

end

section

variable {crypto : Crypto} {unicode : Shared.Unicode} {parseUrl : JsString → Option Location}
variable {surroundings : SendSurroundings}

theorem createNote_eq_ok {input : Shared.ContentInput} {note : Shared.CreatedNote}
    (h : createNote crypto unicode surroundings input = .ok note)
    : ∃ sending : Sending crypto unicode, sending.input = input ∧ sending.note = note
        ∧ sending.random = surroundings.random
        ∧ Cli.passphrase surroundings.passphraseFile = .ok sending.passphrase
        ∧ number surroundings.ttl = some sending.options.ttl
        ∧ number surroundings.views = some sending.options.views := by
  unfold createNote at h
  rw [Except.bind_eq_ok] at h
  rcases h with ⟨passphrase, hpassphrase, h⟩
  rw [ofCli_eq_ok] at hpassphrase
  split at h
  . next ttl views httl hviews =>
    exact ⟨⟨_, input, _, note, ofShared_eq_ok.mp h⟩, rfl, rfl, rfl, hpassphrase, httl, hviews⟩
  . cases h

theorem safeInteger?_create {response : Except RequestFailure HttpResponse} {created : CreatedResponse}
    (h : (response >>= Api.create) = .ok created)
    : ∃ expiresAt, created.expiresAt.safeInteger? = some expiresAt := by
  rw [Except.bind_eq_ok] at h
  rcases h with ⟨reply, -, h⟩
  unfold Api.create at h
  simp only [Except.bind_eq_ok, Except.guard_eq_ok] at h
  rcases h with ⟨result, -, -, h⟩
  split at h
  . simp only [Except.guard_eq_ok, isSafeInteger, Bool.or_eq_true, Bool.not_eq_true', not_or,
      Bool.not_eq_false] at h
    rcases h with ⟨⟨-, hsafe⟩, hcreated⟩
    cases hcreated
    exact Option.isSome_iff_exists.mp hsafe
  . cases h

theorem printReceipt_eq_ok {origin output : JsString} {note : Shared.CreatedNote}
    {created : CreatedResponse} (hcreated : (surroundings.created >>= Api.create) = .ok created)
    (h : printReceipt parseUrl origin note created = .ok output)
    : Confirmed parseUrl surroundings origin note output := by
  rcases safeInteger?_create hcreated with ⟨expiresAt, hexpires⟩
  unfold printReceipt at h
  simp only [fail, Except.guard_eq_ok, Except.bind_eq_ok, Bool.not_eq_true', Bool.not_eq_false] at h
  rcases h with ⟨htext, url, hurl, houtput⟩
  cases houtput
  refine ⟨created, hcreated, ?_, expiresAt, url, hexpires, hurl, by rw [hexpires]; rfl⟩
  unfold isText at htext
  split at htext
  . next text hid => rw [hid, of_decide_eq_true htext]
  . cases htext

theorem call_challenge (origin : JsString) (answer : Except RequestFailure α)
    : call origin .challenge answer = Logged.note ⟨origin, .challenge⟩ (ofRequest answer) := rfl

theorem call_create (origin challenge nonce : JsString) (packet : Bytes) (answer : Except RequestFailure α)
    : call origin (.create packet challenge nonce) answer
        = Logged.note ⟨origin, .create packet challenge nonce⟩ (ofRequest answer) := rfl

theorem send_progress (surroundings : SendSurroundings)
    : Progress crypto unicode parseUrl surroundings (send crypto unicode parseUrl surroundings) := by
  unfold send
  cases hserver : ofCli (serverOrigin parseUrl (surroundings.server.getD defaultServer)) with
  | error failure => exact .unready
  | ok origin =>
    rw [Logged.lift_ok_bind]
    cases hinput : readInput unicode surroundings with
    | error failure => exact .unready
    | ok input =>
      rw [Logged.lift_ok_bind]
      cases hnote : createNote crypto unicode surroundings input with
      | error failure => exact .unready
      | ok note =>
        rw [Logged.lift_ok_bind]
        rcases createNote_eq_ok hnote with ⟨sending, rfl, rfl, hrandom, hpassphrase, httl, hviews⟩
        have houtset : Outset crypto unicode parseUrl surroundings origin sending :=
          ⟨ofCli_eq_ok.mp hserver, readInput_eq_ok hinput, hpassphrase, httl, hviews, hrandom⟩
        cases hchallenge : ofRequest (surroundings.challenge >>= Api.challenge) with
        | error failure =>
          rw [call_challenge, hchallenge]
          exact .asked sending houtset
        | ok challenge =>
          rw [call_challenge, hchallenge, Logged.note_ok_bind]
          cases hnonce : ofShared
              (Shared.solveProof crypto sending.note.packet challenge surroundings.pauses).result with
          | error failure => exact .asked sending houtset
          | ok nonce =>
            rw [Logged.lift_ok_bind, call_create]
            have hanswer := ofRequest_eq_ok.mp hchallenge
            have hsolved := ofShared_eq_ok.mp hnonce
            cases hcreated : ofRequest (surroundings.created >>= Api.create) with
            | error failure => exact .posted sending houtset hanswer hsolved nofun
            | ok created =>
              exact .posted sending houtset hanswer hsolved fun output houtput =>
                printReceipt_eq_ok (ofRequest_eq_ok.mp hcreated) houtput

-- What a recipient who knows the link and the passphrase of a note makes of its packet.
structure Opens (sending : Sending crypto unicode) (packet : Server.Packet) (peek : JsString)
    (prepared : Shared.PreparedOpen) : Prop where
  parsed : Server.parsePacket sending.note.packet = .ok packet
  id : sending.note.id = JsString.ofString packet.header.id
  link : ∃ id secret : ByteString 32, sending.note.id = Shared.toBase64Url id
    ∧ sending.note.secret = Shared.toBase64Url secret
  derived : Shared.derivePeek crypto sending.note.secret sending.note.id = .ok peek
  prepares : Shared.prepareOpen crypto (JsString.ofString (Server.encodeUrlSafe packet.headerBytes))
    sending.note.secret sending.note.id sending.passphrase = .ok prepared
  tokens : isCapability peek = true ∧ isCapability prepared.readToken = true
    ∧ isCapability sending.note.revokeToken = true
  peek : HashesTo crypto peek packet.header.peek
  read : HashesTo crypto prepared.readToken packet.header.read
  revoke : HashesTo crypto sending.note.revokeToken packet.header.revoke
  decrypts : Shared.decrypt crypto unicode sending.note.packet prepared
    = .ok (Shared.normalized unicode sending.input)

theorem isCapability_toBase64Url {bytes : Bytes} (h : bytes.length = 32)
    : isCapability (Shared.toBase64Url bytes) = true := by
  simp [isCapability, Shared.length_toBase64Url, h, Shared.all_isBase64Url]

theorem exists_opens (hcrypto : crypto.Lawful) (hunicode : unicode.Lawful)
    (sending : Sending crypto unicode) : ∃ packet peek prepared, Opens sending packet peek prepared := by
  rcases create_inv hcrypto hunicode sending.created
    with ⟨ttl, views, clear, hpack, hwellFormed, hlength, hnote⟩
  let value := valueOf hcrypto sending.random ttl views sending.passphrase
  let keys := keysOf crypto sending.random sending.passphrase
  let ciphertext := crypto.encrypt clear value.bytes sending.random.nonce keys.key
  have hframed : IsFramed (magic ++ Bytes.ofNatBE 4 value.bytes.length ++ value.bytes ++ ciphertext)
      value.bytes ciphertext := isFramed_created hcrypto hunicode hpack value keys.key
  have hread : keys.read.length = 32 := hcrypto.length_hkdf _ _ _
  have hpeek : (peekOf crypto sending.random).length = 32 := hcrypto.length_hkdf _ _ _
  let prepared : Shared.PreparedOpen := {
    header := value.toShared
    headerBytes := value.bytes
    readToken := Shared.toBase64Url keys.read
    key := keys.key }
  refine ⟨⟨sending.note.packet, value.bytes, value.toServer⟩,
    Shared.toBase64Url (peekOf crypto sending.random), prepared, ?_⟩
  constructor
  . rw [hnote]
    exact serverParsePacket_eq_ok_iff.mpr ⟨value, ciphertext, hframed, rfl⟩
  . rw [hnote]
    exact (HeaderValue.ofString_encodeUrlSafe sending.random.id.1).symm
  . rw [hnote]
    exact ⟨_, _, rfl, rfl⟩
  . rw [hnote]
    exact derivePeek_eq_ok sending.random
  . rw [hnote, HeaderValue.ofString_encodeUrlSafe]
    exact prepareOpen_eq_ok hcrypto ttl views hwellFormed hlength
  . rw [hnote]
    exact ⟨isCapability_toBase64Url hpeek, isCapability_toBase64Url hread,
      isCapability_toBase64Url sending.random.revoke.2⟩
  . exact hashesTo hcrypto hpeek
  . exact hashesTo hcrypto hread
  . rw [hnote]
    exact hashesTo hcrypto sending.random.revoke.2
  . rw [hnote]
    exact decrypt_eq_ok hcrypto hunicode hpack ttl views hframed

-- The bits of an accepted challenge are a count from 1 to 24.
theorem bits_challenge {response : Except RequestFailure HttpResponse} {challenge : Shared.Challenge}
    (h : (response >>= Api.challenge) = .ok challenge)
    : ∃ bits : Nat, challenge.bits = .ofNat bits ∧ 1 ≤ bits ∧ bits ≤ 24 := by
  rw [Except.bind_eq_ok] at h
  rcases h with ⟨reply, -, h⟩
  unfold Api.challenge at h
  simp only [Except.bind_eq_ok, Except.guard_eq_ok] at h
  rcases h with ⟨result, -, -, h⟩
  split at h
  . next text bits expiresAt htext hbits hexpires =>
    simp only [Except.guard_eq_ok, Bool.or_eq_true, Bool.not_eq_true', not_or, Bool.not_eq_false,
      Bool.not_eq_true] at h
    rcases h with ⟨⟨⟨⟨hinteger, hlow⟩, hhigh⟩, -⟩, hchallenge⟩
    cases hchallenge
    exact JsNumber.exists_ofNat hinteger hlow hhigh
  . cases h

theorem isExact_receipt {created : CreatedResponse} {expiresAt : Int} (url id token : JsString)
    (h : created.expiresAt.safeInteger? = some expiresAt)
    : (receipt url expiresAt id token).IsExact := by
  have hsafe : expiresAt.natAbs < 2 ^ 53 := by
    cases hnumber : created.expiresAt with
    | infinite negative =>
      rw [hnumber] at h
      cases h
    | finite value =>
      rw [hnumber] at h
      rw [JsNumber.safeInteger?, Option.ite_none_right_eq_some, Option.some.injEq] at h
      rcases h with ⟨⟨-, hlimit⟩, rfl⟩
      rw [JsNumber.maxSafeInteger, Int.abs_eq_natAbs] at hlimit
      omega
  have hkeys : [JsString.ofString "url", JsString.ofString "expires_at", JsString.ofString "revoke"].Nodup := by
    decide
  have hnames : [JsString.ofString "id", JsString.ofString "token"].Nodup := by decide
  exact ⟨hkeys, trivial, hsafe, ⟨hnames, trivial, trivial, trivial⟩, trivial⟩

-- What the text of a receipt holds, once it is parsed.
structure Holds (output url id token : JsString) : Prop where
  record : ∃ record, JsValue.parse? output = some record ∧ isObject record = true
    ∧ getString record "url" = some url
    ∧ getString (revocationOf record) "id" = some id
    ∧ getString (revocationOf record) "token" = some token
  bytes : ∀ limit, (Shared.encoderEncode output).length ≤ limit
    → stdin (Shared.encoderEncode output) limit = .ok output

theorem holds_receipt {created : CreatedResponse} {expiresAt : Int} (url id token : JsString)
    (h : created.expiresAt.safeInteger? = some expiresAt)
    : Holds ((receipt url expiresAt id token).pretty 0 ++ [10]) url id token where
  record := by
    refine ⟨_, JsValue.Tree.parse?_pretty (isExact_receipt url id token h) (by decide), ?_, ?_, ?_, ?_⟩
    . rfl
    . rfl
    . rfl
    . rfl
  bytes limit hlimit := by
    have hpaired := (JsValue.Tree.paired_pretty (receipt url expiresAt id token) 0).append
      (JsValue.Tree.paired_ascii (show ∀ unit ∈ [(10 : UInt16)], unit.toNat < 128 by simp))
    have hwellFormed := hpaired.wellFormed
    unfold stdin
    rw [if_neg (by omega), decodeFatal, Shared.encoderEncode, Utf8.decode?_encode]
    dsimp only
    rw [hwellFormed]

-- An accepted server is a parsed origin of the web.
structure IsServer (url : Location) : Prop where
  onion : endsWith (JsString.ofString ".onion") (withoutRoot url.hostname) = false
  i2p : withoutRoot url.hostname ≠ JsString.ofString "i2p"
    ∧ endsWith (JsString.ofString ".i2p") (withoutRoot url.hostname) = false
  protocol : url.protocol = JsString.ofString "https:"
    ∨ url.protocol = JsString.ofString "http:" ∧ isLocal url.hostname = true

theorem serverOrigin_eq_ok {input origin : JsString}
    : serverOrigin parseUrl input = .ok origin
        ↔ ∃ url, parseUrl input = some url ∧ IsServer url ∧ url.username = [] ∧ url.password = []
          ∧ url.search = [] ∧ url.hash = [] ∧ (url.pathname = [] ∨ url.pathname = JsString.ofString "/")
          ∧ origin = url.origin := by
  unfold serverOrigin
  cases parseUrl input with
  | none => simp
  | some url =>
    simp only [Except.guard_eq_ok, Option.some.injEq, exists_eq_left', Bool.or_eq_true, Bool.and_eq_true,
      Bool.not_eq_true', Bool.or_eq_false_iff, Bool.and_eq_false_iff, decide_eq_true_eq,
      decide_eq_false_iff_not, not_or, not_and, not_not, Bool.not_eq_true, ne_eq]
    constructor
    . rintro ⟨honion, hi2p, ⟨⟨⟨⟨⟨husername, hpassword⟩, hsearch⟩, hhash⟩, hpath⟩, hprotocol⟩, horigin⟩
      cases horigin
      refine ⟨⟨honion, hi2p, ?_⟩, husername, hpassword, hsearch, hhash, ?_, rfl⟩
      . by_cases hhttps : url.protocol = JsString.ofString "https:"
        . exact .inl hhttps
        . have hlocal := hprotocol hhttps
          simp only [Bool.not_eq_false] at hlocal
          exact .inr hlocal
      . by_cases hempty : url.pathname = []
        . exact .inl hempty
        . exact .inr (hpath hempty)
    . rintro ⟨⟨honion, hi2p, hprotocol⟩, husername, hpassword, hsearch, hhash, hpath, rfl⟩
      refine ⟨honion, hi2p, ⟨⟨⟨⟨⟨husername, hpassword⟩, hsearch⟩, hhash⟩, ?_⟩, ?_⟩, rfl⟩
      . intro hempty
        exact hpath.resolve_left hempty
      . intro hhttps
        have hlocal := hprotocol.resolve_left hhttps
        simpa using hlocal

def atOrigin (url : Location) (pathname hash : JsString) : Location :=
  { url with username := [], password := [], pathname, search := [], hash }

-- How the platform parses an origin that it has serialized, and a link below it.
structure UrlLaws (parseUrl : JsString → Option Location) : Prop where
  origin : ∀ text url, parseUrl text = some url → IsServer url
    → parseUrl url.origin = some (atOrigin url (JsString.ofString "/") [])
  link : ∀ text url (id secret : ByteString 32), parseUrl text = some url → IsServer url
    → parseUrl (url.origin ++ (JsString.ofString "/view"
        ++ Shared.shareHash (Shared.toBase64Url id) (Shared.toBase64Url secret)))
      = some (atOrigin url (JsString.ofString "/view")
        (Shared.shareHash (Shared.toBase64Url id) (Shared.toBase64Url secret)))

-- The parts of an accepted server that a link keeps.
structure Located (parseUrl : JsString → Option Location) (origin url : JsString)
    (id secret : ByteString 32) : Prop where
  server : serverOrigin parseUrl origin = .ok origin
  made : makeShareLink parseUrl origin (Shared.toBase64Url id) (Shared.toBase64Url secret) = .ok url
  parsed : ∃ place, parseUrl url = some place ∧ place.origin = origin
    ∧ Shared.isShareUrl place.toUrl = true
    ∧ place.hash = Shared.shareHash (Shared.toBase64Url id) (Shared.toBase64Url secret)

theorem validateId_toBase64Url (id : ByteString 32) : Shared.validateId (Shared.toBase64Url id) = .ok () := by
  rw [Shared.validateId, (Shared.fromBase64Url_exact (by decide)).mpr ⟨rfl, id.2⟩]
  rfl

def shareLink (origin : JsString) (id secret : ByteString 32) : JsString :=
  origin ++ (JsString.ofString "/view"
    ++ Shared.shareHash (Shared.toBase64Url id) (Shared.toBase64Url secret))

theorem makeShareLink_eq_ok {origin : JsString} {place : Location} (hplace : parseUrl origin = some place)
    (hserver : IsServer place) (husername : place.username = []) (hpassword : place.password = [])
    (horigin : place.origin = origin) (id secret : ByteString 32)
    : makeShareLink parseUrl origin (Shared.toBase64Url id) (Shared.toBase64Url secret)
        = .ok (shareLink origin id secret) := by
  have hweb : place.protocol = JsString.ofString "https:" ∨ place.protocol = JsString.ofString "http:" := by
    rcases hserver.protocol with hhttps | hhttp
    . exact .inl hhttps
    . exact .inr hhttp.1
  unfold makeShareLink
  rw [hplace]
  dsimp only [Option.elim_some, ofCli, Except.mapError, Except.ok_bind]
  rw [if_neg (by rcases hweb with h | h <;> simp [husername, hpassword, horigin, h]),
    validateId_toBase64Url]
  dsimp only [ofShared, Except.mapError, Except.ok_bind]
  rw [(Shared.fromBase64Url_exact (by decide)).mpr ⟨rfl, secret.2⟩, horigin]
  rfl

theorem exists_located (hurls : UrlLaws parseUrl) {input origin : JsString}
    (h : serverOrigin parseUrl input = .ok origin) (id secret : ByteString 32)
    : ∃ url, Located parseUrl origin url id secret := by
  rcases serverOrigin_eq_ok.mp h with ⟨place, hplace, hserver, -, -, -, -, -, rfl⟩
  have horigin := hurls.origin input place hplace hserver
  have hlink := hurls.link input place id secret hplace hserver
  have hsame : IsServer (atOrigin place (JsString.ofString "/") []) := ⟨hserver.onion, hserver.i2p, hserver.protocol⟩
  refine ⟨_, ⟨?_, ?_, _, hlink, rfl, ?_, rfl⟩⟩
  . exact serverOrigin_eq_ok.mpr ⟨_, horigin, hsame, rfl, rfl, rfl, rfl, .inr rfl, rfl⟩
  . exact makeShareLink_eq_ok horigin hsame rfl rfl rfl id secret
  . rcases hserver.protocol with hhttps | ⟨hhttp, -⟩
    . simp [Shared.isShareUrl, atOrigin, hhttps]
    . simp [Shared.isShareUrl, atOrigin, hhttp]

/--
`send` asks for one challenge and posts one packet, in this order and never again. It asks for nothing
before the whole input and the packet are at hand, and it prints a receipt for the posted note alone.
-/
theorem send_posts_once (hcrypto : crypto.Lawful) (hunicode : unicode.Lawful)
    (surroundings : SendSurroundings)
    : let session := send crypto unicode parseUrl surroundings
      (session.log = [] ∧ ∃ failure, session.result = .error failure)
      ∨ ∃ (origin : JsString) (sending : Sending crypto unicode) (packet : Server.Packet),
        Outset crypto unicode parseUrl surroundings origin sending
          ∧ Server.parsePacket sending.note.packet = .ok packet
          ∧ (session.log = [⟨origin, .challenge⟩] ∧ (∃ failure, session.result = .error failure)
            ∨ ∃ (challenge : Shared.Challenge) (nonce : JsString) (bits : Nat),
              (surroundings.challenge >>= Api.challenge) = .ok challenge
                ∧ challenge.bits = .ofNat bits
                ∧ session.log = [⟨origin, .challenge⟩,
                  ⟨origin, .create sending.note.packet challenge.challenge nonce⟩]
                ∧ (∀ text, Server.validId text = true → challenge.challenge = JsString.ofString text
                  → ∃ n : Nat, nonce = JsString.ofString (toString n)
                    ∧ Server.verifyWork crypto.sha256 text (toString n) sending.note.packet bits = .ok true)
                ∧ ∀ output, session.result = .ok output → ∃ created url,
                  (surroundings.created >>= Api.create) = .ok created
                    ∧ created.id = .string sending.note.id
                    ∧ makeShareLink parseUrl origin sending.note.id sending.note.secret = .ok url
                    ∧ Holds output url sending.note.id sending.note.revokeToken) := by
  intro session
  have hprogress : Progress crypto unicode parseUrl surroundings session := send_progress surroundings
  clear_value session
  cases hprogress with
  | unready => exact .inl ⟨rfl, _, rfl⟩
  | @asked failure origin sending houtset =>
    rcases exists_opens hcrypto hunicode sending with ⟨packet, peek, prepared, hopens⟩
    exact .inr ⟨origin, sending, packet, houtset, hopens.parsed, .inl ⟨rfl, _, rfl⟩⟩
  | @posted result origin nonce challenge sending houtset hchallenge hsolved hconfirmed =>
    rcases exists_opens hcrypto hunicode sending with ⟨packet, peek, prepared, hopens⟩
    rcases bits_challenge hchallenge with ⟨bits, hbits, hrange⟩
    refine .inr ⟨origin, sending, packet, houtset, hopens.parsed,
      .inr ⟨challenge, nonce, bits, hchallenge, hbits, rfl, ?_, ?_⟩⟩
    . intro text htext hsame
      have hsolved' : (Shared.solveProof crypto sending.note.packet
          ⟨JsString.ofString text, .ofNat bits, challenge.expiresAt⟩ surroundings.pauses).result
            = .ok nonce := by
        rw [← hsame, ← hbits]
        exact hsolved
      rcases solveProof_verifyWork hcrypto htext hrange hsolved' with ⟨n, hnonce, hverified, -⟩
      exact ⟨n, hnonce, hverified⟩
    . intro output houtput
      rcases (hconfirmed output houtput).named with ⟨created, hcreated, hid, expiresAt, url, hexpires, hurl, rfl⟩
      exact ⟨created, url, hcreated, hid, hurl, holds_receipt url _ _ hexpires⟩

theorem call_access {origin id token : JsString} {route : Server.AccessRoute} (hid : isCapability id = true)
    (htoken : isCapability token = true) (answer : Except RequestFailure α)
    : call origin (.access route id token) answer
        = Logged.note ⟨origin, .access route id token⟩ (ofRequest answer) := by
  have hsend : ∃ outgoing, Api.send origin (.access route id token) = .ok outgoing := by
    unfold Api.send Api.options authorization path
    cases route <;> simp only [hid, htoken, Bool.not_true, Bool.false_eq_true, if_false] <;> exact ⟨_, rfl⟩
  rcases hsend with ⟨outgoing, hsend⟩
  unfold call
  rw [hsend]
  rfl

theorem revoke_of_holds {revoker : RevokeSurroundings} {output url id token origin : JsString}
    {place : Location} (hholds : Holds output url id token) (hserver : revoker.server = none)
    (hstdin : revoker.stdin = Shared.encoderEncode output) (hlength : revoker.stdin.length ≤ 8192)
    (hplace : parseUrl url = some place) (hsame : place.origin = origin)
    (horigin : serverOrigin parseUrl origin = .ok origin) (hid : isCapability id = true)
    (htoken : isCapability token = true)
    : revoke parseUrl revoker
        = Logged.note ⟨origin, .access .deleteNote id token⟩ (ofRequest (revoker.response >>= Api.revoke)) := by
  rcases hholds.record with ⟨record, hparsed, hobject, hurl, hrevoked, htokened⟩
  have htext : stdin revoker.stdin 8192 = .ok output := by
    rw [hstdin] at hlength ⊢
    exact hholds.bytes 8192 hlength
  have hchosen : revokeServer parseUrl revoker.server record = .ok origin := by
    rw [hserver, revokeServer, hurl]
    dsimp only
    rw [hplace, Option.elim_some, hsame]
  unfold revoke
  rw [htext]
  simp only [ofCli, Except.mapError, Logged.lift_ok_bind, hparsed, hobject, Bool.not_true,
    Bool.false_eq_true, if_false, hrevoked, htokened, hchosen, horigin]
  exact call_access hid htoken _

/--
A receipt that comes back revokes the note it was printed for: `revoke` asks the server that has been sent
the packet to delete the note, with the token whose hash the packet holds.
-/
theorem receipt_revokes (hcrypto : crypto.Lawful) (hunicode : unicode.Lawful) (hurls : UrlLaws parseUrl)
    {surroundings : SendSurroundings} {output : JsString}
    (hsent : (send crypto unicode parseUrl surroundings).result = .ok output)
    {revoker : RevokeSurroundings} (hserver : revoker.server = none)
    (hstdin : revoker.stdin = Shared.encoderEncode output) (hlength : revoker.stdin.length ≤ 8192)
    : ∃ (origin challenge nonce : JsString) (sending : Sending crypto unicode) (packet : Server.Packet),
      (send crypto unicode parseUrl surroundings).log
          = [⟨origin, .challenge⟩, ⟨origin, .create sending.note.packet challenge nonce⟩]
        ∧ Server.parsePacket sending.note.packet = .ok packet
        ∧ (revoke parseUrl revoker).log
          = [⟨origin, .access .deleteNote (JsString.ofString packet.header.id) sending.note.revokeToken⟩]
        ∧ (revoke parseUrl revoker).result = ofRequest (revoker.response >>= Api.revoke)
        ∧ HashesTo crypto sending.note.revokeToken packet.header.revoke := by
  have hprogress : Progress crypto unicode parseUrl surroundings (send crypto unicode parseUrl surroundings) :=
    send_progress surroundings
  generalize send crypto unicode parseUrl surroundings = session at hsent hprogress
  cases hprogress with
  | unready => cases hsent
  | asked => cases hsent
  | @posted result origin nonce challenge sending houtset hchallenge hsolved hconfirmed =>
    rcases exists_opens hcrypto hunicode sending with ⟨packet, peek, prepared, hopens⟩
    rcases hopens.link with ⟨id, secret, hid, hsecret⟩
    rcases exists_located hurls houtset.server id secret with ⟨url, hlocated⟩
    rcases (hconfirmed output hsent).named with ⟨created, -, -, expiresAt, other, hexpires, hother, rfl⟩
    have hsame : other = url := by
      rw [hid, hsecret] at hother
      exact Except.ok.inj (hother.symm.trans hlocated.made)
    subst hsame
    rcases hlocated.parsed with ⟨place, hplace, horigin, -, -⟩
    have hcapability : isCapability sending.note.id = true := by
      rw [hid]
      exact isCapability_toBase64Url id.2
    have hrevoked := revoke_of_holds (holds_receipt other sending.note.id sending.note.revokeToken hexpires)
      hserver hstdin hlength hplace horigin hlocated.server hcapability hopens.tokens.2.2
    refine ⟨origin, challenge.challenge, nonce, sending, packet, rfl, hopens.parsed, ?_, ?_, hopens.revoke⟩
    . rw [hrevoked, hopens.id]
      rfl
    . rw [hrevoked]
      rfl

end

-- The parser on one origin and the links below it.
def exampleOrigin : JsString := JsString.ofString "https://erase.to"

def exampleLocation : Location where
  protocol := JsString.ofString "https:"
  username := []
  password := []
  pathname := JsString.ofString "/"
  search := []
  hash := []
  hostname := JsString.ofString "erase.to"
  origin := exampleOrigin

def exampleParse (text : JsString) : Option Location :=
  let link := exampleOrigin ++ JsString.ofString "/view"
  if text = exampleOrigin then
    some exampleLocation
  else if text.take link.length = link ∧ (text.drop link.length).head? = some 35 then
    some (atOrigin exampleLocation (JsString.ofString "/view") (text.drop link.length))
  else
    none

theorem exampleParse_atOrigin {text : JsString} {url : Location} (h : exampleParse text = some url)
    (pathname hash : JsString) : atOrigin url pathname hash = atOrigin exampleLocation pathname hash := by
  unfold exampleParse at h
  split at h
  . cases h
    rfl
  . dsimp only at h
    split at h
    . cases h
      rfl
    . cases h

theorem urlLaws_exampleParse : UrlLaws exampleParse where
  origin text url h _ := by
    have horigin : url.origin = exampleOrigin := congrArg Location.origin (exampleParse_atOrigin h [] [])
    rw [exampleParse_atOrigin h, horigin]
    rfl
  link text url id secret h _ := by
    have horigin : url.origin = exampleOrigin := congrArg Location.origin (exampleParse_atOrigin h [] [])
    have htext : exampleOrigin ++ (JsString.ofString "/view"
          ++ Shared.shareHash (Shared.toBase64Url id) (Shared.toBase64Url secret))
        = (exampleOrigin ++ JsString.ofString "/view")
          ++ Shared.shareHash (Shared.toBase64Url id) (Shared.toBase64Url secret) :=
      (List.append_assoc ..).symm
    rw [exampleParse_atOrigin h, horigin, htext]
    unfold exampleParse
    rw [if_neg, if_pos]
    . rw [List.drop_left']
      rfl
    . refine ⟨List.take_left' rfl, ?_⟩
      rw [List.drop_left']
      . rfl
      . rfl
    . intro hsame
      have hlength := congrArg List.length hsame
      have hlink : (exampleOrigin ++ JsString.ofString "/view").length = 21 := by decide
      have horigin : exampleOrigin.length = 16 := by decide
      rw [List.length_append] at hlength
      omega

-- The server of the example hands out a challenge of one bit.
def exampleToken : ByteString 32 := ⟨Bytes.ofNatBE 32 0, Bytes.length_ofNatBE _ _⟩

def exampleSend : SendSurroundings where
  server := none
  files := []
  isTTY := false
  stdin := Server.asBytes "no files, but a longer text"
  ttl := JsString.ofString "60"
  views := JsString.ofString "3"
  passphraseFile := none
  random := exampleRandomness
  challenge := .ok (exampleReply (Server.Challenge.toVec ⟨Server.encodeUrlSafe exampleToken, 1, 1⟩))
  pauses := ⟨fun _ => ⟨false, 0⟩, fun _ => ⟨false, 0⟩⟩
  created := .ok (exampleReply (Server.Created.toVec ⟨Server.encodeUrlSafe exampleRandomness.id, 1⟩))

def exampleOutput : JsString :=
  (receipt (shareLink exampleOrigin exampleRandomness.id exampleRandomness.master) 1
    (Shared.toBase64Url exampleRandomness.id) (Shared.toBase64Url exampleRandomness.revoke)).pretty 0 ++ [10]

-- A call of `send` that meets no failure goes to its end.
theorem send_eq_ok {crypto : Crypto} {unicode : Shared.Unicode} {parseUrl : JsString → Option Location}
    {surroundings : SendSurroundings} {origin nonce output : JsString} {input : Shared.ContentInput}
    {note : Shared.CreatedNote} {challenge : Shared.Challenge} {created : CreatedResponse}
    (hserver : serverOrigin parseUrl (surroundings.server.getD defaultServer) = .ok origin)
    (hinput : readInput unicode surroundings = .ok input)
    (hnote : createNote crypto unicode surroundings input = .ok note)
    (hchallenge : (surroundings.challenge >>= Api.challenge) = .ok challenge)
    (hsolved : (Shared.solveProof crypto note.packet challenge surroundings.pauses).result = .ok nonce)
    (hcreated : (surroundings.created >>= Api.create) = .ok created)
    (houtput : printReceipt parseUrl origin note created = .ok output)
    : send crypto unicode parseUrl surroundings = ⟨[⟨origin, .challenge⟩,
        ⟨origin, .create note.packet challenge.challenge nonce⟩], .ok output⟩ := by
  unfold send
  rw [ofCli_eq_ok.mpr hserver, Logged.lift_ok_bind, hinput, Logged.lift_ok_bind, hnote, Logged.lift_ok_bind,
    call_challenge, ofRequest_eq_ok.mpr hchallenge, Logged.note_ok_bind, ofShared_eq_ok.mpr hsolved,
    Logged.lift_ok_bind, call_create, ofRequest_eq_ok.mpr hcreated, Logged.note_ok_bind, houtput]
  rfl

theorem sha256_plain {front : Bytes} (h : 32 ≤ front.length) (rest : Bytes)
    : Crypto.plain.sha256 (front ++ rest) = front.take 32 := by
  change ((front ++ rest) ++ List.replicate 32 0).take 32 = _
  rw [List.append_assoc, List.take_append_of_le_length h]

theorem readInput_exampleSend : readInput Shared.Unicode.ascii exampleSend = .ok exampleText := by
  have htext : stdin exampleSend.stdin Shared.maxTextBytes = .ok exampleText.text := by
    unfold stdin
    rw [if_neg (by decide +kernel)]
    change decodeFatal (Utf8.encode _) = _
    rw [decodeFatal, Utf8.decode?_encode]
    rfl
  unfold readInput readText
  rw [if_neg (by decide), if_neg (by decide), htext]
  rfl

theorem createNote_exampleSend {note : Shared.CreatedNote}
    (h : Shared.create Crypto.plain Shared.Unicode.ascii exampleRandomness exampleText
      ⟨JsNumber.ofNat 60, JsNumber.ofNat 3, some []⟩ = .ok note)
    : createNote Crypto.plain Shared.Unicode.ascii exampleSend exampleText = .ok note := by
  have httl : number (JsString.ofString "60") = some (.ofNat 60) := by
    rw [show JsString.ofString "60" = Ascii.units (Decimal.codes 60) by decide +kernel]
    exact number_codes (by decide)
  have hviews : number (JsString.ofString "3") = some (.ofNat 3) := by
    rw [show JsString.ofString "3" = Ascii.units (Decimal.codes 3) by decide +kernel]
    exact number_codes (by decide)
  have hpassphrase : ofCli (passphrase exampleSend.passphraseFile) = .ok [] := rfl
  have hgiven : exampleSend.ttl = JsString.ofString "60" ∧ exampleSend.views = JsString.ofString "3" := ⟨rfl, rfl⟩
  unfold createNote
  rw [hpassphrase, Except.ok_bind, hgiven.1, hgiven.2, httl, hviews]
  exact ofShared_eq_ok.mpr h

-- The digest of the example begins with the challenge, so the first nonce solves it.
theorem solveProof_exampleSend {packet : Bytes} {parsed : Shared.ParsedPacket}
    (hparsed : Shared.parsePacket packet = .ok parsed)
    : (Shared.solveProof Crypto.plain packet ⟨Shared.toBase64Url exampleToken, .ofNat 1, .ofNat 1⟩
        exampleSend.pauses).result = .ok (Shared.spell 0) := by
  have hbits : ((JsNumber.ofNat 1).safeInteger?.getD 0).toNat = 1 := by decide +kernel
  have htext : Shared.toBase64Url exampleToken.1 = JsString.ofString (Server.encodeUrlSafe exampleToken.1) :=
    (HeaderValue.ofString_encodeUrlSafe exampleToken.1).symm
  have hgood : Shared.isGood 0 1 (Crypto.plain.sha256 (Shared.encoderEncode
      (Shared.toBase64Url exampleToken.1 ++ JsString.ofString "." ++ Shared.hash Crypto.plain packet
        ++ JsString.ofString "." ++ Shared.spell 0))) = true := by
    rw [htext, encoderEncode_proof, Server.workBytes, Server.asBytes_append, Server.asBytes_append,
      Server.asBytes_append, Server.asBytes_append, List.append_assoc, List.append_assoc, List.append_assoc,
      sha256_plain (by decide +kernel)]
    decide +kernel
  rw [Shared.solveProof_of_valid hparsed
    (isInvalidChallenge_base64 exampleToken (by decide) (by decide)), hbits]
  exact Shared.search_of_good (checkPause_example 0) hgood

theorem serverOrigin_exampleParse
    : serverOrigin exampleParse (exampleSend.server.getD defaultServer) = .ok exampleOrigin := by
  apply serverOrigin_eq_ok.mpr
  exact ⟨exampleLocation, rfl, ⟨by decide, ⟨by decide, by decide⟩, .inl rfl⟩, rfl, rfl, rfl, rfl, .inr rfl, rfl⟩

theorem printReceipt_exampleSend {note : Shared.CreatedNote}
    (hid : note.id = Shared.toBase64Url exampleRandomness.id)
    (hsecret : note.secret = Shared.toBase64Url exampleRandomness.master)
    (htoken : note.revokeToken = Shared.toBase64Url exampleRandomness.revoke)
    : printReceipt exampleParse exampleOrigin note
        ⟨.string (Shared.toBase64Url exampleRandomness.id), .ofNat 1⟩ = .ok exampleOutput := by
  have hexpires : (JsNumber.ofNat 1).safeInteger?.getD 0 = 1 := by decide +kernel
  have hserver : IsServer exampleLocation := ⟨by decide, ⟨by decide, by decide⟩, .inl rfl⟩
  have hparse : exampleParse exampleOrigin = some exampleLocation := by
    unfold exampleParse
    exact if_pos rfl
  unfold printReceipt
  rw [hid, hsecret, htoken, if_neg (by simp [isText]),
    makeShareLink_eq_ok hparse hserver rfl rfl rfl exampleRandomness.id exampleRandomness.master]
  dsimp only [Except.ok_bind]
  rw [hexpires]
  rfl

theorem send_exampleSend
    : (send Crypto.plain Shared.Unicode.ascii exampleParse exampleSend).result = .ok exampleOutput := by
  rcases Shared.layOut_extends exampleRandomness.padding (Shared.encoderEncode exampleText.text)
    ((Shared.normalized Shared.Unicode.ascii exampleText).files.map Shared.packedFile) with ⟨clear, hlayOut, -⟩
  have hpack : Shared.pack Shared.Unicode.ascii exampleRandomness.padding exampleText = .ok clear :=
    Shared.pack_eq_ok_iff.mpr ⟨isPackable_exampleText, hlayOut⟩
  have hnote := create_eq_ok Crypto.plain_lawful hpack (clear_blocks Shared.Unicode.ascii_lawful hpack).1
    ⟨60, by decide⟩ ⟨3, by decide⟩ (show JsString.WellFormed ((some []).getD []) by decide) (by decide)
  let sending : Sending Crypto.plain Shared.Unicode.ascii := ⟨_, _, _, _, hnote⟩
  rcases sending.exists_value Crypto.plain_lawful Shared.Unicode.ascii_lawful with ⟨value, hvalue⟩
  have hparsed := sharedParsePacket_eq_ok_iff.mpr ⟨value, _, hvalue.framed, rfl⟩
  have hchallenge : (exampleSend.challenge >>= Api.challenge)
      = .ok ⟨Shared.toBase64Url exampleToken, .ofNat 1, .ofNat 1⟩ := by
    rw [exampleSend, Except.ok_bind]
    exact (challenge_accepted exampleToken (by decide) (by decide) (delivers_exampleReply _)).2
  have hcreated : (exampleSend.created >>= Api.create)
      = .ok ⟨.string (Shared.toBase64Url exampleRandomness.id), .ofNat 1⟩ := by
    rw [exampleSend, Except.ok_bind]
    exact (created_accepted exampleRandomness.id (by decide) (delivers_exampleReply _)).2
  have hsent := send_eq_ok serverOrigin_exampleParse readInput_exampleSend (createNote_exampleSend hnote)
    hchallenge (solveProof_exampleSend hparsed) hcreated (printReceipt_exampleSend rfl rfl rfl)
  rw [hsent]

-- The input of the example is posted with its proof.
theorem send_posts_once_exampleSend
    : ∃ (origin challenge nonce : JsString) (sending : Sending Crypto.plain Shared.Unicode.ascii),
      (send Crypto.plain Shared.Unicode.ascii exampleParse exampleSend).log
          = [⟨origin, .challenge⟩, ⟨origin, .create sending.note.packet challenge nonce⟩]
        ∧ sending.random = exampleRandomness := by
  rcases @send_posts_once Crypto.plain Shared.Unicode.ascii exampleParse Crypto.plain_lawful
    Shared.Unicode.ascii_lawful exampleSend
    with ⟨-, failure, hfailure⟩ | ⟨origin, sending, packet, houtset, -, ⟨-, failure, hfailure⟩
      | ⟨challenge, nonce, bits, -, -, hlog, -⟩⟩
  . cases send_exampleSend.symm.trans hfailure
  . cases send_exampleSend.symm.trans hfailure
  . exact ⟨origin, challenge.challenge, nonce, sending, hlog, houtset.random⟩

def exampleRevoke : RevokeSurroundings where
  server := none
  stdin := Shared.encoderEncode exampleOutput
  response := .error .syntaxError

theorem receipt_revokes_exampleSend
    : ∃ (origin : JsString) (sending : Sending Crypto.plain Shared.Unicode.ascii) (packet : Server.Packet),
      Server.parsePacket sending.note.packet = .ok packet
        ∧ (revoke exampleParse exampleRevoke).log
          = [⟨origin, .access .deleteNote (JsString.ofString packet.header.id) sending.note.revokeToken⟩]
        ∧ HashesTo Crypto.plain sending.note.revokeToken packet.header.revoke := by
  have hserver : exampleRevoke.server = none := rfl
  have hstdin : exampleRevoke.stdin = Shared.encoderEncode exampleOutput := rfl
  rcases receipt_revokes Crypto.plain_lawful Shared.Unicode.ascii_lawful urlLaws_exampleParse send_exampleSend
    hserver hstdin (by decide +kernel)
    with ⟨origin, challenge, nonce, sending, packet, -, hpacket, hlog, -, hhashes⟩
  exact ⟨origin, sending, packet, hpacket, hlog, hhashes⟩

end Cli
