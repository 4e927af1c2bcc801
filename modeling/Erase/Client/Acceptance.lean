import Erase.Client.Replies
import Erase.Store.Described
import Erase.Web.Loading

/-!
Clients take everything that an honest server says: from whatever state its cache has come to, each of
its replies passes the checks of both clients, and the metadata of a note shows that note.
-/

open Protocol

namespace Client

-- What the cache of a server comes to. Its `TIME` is a signed 64-bit count of microseconds.
structure Reached (cache : Server.Cache) : Prop where
  run : ∃ start events answers, (Server.Cache.empty start).run events = (cache, answers)
    ∧ ∀ event ∈ events, Store.Parses event
  dated : cache.now * 1000 < 2 ^ 63

section

variable {config : Server.Config} {cache : Server.Cache} {denied : Server.Site → Bool}
variable {response : HttpResponse}

theorem accepts_publicConfig (hconfig : config.InRange) : Accepts (Server.publicConfig config) where
  protocol := rfl
  content := show 1 ≤ Server.maxContentBytes ∧ Server.maxContentBytes ≤ Shared.maxContentBytes by decide
  text := show 1 ≤ Server.maxTextBytes ∧ Server.maxTextBytes ≤ Shared.maxTextBytes by decide
  files := show 1 ≤ 8 ∧ 8 ≤ Shared.maxFiles by decide
  views := show 1 ≤ 100 ∧ 100 ≤ 100 by decide
  ttl := show 60 ≤ 604800 ∧ 604800 ≤ 604800 by decide
  pow := hconfig.powBits

theorem Reached.ledger (h : Reached cache) : ∃ ledger : Store.Ledger, cache.keys = ledger.keyspace
    ∧ Store.Described cache.now ledger := by
  rcases h.run with ⟨start, events, answers, hrun, hparses⟩
  exact Store.run_described hrun hparses

theorem Reached.second_lt (h : Reached cache) : cache.now / 1000 < 2 ^ 53 - 604800 := by
  have hdated := h.dated
  omega

theorem Reached.challenge_accepted (h : Reached cache) (hconfig : config.InRange)
    {token : ByteString 32}
    {challenge : Server.Challenge}
    (hissue : cache.issue denied config (Server.encodeUrlSafe token) = .ok challenge)
    (hdelivers : Delivers challenge.toVec response)
    : ∃ accepted, Web.Api.challenge response = .ok accepted
        ∧ Cli.Api.challenge response = .ok accepted.toShared
        ∧ Shared.isInvalidChallenge accepted.toShared = false := by
  rcases h.ledger with ⟨ledger, hkeys, -⟩
  have hsecond := h.second_lt
  have hseconds := hconfig.challengeSeconds
  rw [Store.issue_ok hkeys hissue] at hdelivers
  have hexpires : 1 ≤ cache.now / 1000 + config.challengeSeconds
      ∧ cache.now / 1000 + config.challengeSeconds < 2 ^ 53 := by
    omega
  rcases Client.challenge_accepted token hconfig.powBits hexpires hdelivers with ⟨hweb, hcli⟩
  exact ⟨_, hweb, hcli, isInvalidChallenge_base64 token hconfig.powBits.2 hexpires.2⟩

theorem Reached.created_accepted (h : Reached cache) {packet : Server.Packet}
    (hpacket : Store.Admitted packet)
    {challenge : String} {created : Server.Created}
    (hcreate : cache.create denied config packet challenge = .ok created)
    (hdelivers : Delivers created.toVec response)
    : ∃ accepted, Web.Api.create response = .ok accepted
        ∧ Cli.Api.create response = .ok ⟨.string accepted.id, .ofNat accepted.expiresAt⟩
        ∧ accepted.id = JsString.ofString packet.header.id := by
  rcases h.ledger with ⟨ledger, hkeys, -⟩
  rcases hpacket.exists_value with ⟨value, -, hheader⟩
  have hsecond := h.second_lt
  have httl := value.ttl.2
  rw [Store.create_ok hkeys hcreate, hheader] at hdelivers
  have hexpires : 1 ≤ cache.now / 1000 + value.ttl ∧ cache.now / 1000 + value.ttl < 2 ^ 53 := by omega
  rcases Client.created_accepted value.id hexpires hdelivers with ⟨hweb, hcli⟩
  rw [hheader]
  exact ⟨_, hweb, hcli, (HeaderValue.ofString_encodeUrlSafe value.id).symm⟩

theorem Reached.metadata_accepted (h : Reached cache) {id hash : String} {metadata : Server.Metadata}
    (hmetadata : cache.metadata denied id hash = .ok metadata)
    (hdelivers : Delivers metadata.toVec response)
    : ∃ accepted header, Web.Api.metadata response = .ok accepted
        ∧ Cli.Api.metadata response
          = .ok ⟨accepted.header, .ofNat accepted.expiresAt, .ofNat accepted.remaining⟩
        ∧ Shared.decodeHeader accepted.header = .ok header
        ∧ header.id = JsString.ofString id
        ∧ 1 ≤ accepted.remaining ∧ accepted.remaining ≤ header.views := by
  rcases h.ledger with ⟨ledger, hkeys, hdescribed⟩
  rcases Store.metadata_ok hkeys hdescribed hmetadata
    with ⟨value, rfl, hheader, hexpires, hremaining⟩
  have hsecond := h.second_lt
  have httl := value.ttl.2
  have hviews := value.views.2
  rcases metadata with ⟨header, expires, remaining⟩
  dsimp only at hheader hexpires hremaining
  subst hheader
  have hexpires : 1 ≤ expires ∧ expires < 2 ^ 53 := by omega
  have hrange : 1 ≤ remaining ∧ remaining ≤ 100 := by omega
  rcases Client.metadata_accepted value.length_bytes_bounds hexpires hrange hdelivers
    with ⟨hweb, hcli⟩
  refine ⟨_, value.toShared, hweb, hcli, decodeHeader_eq_ok_iff.mpr ⟨value, rfl, rfl⟩, ?_, hremaining⟩
  rw [value.id_toShared]
  exact (HeaderValue.ofString_encodeUrlSafe value.id).symm

-- The server has answered with this metadata for the note `id`.
def Answered (id : JsString) (metadata : Web.Metadata) : Prop :=
  ∃ cache denied note hash, ∃ (reply : Server.Metadata) (response : HttpResponse),
    Reached cache ∧ id = JsString.ofString note
      ∧ cache.metadata denied note hash = .ok reply
      ∧ Delivers reply.toVec response ∧ Web.Api.metadata response = .ok metadata

theorem Answered.header {id : JsString} {metadata : Web.Metadata} (h : Answered id metadata)
    : ∃ header, Shared.decodeHeader metadata.header = .ok header ∧ header.id = id
        ∧ metadata.remaining ≤ header.views := by
  rcases h with ⟨cache, denied, note, hash, reply, response, hreached, rfl, hreply, hdelivers, hweb⟩
  rcases hreached.metadata_accepted hreply hdelivers
    with ⟨accepted, header, hweb', -, hdecoded, hid, -, hviews⟩
  cases hweb.symm.trans hweb'
  exact ⟨header, hdecoded, hid, hviews⟩

-- Whatever happens during a load, answered metadata shows the note when its header has been read.
theorem load_ready {now : Nat} {events : List Web.Event} {page : Web.ReaderPage}
    (hloads : Web.LoadsFollowClears true events)
    (hanswers : Runs.Along Web.Reader.step (Web.Answers Answered) (Web.Reader.mount now) events)
    (hrun : Web.Reader.run (Web.Reader.mount now) events = page) {number : Nat} {ticket : Web.Ticket}
    {metadata : Web.Metadata}
    (hwaiting : page.host.promises.waiting number = some (.loadHeader ticket metadata))
    (hvalid : (page.valid Web.Reader.options ticket).1 = true)
    : ∃ header, Shared.decodeHeader metadata.header = .ok header
        ∧ (Web.Reader.step page (.settle number (.header header))).host.state.phase = .ready := by
  rcases Web.load_shows now hloads hanswers hrun hwaiting hvalid with ⟨hanswered, hshows⟩
  rcases hanswered.header with ⟨header, hdecoded, hid, hviews⟩
  refine ⟨header, hdecoded, ?_⟩
  rw [hshows header hid hviews]
  apply Web.Receiver.phase_shown

-- The worker reads it, in a load that nothing interrupts.
theorem loadEvents_ready {crypto : Crypto} {unicode : Shared.Unicode}
    {parseUrl : JsString → Option Shared.Url} {url token : JsString} {link : Shared.ShareLink}
    {metadata : Web.Metadata} (hlink : Shared.parseShareLink parseUrl url = .ok link)
    (htoken : Shared.derivePeek crypto link.secret link.id = .ok token)
    (hanswered : Answered link.id metadata)
    : (Web.Receiver.run crypto unicode parseUrl (fun _ => true) (Web.Receiver.mount 0)
        (Web.Receiver.loadEvents url metadata)).page.host.state.phase = .ready := by
  rcases hanswered.header with ⟨header, hdecoded, hid, hviews⟩
  rw [Web.Receiver.run_loadEvents hlink htoken hdecoded hid hviews]
  apply Web.Receiver.phase_shown

theorem replies_accepted (hconfig : config.InRange) (hcache : Reached cache)
    (denied : Server.Site → Bool)
    : (∀ response, Delivers (Server.publicConfig config).toVec response
        → ∃ accepted, Web.Api.config response = .ok accepted
          ∧ Agrees accepted (Server.publicConfig config))
      ∧ (∀ (token : ByteString 32) (challenge : Server.Challenge) (response : HttpResponse),
        cache.issue denied config (Server.encodeUrlSafe token) = .ok challenge
          → Delivers challenge.toVec response
          → ∃ accepted, Web.Api.challenge response = .ok accepted
            ∧ Cli.Api.challenge response = .ok accepted.toShared
            ∧ Shared.isInvalidChallenge accepted.toShared = false)
      ∧ (∀ (packet : Server.Packet) (challenge : String) (created : Server.Created)
          (response : HttpResponse),
        Store.Admitted packet → cache.create denied config packet challenge = .ok created
          → Delivers created.toVec response
          → ∃ accepted, Web.Api.create response = .ok accepted
            ∧ Cli.Api.create response = .ok ⟨.string accepted.id, .ofNat accepted.expiresAt⟩
            ∧ accepted.id = JsString.ofString packet.header.id)
      ∧ (∀ (id hash : String) (metadata : Server.Metadata) (response : HttpResponse),
        cache.metadata denied id hash = .ok metadata → Delivers metadata.toVec response
          → ∃ accepted header, Web.Api.metadata response = .ok accepted
            ∧ Cli.Api.metadata response
              = .ok ⟨accepted.header, .ofNat accepted.expiresAt, .ofNat accepted.remaining⟩
            ∧ Shared.decodeHeader accepted.header = .ok header
            ∧ header.id = JsString.ofString id
            ∧ 1 ≤ accepted.remaining ∧ accepted.remaining ≤ header.views)
      ∧ (∀ (now : Nat) (events : List Web.Event) (page : Web.ReaderPage) (number : Nat)
          (ticket : Web.Ticket) (metadata : Web.Metadata),
        Web.LoadsFollowClears true events
          → Runs.Along Web.Reader.step (Web.Answers Answered) (Web.Reader.mount now) events
          → Web.Reader.run (Web.Reader.mount now) events = page
          → page.host.promises.waiting number = some (.loadHeader ticket metadata)
          → (page.valid Web.Reader.options ticket).1 = true
          → ∃ header, Shared.decodeHeader metadata.header = .ok header
            ∧ (Web.Reader.step page (.settle number (.header header))).host.state.phase = .ready)
      ∧ ∀ (crypto : Crypto) (unicode : Shared.Unicode) (parseUrl : JsString → Option Shared.Url)
          (url token : JsString) (link : Shared.ShareLink) (metadata : Web.Metadata),
        Shared.parseShareLink parseUrl url = .ok link
          → Shared.derivePeek crypto link.secret link.id = .ok token
          → Answered link.id metadata
          → (Web.Receiver.run crypto unicode parseUrl (fun _ => true) (Web.Receiver.mount 0)
              (Web.Receiver.loadEvents url metadata)).page.host.state.phase = .ready := by
  refine ⟨?_, ?_, ?_, ?_, ?_, ?_⟩
  . intro response hdelivers
    exact config_accepted (accepts_publicConfig hconfig) hdelivers
  . intro token challenge response hissue hdelivers
    exact hcache.challenge_accepted hconfig hissue hdelivers
  . intro packet challenge created response hpacket hcreate hdelivers
    exact hcache.created_accepted hpacket hcreate hdelivers
  . intro id hash metadata response hmetadata hdelivers
    exact hcache.metadata_accepted hmetadata hdelivers
  . intro now events page number ticket metadata hloads hanswers hrun hwaiting hvalid
    exact load_ready hloads hanswers hrun hwaiting hvalid
  . intro crypto unicode parseUrl url token link metadata hlink htoken hanswered
    exact loadEvents_ready hlink htoken hanswered

end

def exampleCache : Server.Cache := ((Server.Cache.empty 0).run Store.exampleUploads).1

theorem reached_exampleCache : Reached exampleCache where
  run := ⟨0, Store.exampleUploads, ((Server.Cache.empty 0).run Store.exampleUploads).2,
    Prod.mk.eta.symm, by simp [Store.exampleUploads, Store.Parses, Store.admitted_exampleUpload]⟩
  dated := by decide +kernel

theorem inRange_new : Server.Config.new.InRange where
  powBits := by decide
  challengeSeconds := rfl
  maxChallenges := by decide
  maxNotes := by decide
  maxStorageBytes := by decide

def exampleReply (body : Bytes) : HttpResponse where
  contentEncoding := none
  contentLength := none
  body := some { chunks := [body], broken := false }
  status := 200

theorem delivers_exampleReply (body : Bytes) : Delivers body (exampleReply body) where
  ok := rfl
  content := by simp [exampleReply]
  stream := ⟨_, rfl, rfl, List.flatten_singleton⟩
  length := nofun

-- The note of `exampleUploads` is described, and both clients take its description.
theorem replies_accepted_exampleUploads
    : ∃ metadata, exampleCache.metadata Store.allowAll Store.exampleUpload.header.id
          Store.exampleUpload.header.peek = .ok metadata
        ∧ ∃ accepted header, Web.Api.metadata (exampleReply metadata.toVec) = .ok accepted
          ∧ Cli.Api.metadata (exampleReply metadata.toVec)
            = .ok ⟨accepted.header, .ofNat accepted.expiresAt, .ofNat accepted.remaining⟩
          ∧ Shared.decodeHeader accepted.header = .ok header
          ∧ header.id = JsString.ofString Store.exampleUpload.header.id
          ∧ 1 ≤ accepted.remaining ∧ accepted.remaining ≤ header.views := by
  have hok : (exampleCache.metadata Store.allowAll Store.exampleUpload.header.id
      Store.exampleUpload.header.peek).isOk = true := by
    decide +kernel
  rcases hmetadata : exampleCache.metadata Store.allowAll Store.exampleUpload.header.id
    Store.exampleUpload.header.peek with error | metadata
  . rw [hmetadata] at hok
    cases hok
  . have haccepted := (replies_accepted inRange_new reached_exampleCache Store.allowAll).2.2.2.1
    exact ⟨metadata, rfl, haccepted _ _ metadata _ hmetadata (delivers_exampleReply metadata.toVec)⟩

end Client
