import Erase.Client.Acceptance
import Erase.Server.Guard
import Erase.Store.Contents

/-!
How both clients read the replies of a server to their calls, whether it answers or refuses.
-/

open Protocol HeaderValue JsValue

namespace Client

structure TypedResponse extends HttpResponse where
  contentType : Option JsString

def packetLimit : SafeInteger := ⟨Shared.maxPacketBytes, by decide⟩

-- `response.headers.get('content-type')?.split(';')[0] === 'application/octet-stream'`
def TypedResponse.isOctetStream (response : TypedResponse) : Bool :=
  response.contentType.map (fun type => type.takeWhile (· ≠ 59))
    = some (JsString.ofString "application/octet-stream")

end Client

namespace Web

open Client

-- `request`, once `fetch` has its response, for a reply that is a packet when it succeeds.
def requestBinary (response : TypedResponse) : Except RequestFailure (Option Bytes) := do
  if response.status = 204 ∧ response.ok then return none
  let limit := if response.ok then packetLimit else jsonLimit
  let bytes ← (readBounded response.toResponse limit).result.mapError .read
  if response.ok then
    if !response.isOctetStream then requestError "invalid_response"
    return some bytes
  match parseJson? bytes with
  | none => requestError "invalid_response"
  | some value => .error (.code ((errorCode? value).getD (JsString.ofString "request_failed")))

def Api.openNote (response : TypedResponse) : Except RequestFailure (Option Bytes) :=
  requestBinary response

def Api.revoke (response : TypedResponse) : Except RequestFailure Unit :=
  (request response.toHttpResponse).map fun _ => ()

end Web

namespace Cli

open Client

-- `Client.request`, likewise.
def Api.requestBinary (response : TypedResponse) : Except RequestFailure (Option Bytes) := do
  if response.status = 204 ∧ response.ok then return none
  let limit := if response.ok then packetLimit else jsonLimit
  let body ← (bytes response.toResponse limit).result.mapError .read
  if !response.ok then .error (.code (refusal body))
  if !response.isOctetStream then .error (.error "Unexpected response type.")
  return some body

def Api.openNote (response : TypedResponse) : Except RequestFailure (Option Bytes) :=
  Api.requestBinary response

def Api.revoke (response : TypedResponse) : Except RequestFailure Unit :=
  (Api.request response.toHttpResponse).map fun _ => ()

end Cli

namespace Client

-- A reply that gets to its client whole, in whichever chunks, behind no length or its own.
structure Carries (reply : Server.HttpReply) (response : TypedResponse) : Prop where
  status : response.status = reply.status
  contentType : response.contentType
    = (reply.headers.getAll "content-type").head?.map fun value =>
      value.map fun byte => UInt16.ofNat byte.toNat
  stream : reply.status ≠ 204
    → ∃ stream, response.body = some stream ∧ stream.broken = false ∧ stream.content = reply.body
  length : ∀ header, lengthHeader response.toResponse = some header
    → header = Ascii.units (Decimal.codes reply.body.length)

-- What the guard makes of an answer.
def answered (config : Server.Configuration) (head : Server.RequestHead) (page : Server.HttpReply)
    (answer : Except Server.ApiError Server.Payload) : Server.HttpReply :=
  Server.hardened config head
    (match answer with
    | .ok payload => payload.intoResponse page
    | .error error => error.intoResponse)

section

variable {reply : Server.HttpReply} {response : TypedResponse}

theorem Carries.reads (h : Carries reply response) (hstatus : reply.status ≠ 204) {limit : SafeInteger}
    (hlimit : reply.body.length ≤ limit)
    : (Web.readBounded response.toResponse limit).result = .ok reply.body
        ∧ (Cli.bytes response.toResponse limit).result = .ok reply.body := by
  rcases h.stream hstatus with ⟨stream, hbody, hends, hcontent⟩
  rw [← hcontent]
  apply readers_eq_ok hbody hends
  . rwa [hcontent]
  . rw [hcontent]
    exact h.length

def errorMembers (error : Server.ApiError) : List (List Nat × Json.Scalar) :=
  [(codes "error", .text (codes error.code))]

theorem isWord_code (error : Server.ApiError) : IsWord (codes error.code) := by
  cases error
  all_goals exact ⟨by decide, by decide⟩

theorem isFlat_error (error : Server.ApiError) : Json.IsFlat (errorMembers error) where
  plain := by
    simp only [errorMembers, List.forall_mem_cons]
    exact ⟨Json.isPlainMember_text (by decide) (by decide) (isWord_code error).isAscii
      (isWord_code error).isPlain, nofun⟩
  nodup := by simp [errorMembers]

theorem body_intoResponse (error : Server.ApiError)
    : error.intoResponse.body = SerdeJson.toVec ((errorMembers error).map SerdeJson.memberOfCodes) := by
  simp [errorMembers, SerdeJson.memberOfCodes, SerdeJson.Scalar.ofCodes, string_codes,
    Server.ApiError.intoResponse, Server.json]

theorem length_body_le (error : Server.ApiError) : error.intoResponse.body.length ≤ 8192 := by
  rw [body_intoResponse, SerdeJson.toVec_memberOfCodes (isFlat_error error).isCompact, Ascii.length_bytes]
  cases error <;> decide

theorem ofString_code (error : Server.ApiError)
    : JsString.ofString error.code = Ascii.units (codes error.code) :=
  ofString_eq_units (isWord_code error).isAscii

-- Either client reads the code of an error in its body.
theorem errorCode?_body (error : Server.ApiError)
    : (parseJson? error.intoResponse.body).bind errorCode? = some (JsString.ofString error.code) := by
  have hflat := isFlat_error error
  rw [body_intoResponse, parseJson?_toVec hflat, Option.bind_some, errorCode?, ofString_code]
  apply string?_ofFlat hflat
  simp [errorMembers]

theorem refusal_body (error : Server.ApiError)
    : Cli.refusal error.intoResponse.body = JsString.ofString error.code := by
  have hcode : Cli.isErrorCode (JsString.ofString error.code) = true := by
    cases error <;> decide
  rw [Cli.refusal, errorCode?_body, Option.filter_some, if_pos hcode]
  rfl

-- What either client makes of a call that the server refuses.
structure Refused (error : Server.ApiError) (response : TypedResponse) : Prop where
  web : Web.request response.toHttpResponse = .error (.code (JsString.ofString error.code))
  webBinary : Web.requestBinary response = .error (.code (JsString.ofString error.code))
  cli : Cli.Api.request response.toHttpResponse = .error (.code (JsString.ofString error.code))
  cliBinary : Cli.Api.requestBinary response = .error (.code (JsString.ofString error.code))

theorem Carries.refused {error : Server.ApiError} (h : Carries reply response)
    (hstatus : reply.status = error.status) (hbody : reply.body = error.intoResponse.body)
    : Refused error response := by
  have hstatuses : error.status ≠ 204 ∧ ¬error.status ≤ 299 := by cases error <;> decide
  have hok : response.ok = false := by
    rw [HttpResponse.ok, h.status, hstatus]
    simp [hstatuses.2]
  have hempty : ¬(response.status = 204 ∧ response.ok = true) := by simp [hok]
  have hlength : reply.body.length ≤ jsonLimit.1 := by
    rw [hbody]
    exact length_body_le error
  rcases h.reads (by rw [hstatus]; exact hstatuses.1) hlength with ⟨hweb, hcli⟩
  rw [hbody] at hweb hcli
  rcases Option.bind_eq_some_iff.mp (errorCode?_body error) with ⟨value, hvalue, hcode⟩
  constructor
  . rw [Web.request, if_neg hempty, hweb]
    simp only [Except.mapError, Except.ok_bind, hvalue, hok, hcode]
    rfl
  . rw [Web.requestBinary, if_neg hempty]
    simp only [hok, Bool.false_eq_true, if_false, hweb, Except.mapError, Except.ok_bind, hvalue, hcode]
    rfl
  . rw [Cli.Api.request, if_neg hempty, hcli]
    simp only [Except.mapError, Except.ok_bind, hok, refusal_body]
    rfl
  . rw [Cli.Api.requestBinary, if_neg hempty]
    simp only [hok, Bool.false_eq_true, if_false, hcli, Except.mapError, Except.ok_bind, refusal_body]
    rfl

theorem Carries.packet {packet : Bytes} (h : Carries reply response) (hstatus : reply.status = 200)
    (htype : reply.headers.getAll "content-type" = [Server.asBytes "application/octet-stream"])
    (hbody : reply.body = packet) (hfits : packet.length ≤ Server.maxPacketBytes)
    : Web.Api.openNote response = .ok (some packet) ∧ Cli.Api.openNote response = .ok (some packet) := by
  have hok : response.ok = true := by
    rw [HttpResponse.ok, h.status, hstatus]
    rfl
  have hempty : ¬(response.status = 204 ∧ response.ok = true) := by
    rw [h.status, hstatus]
    simp
  have hoctets : response.isOctetStream = true := by
    rw [TypedResponse.isOctetStream, h.contentType, htype]
    decide
  have hlength : reply.body.length ≤ packetLimit.1 := by
    rw [hbody]
    exact hfits
  rcases h.reads (by rw [hstatus]; decide) hlength with ⟨hweb, hcli⟩
  rw [hbody] at hweb hcli
  constructor
  . rw [Web.Api.openNote, Web.requestBinary, if_neg hempty]
    simp only [hok, if_true, hweb, Except.mapError, Except.ok_bind, hoctets]
    rfl
  . rw [Cli.Api.openNote, Cli.Api.requestBinary, if_neg hempty]
    simp only [hok, if_true, hcli, Except.mapError, Except.ok_bind, hoctets]
    rfl

theorem Carries.noContent (h : Carries reply response) (hstatus : reply.status = 204)
    : Web.Api.revoke response = .ok () ∧ Cli.Api.revoke response = .ok () := by
  have hempty : response.status = 204 ∧ response.ok = true := by
    rw [HttpResponse.ok, h.status, hstatus]
    simp
  constructor
  . rw [Web.Api.revoke, Web.request, if_pos hempty]
    rfl
  . rw [Cli.Api.revoke, Cli.Api.request, if_pos hempty]
    rfl

theorem Carries.delivers (h : Carries reply response) (hok : 200 ≤ reply.status ∧ reply.status ≤ 299)
    (hstatus : reply.status ≠ 204) : Delivers reply.body response.toHttpResponse where
  ok := by
    rw [HttpResponse.ok, h.status]
    simpa using hok
  content := by rwa [h.status]
  stream := h.stream hstatus
  length := h.length

-- The JSON answers of a server: its limits, and what it tells of a state of its cache.
inductive Says (config : Server.Config) (cache : Server.Cache) (denied : Server.Site → Bool)
    : Server.Payload → Bytes → Prop where
  | publicConfig
    : Says config cache denied (.publicConfig (Server.publicConfig config)) (Server.publicConfig config).toVec
  | challenge {token : ByteString 32} {challenge : Server.Challenge}
      (hissue : cache.issue denied config (Server.encodeUrlSafe token) = .ok challenge)
    : Says config cache denied (.challenge challenge) challenge.toVec
  | created {packet : Server.Packet} {challenge : String} {created : Server.Created}
      (hpacket : Store.Admitted packet)
      (hcreate : cache.create denied config packet challenge = .ok created)
    : Says config cache denied (.created created) created.toVec
  | metadata {id hash : String} {metadata : Server.Metadata}
      (hmetadata : cache.metadata denied id hash = .ok metadata)
    : Says config cache denied (.access (.metadata metadata)) metadata.toVec

section

variable {config : Server.Config} {cache : Server.Cache} {denied : Server.Site → Bool}
variable {payload : Server.Payload} {body : Bytes}

theorem Says.intoResponse (h : Says config cache denied payload body) (page : Server.HttpReply)
    : ∃ status, payload.intoResponse page = Server.json status body ∧ (status = 200 ∨ status = 201) := by
  cases h with
  | publicConfig => exact ⟨200, rfl, .inl rfl⟩
  | challenge => exact ⟨200, rfl, .inl rfl⟩
  | created => exact ⟨201, rfl, .inr rfl⟩
  | metadata => exact ⟨200, rfl, .inl rfl⟩

theorem Says.fits (h : Says config cache denied payload body) (hconfig : config.InRange)
    (hcache : Reached cache) : FitsJson body := by
  have hsecond := hcache.second_lt
  rcases hcache.ledger with ⟨ledger, hkeys, hdescribed⟩
  cases h with
  | publicConfig =>
    have haccepts := accepts_publicConfig hconfig
    exact ⟨_, haccepts.isFlat, haccepts.length_le, toVec_config⟩
  | @challenge token _ hissue =>
    have hseconds := hconfig.challengeSeconds
    have hexpires : cache.now / 1000 + config.challengeSeconds < 2 ^ 53 := by omega
    rw [Store.issue_ok hkeys hissue]
    exact ⟨_, isFlat_challenge token.1 hconfig.powBits.2 hexpires,
      length_challenge_le token hconfig.powBits.2 hexpires, toVec_challenge _ _ _⟩
  | created hpacket hcreate =>
    rcases hpacket.exists_value with ⟨value, -, hheader⟩
    have httl := value.ttl.2
    have hexpires : cache.now / 1000 + value.ttl < 2 ^ 53 := by omega
    rw [Store.create_ok hkeys hcreate, hheader]
    exact ⟨_, isFlat_created value.id.1 hexpires, length_created_le value.id hexpires, toVec_created _ _⟩
  | @metadata _ _ metadata hmetadata =>
    rcases Store.metadata_ok hkeys hdescribed hmetadata with ⟨value, -, hheader, hexpires, hremaining⟩
    rcases metadata with ⟨header, expires, remaining⟩
    dsimp only at hheader hexpires hremaining
    subst hheader
    have httl := value.ttl.2
    have hviews := value.views.2
    have hlast : expires < 2 ^ 53 := by omega
    have hmost : remaining ≤ 100 := by omega
    exact ⟨_, isFlat_metadata value.bytes hlast hmost,
      length_metadata_le value.length_bytes_bounds.2 hlast hmost, toVec_metadata _ _ _⟩

end

theorem getAll_contentType {config : Server.Configuration} {head : Server.RequestHead}
    : (Server.hardened config head reply).headers.getAll "content-type"
        = reply.headers.getAll "content-type" := by
  have hother : "content-type" ∉ Server.guardedNames := by decide
  apply Server.getAll_hardened_of_not_mem
  intro hmem
  exact hother ((Server.guardHeaders_names reply.status).subset hmem)

theorem code_injective : Function.Injective Server.ApiError.code := by
  intro left right h
  cases left <;> cases right <;> first | rfl | simp [Server.ApiError.code] at h

/--
Both clients take from each reply just what the server has answered: the code of an error, the packet of
a note, that a note is gone, or the value of the JSON body of anything else.
-/
theorem answers_reach_callers {cache : Server.Cache} (hcache : Reached cache)
    (denied : Server.Site → Bool) (config : Server.Configuration) (head : Server.RequestHead)
    (page : Server.HttpReply)
    : (∀ error response, Carries (answered config head page (.error error)) response
        → Refused error response)
      ∧ Function.Injective (fun error : Server.ApiError => JsString.ofString error.code)
      ∧ (∀ id hash bytes response,
        cache.call denied (.access (Server.asBytes id) (Server.asBytes hash) .openNote)
            >>= Server.packetOf = .ok bytes
          → Carries (answered config head page (.ok (.access (.packet bytes)))) response
          → (∃ packet, Server.parsePacket bytes = .ok packet ∧ packet.header.id = id)
            ∧ Web.Api.openNote response = .ok (some bytes)
            ∧ Cli.Api.openNote response = .ok (some bytes))
      ∧ (∀ response, Carries (answered config head page (.ok (.access .noContent))) response
        → Web.Api.revoke response = .ok () ∧ Cli.Api.revoke response = .ok ())
      ∧ ∀ payload body response, config.toConfig.InRange → Says config.toConfig cache denied payload body
        → Carries (answered config head page (.ok payload)) response
        → ∃ value, parseJson? body = some value ∧ Web.request response.toHttpResponse = .ok value
          ∧ Cli.Api.request response.toHttpResponse = .ok value := by
  refine ⟨?_, ?_, ?_, ?_, ?_⟩
  . intro error response hcarries
    exact hcarries.refused rfl rfl
  . intro left right h
    apply code_injective
    exact String.toList_injective (JsString.ofChars_injective h)
  . intro id hash bytes response hopened hcarries
    rcases hcache.run with ⟨start, events, answers, hrun, hparses⟩
    rcases Store.run_contents hrun hparses with ⟨ledger, hkeys, hcontents⟩
    rcases Store.open_ok hkeys hcontents hopened with ⟨packet, hadmitted, rfl, rfl, -⟩
    exact ⟨⟨packet, hadmitted, rfl⟩, hcarries.packet rfl getAll_contentType rfl hadmitted.length_le⟩
  . intro response hcarries
    exact hcarries.noContent rfl
  . intro payload body response hconfig hvoiced hcarries
    rcases hvoiced.intoResponse page with ⟨status, hpayload, hstatus⟩
    have hreply : (answered config head page (.ok payload)).status = status
        ∧ (answered config head page (.ok payload)).body = body := by
      rw [answered, hpayload]
      exact ⟨rfl, rfl⟩
    have hsuccess : (200 ≤ status ∧ status ≤ 299) ∧ status ≠ 204 := by omega
    rw [← hreply.1] at hsuccess
    have hdelivers := hcarries.delivers hsuccess.1 hsuccess.2
    rw [hreply.2] at hdelivers
    exact (hvoiced.fits hconfig hcache).reads hdelivers

end

-- The reply as a response that comes in one piece.
def inOnePiece (reply : Server.HttpReply) : TypedResponse where
  contentEncoding := none
  contentLength := none
  body := some { chunks := [reply.body], broken := false }
  status := reply.status
  contentType := (reply.headers.getAll "content-type").head?.map fun value =>
    value.map fun byte => UInt16.ofNat byte.toNat

theorem carries_inOnePiece (reply : Server.HttpReply) : Carries reply (inOnePiece reply) where
  status := rfl
  contentType := rfl
  stream _ := ⟨_, rfl, rfl, List.flatten_singleton⟩
  length := nofun

theorem answers_reach_callers_exampleUploads
    : (∃ bytes, exampleCache.call Store.allowAll (.access (Server.asBytes Store.exampleUpload.header.id)
          (Server.asBytes Store.exampleUpload.header.read) .openNote) >>= Server.packetOf = .ok bytes
        ∧ Web.Api.openNote (inOnePiece (answered .default Server.exampleCall ⟨200, [], []⟩
          (.ok (.access (.packet bytes))))) = .ok (some bytes))
      ∧ ∃ metadata value, exampleCache.metadata Store.allowAll Store.exampleUpload.header.id
          Store.exampleUpload.header.peek = .ok metadata
        ∧ parseJson? metadata.toVec = some value
        ∧ Web.request (inOnePiece (answered .default Server.exampleCall ⟨200, [], []⟩
          (.ok (.access (.metadata metadata))))).toHttpResponse = .ok value := by
  have hanswers := answers_reach_callers reached_exampleCache Store.allowAll .default Server.exampleCall
    ⟨200, [], []⟩
  constructor
  . let opened := exampleCache.call Store.allowAll (.access (Server.asBytes Store.exampleUpload.header.id)
      (Server.asBytes Store.exampleUpload.header.read) .openNote) >>= Server.packetOf
    have hok : opened.isOk = true := by
      decide +kernel
    rcases hopened : opened with error | bytes
    . rw [hopened] at hok
      cases hok
    . exact ⟨bytes, hopened, (hanswers.2.2.1 _ _ bytes _ hopened (carries_inOnePiece _)).2.1⟩
  . have hok : (exampleCache.metadata Store.allowAll Store.exampleUpload.header.id
        Store.exampleUpload.header.peek).isOk = true := by
      decide +kernel
    rcases hmetadata : exampleCache.metadata Store.allowAll Store.exampleUpload.header.id
      Store.exampleUpload.header.peek with error | metadata
    . rw [hmetadata] at hok
      cases hok
    . rcases hanswers.2.2.2.2 _ _ _ inRange_new (.metadata hmetadata) (carries_inOnePiece _)
        with ⟨value, hvalue, hweb, -⟩
      exact ⟨metadata, value, rfl, hvalue, hweb⟩

end Client
