import Erase.Client.Validation
import Erase.Protocol.ServerHeader
import Erase.Server.Router
import Erase.Server.Work

/-!
What both clients send to a server, and what its handlers read in it.
-/

open Protocol

namespace Client

-- The calls that both clients have.
inductive Invocation where
  | challenge
  | create (packet : Bytes) (challenge nonce : JsString)
  | access (route : Server.AccessRoute) (id token : JsString)

-- What `fetch` is given. The names of headers are lowercase, and a header is a `ByteString`.
structure Outgoing where
  method : Server.Method
  path : JsString
  headers : List (String × Bytes)
  body : Bytes
  deriving DecidableEq

def byteString (value : JsString) : Bytes := value.map fun unit => UInt8.ofNat unit.toNat

-- `JSON.stringify({ token })`
def tokenText (token : JsString) : JsString :=
  JsValue.stringify [(JsString.ofString "token", .string token)]

def getJson (path : String) : Outgoing where
  method := .get
  path := JsString.ofString path
  headers := []
  body := []

def postPacket (packet : Bytes) (challenge nonce : JsString) : Outgoing where
  method := .post
  path := JsString.ofString "/api/notes"
  headers := [
    ("content-type", Server.asBytes "application/octet-stream"),
    ("x-erase-challenge", byteString challenge),
    ("x-erase-nonce", byteString nonce)]
  body := packet

def withToken (method : Server.Method) (path token : JsString) : Outgoing where
  method := method
  path := path
  headers := [("content-type", Server.asBytes "application/json")]
  body := Shared.encoderEncode (tokenText token)

end Client

namespace Web

open Client

def idPath (id : JsString) : Except RequestFailure JsString := do
  if !isId id then requestError "invalid_request"
  return JsString.ofString "/api/notes/" ++ id

namespace Api

-- What each call hands to `request`.
def send : Invocation → Except RequestFailure Outgoing
  | .challenge => return getJson "/api/challenge"
  | .create packet challenge nonce => return postPacket packet challenge nonce
  | .access .metadata id token => do
    return withToken .post ((← idPath id) ++ JsString.ofString "/meta") token
  | .access .openNote id token => do
    return withToken .post ((← idPath id) ++ JsString.ofString "/open") token
  | .access .deleteNote id token => do return withToken .delete (← idPath id) token

end Api

end Web

namespace Cli

open Client

def path (id : JsString) : Except RequestFailure JsString := do
  if !isCapability id then .error (.error "Invalid package identifier.")
  return JsString.ofString "/api/notes/" ++ id

-- The options that `authorization` makes, for the path that is given.
def authorization (token : JsString) (method : Server.Method) (path : JsString)
    : Except RequestFailure Outgoing := do
  if !isCapability token then .error (.error "Invalid capability.")
  return withToken method path token

namespace Api

def options : Invocation → Except RequestFailure Outgoing
  | .challenge => return getJson "/api/challenge"
  | .create packet challenge nonce => return postPacket packet challenge nonce
  | .access .metadata id token => do
    authorization token .post ((← path id) ++ JsString.ofString "/meta")
  | .access .openNote id token => do
    authorization token .post ((← path id) ++ JsString.ofString "/open")
  | .access .deleteNote id token => do authorization token .delete (← path id)

def send (origin : JsString) (call : Invocation) : Except RequestFailure Outgoing := do
  let options ← options call
  return { options with headers := options.headers ++ [("origin", byteString origin)] }

end Api

end Cli

namespace Client

-- A request as its client sends it, which the network brings to one of the origins of a server. A
-- browser adds the origin of the page by itself.
structure Arrives (origin host : String) (outgoing : Outgoing) (head : Server.RequestHead)
    (body : Server.Transfer) : Prop where
  method : head.method = outgoing.method
  path : JsString.ofChars head.path = outgoing.path
  query : head.uri.query = none
  target : (Utf8.encode head.uri.toText).length ≤ 2048
  size : head.headerBytes ≤ 8192
  host : Server.Sends head "host" (Server.asBytes host)
  headers : ∀ header ∈ outgoing.headers, Server.Sends head header.1 header.2
  origin : "origin" ∉ outgoing.headers.map Prod.fst
    → head.getAll "origin" = [] ∨ Server.Sends head "origin" (Server.asBytes origin)
  site : head.getAll "sec-fetch-site" = []
    ∨ Server.Sends head "sec-fetch-site" (Server.asBytes "same-origin")
  encoding : head.getAll "content-encoding" = []
  length : head.getAll "content-length" = []
    ∨ Server.Sends head "content-length" (Decimal.print outgoing.body.length)
  body : body = .complete outgoing.body

-- An origin that the server answers for, in the characters of a serialized origin.
structure Serves (config : Server.Configuration) (origin host : String) : Prop where
  listed : origin ∈ config.origins
  hosted : host ∈ config.hosts
  ascii : ∀ c ∈ origin.toList, c.toNat < 128

-- What a client fills into its calls: a challenge of the server, a nonce that it has found and the
-- tokens of a note.
def Invocation.IsHonest : Invocation → Prop
  | .challenge => True
  | .create packet issued found =>
    packet.length ≤ Server.maxPacketBytes
      ∧ (∃ token : ByteString 32, issued = Shared.toBase64Url token)
      ∧ ∃ n, n ≤ 9007199254740991 ∧ found = Ascii.units (Decimal.codes n)
  | .access _ _ token => Cli.isCapability token = true

-- What the handler of the call finds in its request.
def Invocation.Reaches (random : String) : Invocation → Server.Incoming → Prop
  | .challenge, incoming => incoming = .challenge random
  | .create packet issued found, incoming =>
    ∃ challengeText nonceText challengeFields nonceFields request,
      JsString.ofString challengeText = issued ∧ JsString.ofString nonceText = found
        ∧ incoming = .createNote challengeFields nonceFields request
        ∧ Server.Process.proofHeaders challengeFields nonceFields = .ok (challengeText, nonceText)
        ∧ Server.body request "application/octet-stream" Server.maxPacketBytes = .ok packet
  | .access route id token, incoming =>
    ∃ idText tokenText request, JsString.ofString idText = id ∧ JsString.ofString tokenText = token
      ∧ incoming = .access route idText request ∧ request.capability = .ok ⟨tokenText⟩

-- What both clients send for a call, but for the origin that the command line adds.
def Invocation.common : Invocation → Outgoing
  | .challenge => getJson "/api/challenge"
  | .create packet issued found => postPacket packet issued found
  | .access .metadata id token =>
    withToken .post (JsString.ofString "/api/notes/" ++ id ++ JsString.ofString "/meta") token
  | .access .openNote id token =>
    withToken .post (JsString.ofString "/api/notes/" ++ id ++ JsString.ofString "/open") token
  | .access .deleteNote id token => withToken .delete (JsString.ofString "/api/notes/" ++ id) token

def Invocation.withHeaders (call : Invocation) (added : List (String × Bytes)) : Outgoing :=
  { call.common with headers := call.common.headers ++ added }

def Invocation.NamesNote : Invocation → Prop
  | .access _ id _ => Web.isId id = true
  | _ => True

section

open Server HeaderValue

-- The codes of an identifier or a token.
structure IsToken (codes : List Nat) : Prop extends IsWord codes where
  slash : 47 ∉ codes
  percent : 37 ∉ codes

theorem digitCode_ne (digit : Fin 64)
    : Base64.urlSafe.code digit ≠ 47 ∧ Base64.urlSafe.code digit ≠ 37 := by
  revert digit
  decide

theorem exists_token {value : JsString} (h : value.all Shared.isBase64Url = true)
    : ∃ codes, IsToken codes ∧ value = Ascii.units codes := by
  have hcode : ∀ code ∈ value.map UInt16.toNat, ∃ digit, Base64.urlSafe.code digit = code := by
    intro code hcode
    rcases List.mem_map.mp hcode with ⟨unit, hunit, rfl⟩
    rcases Option.isSome_iff_exists.mp (List.all_eq_true.mp h unit hunit) with ⟨digit, hdigit⟩
    exact ⟨digit, Base64.urlSafe.code_of_index? _ _ hdigit⟩
  refine ⟨value.map UInt16.toNat, ⟨⟨?_, ?_⟩, ?_, ?_⟩, ?_⟩
  . intro code hmem
    rcases hcode code hmem with ⟨digit, rfl⟩
    exact (digitCode_bounds digit).1
  . rw [List.all_eq_true]
    intro code hmem
    rcases hcode code hmem with ⟨digit, rfl⟩
    exact (digitCode_bounds digit).2
  . intro hmem
    rcases hcode 47 hmem with ⟨digit, hdigit⟩
    exact (digitCode_ne digit).1 hdigit
  . intro hmem
    rcases hcode 37 hmem with ⟨digit, hdigit⟩
    exact (digitCode_ne digit).2 hdigit
  . rw [Ascii.units, List.map_map, Function.comp_def]
    simp

theorem IsToken.not_mem {codes : List Nat} (h : IsToken codes)
    : '/' ∉ Ascii.chars codes ∧ '%' ∉ Ascii.chars codes := by
  constructor
  . intro hmem
    apply h.slash
    rw [← Ascii.map_toNat_chars h.isAscii]
    exact List.mem_map_of_mem hmem
  . intro hmem
    apply h.percent
    rw [← Ascii.map_toNat_chars h.isAscii]
    exact List.mem_map_of_mem hmem

def tokenMembers (token : List Nat) : List (List Nat × Json.Scalar) := [(codes "token", .text token)]

theorem encode_tokenText {token : List Nat} (h : IsWord token)
    : Shared.encoderEncode (tokenText (Ascii.units token))
        = Ascii.bytes (Json.printObject (tokenMembers token)) := by
  have hcompact : ∀ member ∈ tokenMembers token, Json.IsCompact member := by
    simp only [tokenMembers, List.mem_singleton, forall_eq]
    exact isCompact_text ⟨by decide, by decide⟩ h
  have htext : tokenText (Ascii.units token) = Ascii.units (Json.printObject (tokenMembers token)) := by
    rw [← JsValue.stringify_memberOfCodes hcompact]
    rfl
  rw [htext, Shared.encoderEncode, Ascii.scalars_units (Json.isAscii_printObject hcompact),
    Ascii.encode_chars (Json.isAscii_printObject hcompact)]

-- The server reads the body that both clients write.
theorem fromSlice?_tokenText {token : List Nat} (h : IsWord token)
    : Capability.fromSlice? (Shared.encoderEncode (tokenText (Ascii.units token)))
        = some ⟨Ascii.string token⟩ := by
  have hcompact : ∀ member ∈ tokenMembers token, Json.IsCompact member := by
    simp only [tokenMembers, List.mem_singleton, forall_eq]
    exact isCompact_text ⟨by decide, by decide⟩ h
  have hplain : ∀ member ∈ tokenMembers token, member.1.all Json.isPlain = true ∧ member.2.IsPlain :=
    fun member hmember => ⟨(hcompact member hmember).key_isPlain, (hcompact member hmember).isPlain⟩
  have hfields := SerdeJson.fields?_compact hcompact (by simp [tokenMembers])
  rw [encode_tokenText h, Capability.fromSlice?, SerdeJson.parse?,
    Ascii.map_toNat_bytes (Json.isAscii_printObject hcompact), Json.parse?_printObject hplain,
    Option.bind_some]
  have hnames : (tokenMembers token).map (fun member => Ascii.string member.1) = ["token"] := by
    simp [tokenMembers, HeaderValue.string_codes]
  rw [hnames] at hfields
  rw [hfields]
  simp [tokenMembers, Capability.ofValues?, SerdeJson.string?_value h.isAscii]

theorem length_tokenText {token : List Nat} (h : IsWord token) (hlength : token.length = 43)
    : (Shared.encoderEncode (tokenText (Ascii.units token))).length = 55 := by
  rw [encode_tokenText h, Ascii.length_bytes]
  simp [tokenMembers, Json.printObject, Json.printRest, Json.printMember, Json.Scalar.print, codes, hlength]

theorem eqIgnoreAsciiCase_refl (text : Bytes) : eqIgnoreAsciiCase text text = true := by
  simp [eqIgnoreAsciiCase]

variable {config : Configuration} {origin host : String} {outgoing : Outgoing} {head : RequestHead}
  {body : Transfer}

-- A handler reads the whole body when it comes with its type, and with its length or none.
theorem Arrives.reads (h : Arrives origin host outgoing head body) {expected : String} {limit : Nat}
    (htype : ("content-type", asBytes expected) ∈ outgoing.headers) (hfits : outgoing.body.length ≤ limit)
    (hlimit : limit < 2 ^ 64) : Server.body (head.request body) expected limit = .ok outgoing.body := by
  have hsends : Sends head "content-type" (asBytes expected) := h.headers _ htype
  have hlength : oneHeader (head.getAll "content-length") = .ok none
      ∨ oneHeader (head.getAll "content-length") = .ok (some (Decimal.print outgoing.body.length)) := by
    rcases h.length with hnone | hsome
    . exact .inl (oneHeader_eq_none_iff.mpr hnone)
    . exact .inr (oneHeader_eq_some_iff.mpr hsome)
  unfold Server.body RequestHead.request
  dsimp only
  rw [oneHeader_eq_some_iff.mpr hsends, Except.ok_bind, h.body]
  dsimp only
  rw [if_neg (by simp [eqIgnoreAsciiCase_refl])]
  rcases hlength with hlength | hlength
  . rw [hlength, Except.ok_bind]
    dsimp only
    rw [if_neg (by omega)]
    rfl
  . rw [hlength, Except.ok_bind]
    dsimp only
    rw [parseUnsigned?_print, if_pos (by omega)]
    dsimp only
    rw [if_neg (by omega), if_neg (by omega)]
    rfl

-- An honest request passes the guard of a server that has its origin.
theorem Arrives.authorized (h : Arrives origin host outgoing head body) (hserves : Serves config origin host)
    {call : ApiCall} (hpath : head.path = call.path) (hplain : '%' ∉ call.path)
    (hmethod : outgoing.method ≠ .head)
    (horigin : ∀ header ∈ outgoing.headers, header.1 = "origin" → header.2 = asBytes origin)
    : Authorized config head where
  target := h.target
  headers := h.size
  host _ := ⟨asBytes host, h.host, host, hserves.hosted, eqIgnoreAsciiCase_refl _⟩
  api _ := {
    plain := by rwa [hpath]
    method := by rwa [h.method]
    origin := by
      by_cases hsent : "origin" ∈ outgoing.headers.map Prod.fst
      . rcases List.mem_map.mp hsent with ⟨header, hheader, hname⟩
        have hsends := h.headers header hheader
        rw [hname, horigin header hheader hname] at hsends
        exact .inr ⟨origin, hserves.listed, hsends⟩
      . rcases h.origin hsent with hnone | hsends
        . exact .inl hnone
        . exact .inr ⟨origin, hserves.listed, hsends⟩
    site := h.site
    query := h.query
    encoding := h.encoding }
  asset hasset := by
    have hapi : "/api/".toList <+: head.path := by
      rw [hpath]
      simpa using isApi_path call
    rcases hapi with ⟨rest, hrest⟩
    rw [← hrest] at hasset
    simp at hasset

theorem web_send_eq_ok {call : Invocation} (h : Web.Api.send call = .ok outgoing)
    : call.NamesNote ∧ outgoing = call.withHeaders [] := by
  rcases call with _ | _ | ⟨_ | _ | _, id, token⟩
  . cases h
    exact ⟨trivial, rfl⟩
  . cases h
    exact ⟨trivial, rfl⟩
  all_goals
    unfold Web.Api.send Web.idPath Web.requestError at h
    simp only [Except.bind_eq_ok, Except.guard_eq_ok, Bool.not_eq_true', Bool.not_eq_false] at h
    rcases h with ⟨_, ⟨hid, hpath⟩, h⟩
    cases hpath
    cases h
    exact ⟨hid, rfl⟩

theorem cli_send_eq_ok {call : Invocation} {text : JsString} (h : Cli.Api.send text call = .ok outgoing)
    : call.NamesNote ∧ outgoing = call.withHeaders [("origin", byteString text)] := by
  unfold Cli.Api.send at h
  rw [Except.bind_eq_ok] at h
  rcases h with ⟨options, hoptions, h⟩
  cases h
  rcases call with _ | _ | ⟨_ | _ | _, id, token⟩
  . cases hoptions
    exact ⟨trivial, rfl⟩
  . cases hoptions
    exact ⟨trivial, rfl⟩
  all_goals
    unfold Cli.Api.options Cli.path Cli.authorization at hoptions
    simp only [Except.bind_eq_ok, Except.guard_eq_ok, Bool.not_eq_true', Bool.not_eq_false] at hoptions
    rcases hoptions with ⟨_, ⟨hid, hpath⟩, -, hoptions⟩
    cases hpath
    cases hoptions
    exact ⟨hid, rfl⟩

theorem byteString_ofString {text : String} (h : ∀ c ∈ text.toList, c.toNat < 128)
    : byteString (JsString.ofString text) = asBytes text := by
  rw [JsString.ofString, JsString.ofChars_of_ascii h, asBytes, Utf8.encode_of_ascii h, byteString, List.map_map]
  apply List.map_congr_left
  intro c hc
  have hc := h c hc
  simp

theorem byteString_units {codes : List Nat} (h : Ascii.IsAscii codes)
    : byteString (Ascii.units codes) = Ascii.bytes codes := by
  rw [byteString, Ascii.bytes, ← Ascii.map_toNat_units h, List.map_map, Ascii.map_toNat_units h]
  rfl

theorem ApiCall.path_access (route : AccessRoute) {codes : List Nat} (token : JsString)
    (h : Ascii.IsAscii codes)
    : JsString.ofChars (Server.ApiCall.access route (Ascii.string codes)).path
        = (Invocation.access route (Ascii.units codes) token).common.path := by
  cases route
  all_goals
    simp only [ApiCall.path, ApiCall.segments, PathTemplate.unsplit, Ascii.string, String.toList_ofList,
      Invocation.common, withToken, JsString.ofString, ← Ascii.ofChars_chars h, ← JsString.ofChars_append]
    simp [List.intercalate]

theorem ApiCall.plain_access (route : AccessRoute) {codes : List Nat} (h : IsToken codes) (hne : codes ≠ [])
    : '%' ∉ (Server.ApiCall.access route (Ascii.string codes)).path
        ∧ (Server.ApiCall.access route (Ascii.string codes)).Named := by
  have hchars := h.not_mem
  constructor
  . cases route
    all_goals
      simp only [ApiCall.path, ApiCall.segments, PathTemplate.unsplit, Ascii.string, String.toList_ofList]
      simp [List.intercalate, hchars.2]
  . intro id hid
    simp only [ApiCall.parameters, List.mem_singleton] at hid
    subst hid
    rw [Ascii.string, String.toList_ofList]
    refine ⟨?_, hchars.1⟩
    intro hempty
    have hnil := congrArg String.toList hempty
    rw [String.toList_ofList] at hnil
    exact hne (List.map_eq_nil_iff.mp hnil)

variable {added : List (String × Bytes)} {random : String}

theorem Arrives.reaches_access {route : AccessRoute} {id token : JsString}
    (h : Arrives origin host ((Invocation.access route id token).withHeaders added) head body)
    (hserves : Serves config origin host) (hid : Web.isId id = true) (htoken : Cli.isCapability token = true)
    (hadded : ∀ header ∈ added, header.2 = asBytes origin)
    : (Invocation.access route id token).Reaches random (incoming config head body random) := by
  simp only [Web.isId, Cli.isCapability, Bool.and_eq_true, decide_eq_true_eq] at hid htoken
  rcases exists_token hid.2 with ⟨idCodes, hidCodes, rfl⟩
  rcases exists_token htoken.2 with ⟨tokenCodes, htokenCodes, rfl⟩
  rw [Ascii.length_units] at hid htoken
  let outgoing := (Invocation.access route (Ascii.units idCodes) (Ascii.units tokenCodes)).withHeaders added
  let call : Server.ApiCall := .access route (Ascii.string idCodes)
  rcases ApiCall.plain_access route hidCodes (by rintro rfl; simp at hid) with ⟨hplain, hnamed⟩
  have hpath : head.path = call.path := by
    apply JsString.ofChars_injective
    rw [h.path, ApiCall.path_access route (Ascii.units tokenCodes) hidCodes.isAscii]
    rfl
  have hmethod : outgoing.method = call.method := by
    cases route <;> rfl
  have htype : ("content-type", asBytes "application/json") ∈ outgoing.headers := by
    cases route <;> exact List.mem_cons_self
  have hbody : outgoing.body = Shared.encoderEncode (tokenText (Ascii.units tokenCodes)) := by
    cases route <;> rfl
  have horigin : ∀ header ∈ outgoing.headers, header.1 = "origin" → header.2 = asBytes origin := by
    intro header hheader hname
    have hcommon : header = ("content-type", asBytes "application/json") ∨ header ∈ added := by
      cases route <;> simpa [outgoing, Invocation.withHeaders, Invocation.common, withToken] using hheader
    rcases hcommon with rfl | hmem
    . exact absurd hname (by decide)
    . exact hadded header hmem
  have hincoming : incoming config head body random = call.incoming head body random := by
    rw [incoming_eq_iff]
    refine ⟨h.authorized hserves hpath hplain ?_ horigin, h.method.trans hmethod, hpath, hnamed⟩
    cases route <;> exact Method.noConfusion
  have hread : Server.body (head.request body) "application/json" 1024 = .ok outgoing.body := by
    apply h.reads htype _ (by decide)
    rw [hbody, length_tokenText htokenCodes.toIsWord htoken.1]
    decide
  refine ⟨Ascii.string idCodes, Ascii.string tokenCodes, head.request body, Ascii.ofString_string hidCodes.isAscii,
    Ascii.ofString_string htokenCodes.isAscii, hincoming, ?_⟩
  rw [HttpRequest.capability, hread, Except.ok_bind, hbody, fromSlice?_tokenText htokenCodes.toIsWord]
  rfl

theorem Arrives.reaches_challenge (h : Arrives origin host (Invocation.challenge.withHeaders added) head body)
    (hserves : Serves config origin host) (hadded : ∀ header ∈ added, header.2 = asBytes origin)
    : Invocation.challenge.Reaches random (incoming config head body random) := by
  have hpath : head.path = ApiCall.challenge.path := by
    apply JsString.ofChars_injective
    rw [h.path]
    rfl
  have hincoming : incoming config head body random = ApiCall.challenge.incoming head body random := by
    rw [incoming_eq_iff]
    refine ⟨h.authorized hserves hpath (by decide) Method.noConfusion ?_, h.method, hpath, nofun⟩
    intro header hheader _
    exact hadded header hheader
  exact hincoming

theorem proofHeaders_eq_ok {challenge nonce : List Bytes} (token : ByteString 32) {n : Nat}
    (hn : n ≤ 9007199254740991)
    (hchallenge : oneHeader challenge = .ok (some (Ascii.bytes (base64 token.1))))
    (hnonce : oneHeader nonce = .ok (some (Decimal.print n)))
    : Process.proofHeaders challenge nonce = .ok (Ascii.string (base64 token.1), toString n) := by
  have hid : validId (Ascii.string (base64 token.1)) = true := isOk_base64Bytes_iff.mpr ⟨token, rfl⟩
  have hnumber : validNonce (toString n) = true := validNonce_iff.mpr ⟨n, hn, rfl⟩
  have htext : Ascii.string ((Decimal.print n).map UInt8.toNat) = toString n := by
    rw [Decimal.print, Ascii.map_toNat_bytes (Decimal.isAscii_codes n), Server.string_codes]
  unfold Process.proofHeaders
  rw [hchallenge, Except.ok_bind]
  dsimp only
  rw [hnonce, Except.ok_bind]
  dsimp only
  rw [Ascii.map_toNat_bytes (isWord_base64 _).isAscii, htext, hid, hnumber]
  rfl

theorem Arrives.reaches_create {packet : Bytes} {issued found : JsString}
    (h : Arrives origin host ((Invocation.create packet issued found).withHeaders added) head body)
    (hserves : Serves config origin host) (hhonest : (Invocation.create packet issued found).IsHonest)
    (hadded : ∀ header ∈ added, header.2 = asBytes origin)
    : (Invocation.create packet issued found).Reaches random (incoming config head body random) := by
  rcases hhonest with ⟨hpacket, ⟨token, rfl⟩, n, hn, rfl⟩
  have htoken := (isWord_base64 token.1).isAscii
  have hissued : byteString (Shared.toBase64Url token) = Ascii.bytes (base64 token.1) := by
    rw [Shared.toBase64Url_eq_units]
    exact byteString_units htoken
  have hfound : byteString (Ascii.units (Decimal.codes n)) = Decimal.print n :=
    byteString_units (Decimal.isAscii_codes n)
  have hpath : head.path = ApiCall.createNote.path := by
    apply JsString.ofChars_injective
    rw [h.path]
    rfl
  have horigin : ∀ header ∈ ((Invocation.create packet (Shared.toBase64Url token)
      (Ascii.units (Decimal.codes n))).withHeaders added).headers,
      header.1 = "origin" → header.2 = asBytes origin := by
    intro header hheader hname
    simp only [Invocation.withHeaders, Invocation.common, postPacket, List.cons_append, List.nil_append,
      List.mem_cons] at hheader
    rcases hheader with rfl | rfl | rfl | hmem
    . simp at hname
    . simp at hname
    . simp at hname
    . exact hadded header hmem
  have hincoming : incoming config head body random = ApiCall.createNote.incoming head body random := by
    rw [incoming_eq_iff]
    exact ⟨h.authorized hserves hpath (by decide) Method.noConfusion horigin, h.method, hpath, nofun⟩
  have hchallenge : Sends head "x-erase-challenge" (Ascii.bytes (base64 token.1)) := by
    rw [← hissued]
    apply h.headers ("x-erase-challenge", byteString (Shared.toBase64Url token))
    simp [Invocation.withHeaders, Invocation.common, postPacket]
  have hnonce : Sends head "x-erase-nonce" (Decimal.print n) := by
    rw [← hfound]
    apply h.headers ("x-erase-nonce", byteString (Ascii.units (Decimal.codes n)))
    simp [Invocation.withHeaders, Invocation.common, postPacket]
  have hread : Server.body (head.request body) "application/octet-stream" maxPacketBytes = .ok packet := by
    apply h.reads _ hpacket
    . show 64 * 1024 * 1024 + 32768 < 2 ^ 64
      decide
    . exact List.mem_cons_self
  have hproof := proofHeaders_eq_ok token hn (oneHeader_eq_some_iff.mpr hchallenge)
    (oneHeader_eq_some_iff.mpr hnonce)
  refine ⟨Ascii.string (base64 token.1), toString n, _, _, _, ?_, ?_, hincoming, hproof, hread⟩
  . rw [Ascii.ofString_string htoken, Shared.toBase64Url_eq_units]
    rfl
  . rw [← Server.string_codes, Ascii.ofString_string (Decimal.isAscii_codes n)]

/--
Whatever a client calls, a server of its origin hands it to the handler of that call, which reads just
what the client has filled in.
-/
theorem calls_reach_handlers (hserves : Serves config origin host) (call : Invocation)
    (hhonest : call.IsHonest)
    (hsend : Web.Api.send call = .ok outgoing ∨ Cli.Api.send (JsString.ofString origin) call = .ok outgoing)
    (harrives : Arrives origin host outgoing head body) (random : String)
    : call.Reaches random (incoming config head body random) := by
  have hsent : call.NamesNote ∧ ∃ added, (∀ header ∈ added, header.2 = asBytes origin)
      ∧ outgoing = call.withHeaders added := by
    rcases hsend with hweb | hcli
    . rcases web_send_eq_ok hweb with ⟨hnote, houtgoing⟩
      exact ⟨hnote, [], nofun, houtgoing⟩
    . rcases cli_send_eq_ok hcli with ⟨hnote, houtgoing⟩
      refine ⟨hnote, _, ?_, houtgoing⟩
      rw [List.forall_mem_singleton, byteString_ofString hserves.ascii]
  rcases hsent with ⟨hnote, added, hadded, rfl⟩
  cases call with
  | challenge => exact harrives.reaches_challenge hserves hadded
  | create packet issued found => exact harrives.reaches_create hserves hhonest hadded
  | access route id token => exact harrives.reaches_access hserves hnote hhonest hadded

end

-- The command line opens a note of a server that runs on the same machine.
def exampleText : JsString := List.replicate 43 65

def exampleOutgoing : Outgoing where
  method := .post
  path := JsString.ofString "/api/notes/AAAAAAAAAAAAAAAAAAAAAAAAAAAAAAAAAAAAAAAAAAA/open"
  headers := [
    ("content-type", Server.asBytes "application/json"),
    ("origin", Server.asBytes "http://localhost:3001")]
  body := Server.asBytes "\x7b\"token\":\"AAAAAAAAAAAAAAAAAAAAAAAAAAAAAAAAAAAAAAAAAAA\"\x7d"

def exampleHead : Server.RequestHead where
  method := .post
  uri := {
    scheme := none
    authority := none
    path := "/api/notes/AAAAAAAAAAAAAAAAAAAAAAAAAAAAAAAAAAAAAAAAAAA/open".toList
    query := none }
  headers := [
    (Server.asBytes "host", Server.asBytes "localhost:3001"),
    (Server.asBytes "content-type", Server.asBytes "application/json"),
    (Server.asBytes "content-length", Server.asBytes "55"),
    (Server.asBytes "origin", Server.asBytes "http://localhost:3001")]

theorem serves_default : Serves .default "http://localhost:3001" "localhost:3001" where
  listed := by decide
  hosted := by decide
  ascii := by simp

theorem arrives_exampleHead
    : Arrives "http://localhost:3001" "localhost:3001" exampleOutgoing exampleHead
        (.complete exampleOutgoing.body) where
  method := rfl
  path := by decide +kernel
  query := rfl
  target := by decide +kernel
  size := by decide +kernel
  host := ⟨by decide +kernel, by decide +kernel⟩
  headers := by
    intro header hheader
    simp only [exampleOutgoing, List.mem_cons, List.not_mem_nil, or_false] at hheader
    rcases hheader with rfl | rfl
    . exact ⟨by decide +kernel, by decide +kernel⟩
    . exact ⟨by decide +kernel, by decide +kernel⟩
  origin hsent := absurd hsent (by decide)
  site := .inl (by decide +kernel)
  encoding := by decide +kernel
  length := .inr ⟨by decide +kernel, by decide +kernel⟩
  body := rfl

theorem calls_reach_handlers_exampleHead
    : (Invocation.access .openNote exampleText exampleText).Reaches ""
        (Server.incoming .default exampleHead (.complete exampleOutgoing.body) "") :=
  calls_reach_handlers serves_default (.access .openNote exampleText exampleText)
    (show Cli.isCapability exampleText = true by decide +kernel)
    (.inr (by decide +kernel : Cli.Api.send (JsString.ofString "http://localhost:3001")
      (.access .openNote exampleText exampleText) = .ok exampleOutgoing)) arrives_exampleHead ""

end Client
