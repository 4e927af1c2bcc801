import Erase.Client.Validation
import Erase.Library.FlatObject
import Erase.Protocol.Opening
import Erase.Protocol.ServerHeader
import Erase.Server.Json

/-!
Both clients accept the replies of a server that keeps to its limits.
-/

open Protocol HeaderValue JsValue

namespace Client

section

variable {members : List (List Nat × Json.Scalar)} {response : HttpResponse} {name : String}

theorem parseJson?_toVec (h : Json.IsFlat members)
    : parseJson? (SerdeJson.toVec (members.map SerdeJson.memberOfCodes)) = some (.object (ofFlat members)) := by
  have hmark : (SerdeJson.toVec (members.map SerdeJson.memberOfCodes)).take 3 ≠ [239, 187, 191] := by
    intro hmark
    have hhead := congrArg List.head? hmark
    rw [List.head?_take, if_neg (by decide), SerdeJson.head?_toVec] at hhead
    exact absurd hhead (by decide)
  rw [parseJson?, decode?, if_neg hmark, SerdeJson.decode?_toVec h, Option.bind_some, parse?_flat h]

-- A flat object that fits the limit reaches the checks of both clients.
theorem request_toVec (h : Json.IsFlat members) (hlimit : (Json.printObject members).length ≤ 8192)
    (hdelivers : Delivers (SerdeJson.toVec (members.map SerdeJson.memberOfCodes)) response)
    : Web.request response = .ok (.object (ofFlat members))
        ∧ Cli.Api.request response = .ok (.object (ofFlat members)) := by
  have hlength : (SerdeJson.toVec (members.map SerdeJson.memberOfCodes)).length ≤ 8192 := by
    rwa [SerdeJson.toVec_memberOfCodes h.isCompact, Ascii.length_bytes]
  rcases hdelivers.reads hlength with ⟨hweb, hcli⟩
  have hstatus : ¬(response.status = 204 ∧ response.ok = true) := fun hempty => hdelivers.content hempty.1
  have hok : ¬(!response.ok) = true := by simp [hdelivers.ok]
  constructor
  . rw [Web.request, if_neg hstatus, hweb]
    simp only [Except.mapError, Except.ok_bind, parseJson?_toVec h]
    rw [if_neg hok]
    rfl
  . rw [Cli.Api.request, if_neg hstatus, hcli]
    simp only [Except.mapError, Except.ok_bind, parseJson?_toVec h]
    rw [if_neg hok]
    rfl

-- A JSON body that no client refuses to read.
def FitsJson (body : Bytes) : Prop :=
  ∃ members, Json.IsFlat members ∧ (Json.printObject members).length ≤ 8192
    ∧ body = SerdeJson.toVec (members.map SerdeJson.memberOfCodes)

theorem FitsJson.reads {body : Bytes} (h : FitsJson body) (hdelivers : Delivers body response)
    : ∃ value, parseJson? body = some value ∧ Web.request response = .ok value
        ∧ Cli.Api.request response = .ok value := by
  rcases h with ⟨members, hflat, hlimit, rfl⟩
  exact ⟨_, parseJson?_toVec hflat, request_toVec hflat hlimit hdelivers⟩

theorem member_ofFlat (h : Json.IsFlat members) {scalar : Json.Scalar}
    (hmem : (codes name, scalar) ∈ members)
    : Web.member (ofFlat members) name = some (ofScalar scalar) := by
  rw [Web.member, ofString_eq_units (h.isCompact _ hmem).key_isAscii]
  exact member?_ofFlat h hmem

theorem string?_ofFlat (h : Json.IsFlat members) {text : List Nat}
    (hmem : (codes name, .text text) ∈ members)
    : string? (ofFlat members) (JsString.ofString name) = some (Ascii.units text) := by
  have hmember := member_ofFlat h hmem
  rw [Web.member] at hmember
  rw [string?, hmember]
  rfl

theorem number?_ofFlat (h : Json.IsFlat members) {n : Nat} (hmem : (codes name, .number n) ∈ members)
    : number? (ofFlat members) (JsString.ofString name) = some (.ofNat n) := by
  have hmember := member_ofFlat h hmem
  rw [Web.member] at hmember
  rw [number?, hmember]
  rfl

theorem integer_ofFlat (h : Json.IsFlat members) {n low high : Nat}
    (hmem : (codes name, .number n) ∈ members) (hrange : low ≤ n ∧ n ≤ high)
    : Web.integer (Web.member (ofFlat members) name) low high = .ok ⟨n, hrange⟩ := by
  have hexact := (h.plain _ hmem).exact n rfl
  have hint : (low : Int) ≤ n ∧ (n : Int) ≤ (high : Int) := by omega
  rw [member_ofFlat h hmem, ofScalar, Web.integer]
  simp only [JsNumber.safeInteger?_ofNat hexact]
  rw [dif_pos hint]
  simp

theorem unix_ofFlat (h : Json.IsFlat members) {n : Nat} (hmem : (codes name, .number n) ∈ members)
    (hn : 1 ≤ n) : Web.unix (Web.member (ofFlat members) name) = .ok n := by
  have hexact := (h.plain _ hmem).exact n rfl
  rw [Web.unix, integer_ofFlat h hmem ⟨hn, by omega⟩]
  rfl

end

section

variable {config : Server.PublicConfig} {response : HttpResponse}

def configMembers (config : Server.PublicConfig) : List (List Nat × Json.Scalar) := [
  (codes "max_content_bytes", .number config.maxContentBytes),
  (codes "max_files", .number config.maxFiles),
  (codes "max_text_bytes", .number config.maxTextBytes),
  (codes "max_ttl", .number config.maxTtl),
  (codes "max_views", .number config.maxViews),
  (codes "pow_bits", .number config.powBits),
  (codes "protocol", .number config.protocol)]

theorem toVec_config
    : config.toVec = SerdeJson.toVec ((configMembers config).map SerdeJson.memberOfCodes) := by
  simp [configMembers, SerdeJson.memberOfCodes, SerdeJson.Scalar.ofCodes, string_codes,
    Server.PublicConfig.toVec]

-- The limits that a client takes from a service.
structure Accepts (config : Server.PublicConfig) : Prop where
  protocol : config.protocol = 1
  content : 1 ≤ config.maxContentBytes ∧ config.maxContentBytes ≤ Shared.maxContentBytes
  text : 1 ≤ config.maxTextBytes ∧ config.maxTextBytes ≤ Shared.maxTextBytes
  files : 1 ≤ config.maxFiles ∧ config.maxFiles ≤ Shared.maxFiles
  views : 1 ≤ config.maxViews ∧ config.maxViews ≤ 100
  ttl : 60 ≤ config.maxTtl ∧ config.maxTtl ≤ 604800
  pow : 1 ≤ config.powBits ∧ config.powBits ≤ 24

structure Agrees (accepted : Web.PublicConfig) (config : Server.PublicConfig) : Prop where
  content : accepted.maxContentBytes = config.maxContentBytes
  text : accepted.maxTextBytes = config.maxTextBytes
  files : accepted.maxFiles = config.maxFiles
  views : accepted.maxViews = config.maxViews
  ttl : accepted.maxTtl = config.maxTtl
  pow : accepted.powBits = config.powBits

theorem Accepts.le (h : Accepts config)
    : ∀ n ∈ [config.protocol, config.maxContentBytes, config.maxTextBytes, config.maxFiles, config.maxViews,
        config.maxTtl, config.powBits], n < 10 ^ 8 := by
  have hcontent : Shared.maxContentBytes = 67108864 := rfl
  have htext : Shared.maxTextBytes = 8388608 := rfl
  have hfiles : Shared.maxFiles = 8 := rfl
  rcases h with ⟨hprotocol, hcontent, htext, hfiles, hviews, httl, hpow⟩
  simp only [List.forall_mem_cons]
  refine ⟨?_, ?_, ?_, ?_, ?_, ?_, ?_, nofun⟩
  all_goals omega

theorem plain_number {name : String} {n : Nat} (hname : IsWord (codes name)) (hn : n < 2 ^ 53)
    : Json.IsPlainMember (codes name, .number n) :=
  Json.isPlainMember_number hname.isAscii hname.isPlain hn

theorem plain_base64 {name : String} (hname : IsWord (codes name)) (bytes : Bytes)
    : Json.IsPlainMember (codes name, .text (base64 bytes)) :=
  Json.isPlainMember_text hname.isAscii hname.isPlain (isWord_base64 bytes).isAscii
    (isWord_base64 bytes).isPlain

theorem Accepts.isFlat (h : Accepts config) : Json.IsFlat (configMembers config) where
  plain := by
    have hle := h.le
    simp only [List.forall_mem_cons] at hle
    rcases hle with ⟨hprotocol, hcontent, htext, hfiles, hviews, httl, hpow, -⟩
    simp only [configMembers, List.forall_mem_cons]
    refine ⟨?_, ?_, ?_, ?_, ?_, ?_, ?_, nofun⟩
    all_goals exact plain_number ⟨by decide, by decide⟩ (by omega)
  nodup := by
    simp only [configMembers, List.map_cons, List.map_nil]
    decide

theorem Accepts.length_le (h : Accepts config)
    : (Json.printObject (configMembers config)).length ≤ 8192 := by
  have hlength : ∀ n < 10 ^ 8, (Decimal.codes n).length ≤ 8 := fun n => Decimal.length_codes_le (by decide)
  have hle := h.le
  simp only [List.forall_mem_cons] at hle
  rcases hle with ⟨hprotocol, hcontent, htext, hfiles, hviews, httl, hpow, -⟩
  have hprotocol := hlength _ hprotocol
  have hcontent := hlength _ hcontent
  have htext := hlength _ htext
  have hfiles := hlength _ hfiles
  have hviews := hlength _ hviews
  have httl := hlength _ httl
  have hpow := hlength _ hpow
  simp [configMembers, Json.printObject, Json.printRest, Json.printMember, Json.Scalar.print, codes]
  omega

theorem config_accepted (h : Accepts config) (hdelivers : Delivers config.toVec response)
    : ∃ accepted, Web.Api.config response = .ok accepted ∧ Agrees accepted config := by
  rw [toVec_config] at hdelivers
  have hrequest := (request_toVec h.isFlat h.length_le hdelivers).1
  have hprotocol : number? (ofFlat (configMembers config)) (JsString.ofString "protocol") = some (.ofNat 1) := by
    rw [← h.protocol]
    apply number?_ofFlat h.isFlat
    simp [configMembers]
  have hinteger {low high n : Nat} {name : String} (hmem : (codes name, .number n) ∈ configMembers config)
      (hrange : low ≤ n ∧ n ≤ high)
      : Web.integer (Web.member (ofFlat (configMembers config)) name) low high = .ok ⟨n, hrange⟩ :=
    integer_ofFlat h.isFlat hmem hrange
  have hcontent := hinteger (show (codes "max_content_bytes", _) ∈ _ by simp [configMembers]) h.content
  have htext := hinteger (show (codes "max_text_bytes", _) ∈ _ by simp [configMembers]) h.text
  have hfiles := hinteger (show (codes "max_files", _) ∈ _ by simp [configMembers]) h.files
  have hviews := hinteger (show (codes "max_views", _) ∈ _ by simp [configMembers]) h.views
  have httl := hinteger (show (codes "max_ttl", _) ∈ _ by simp [configMembers]) h.ttl
  have hpow := hinteger (show (codes "pow_bits", _) ∈ _ by simp [configMembers]) h.pow
  unfold Web.Api.config
  simp only [hrequest, Except.ok_bind, Web.object]
  rw [if_neg (by simp [hprotocol]), hcontent, htext, hfiles, hviews, httl, hpow]
  exact ⟨_, rfl, rfl, rfl, rfl, rfl, rfl, rfl⟩

end

section

variable {n limit : Nat}

theorem lessThan_ofNat : (JsNumber.ofNat n).lessThan limit = decide (n < limit) := by
  simp [JsNumber.lessThan, JsNumber.ofNat]

theorem greaterThan_ofNat : (JsNumber.ofNat n).greaterThan limit = decide (limit < n) := by
  simp [JsNumber.greaterThan, JsNumber.ofNat]

theorem isInteger_ofNat : (JsNumber.ofNat n).isInteger = true := by
  simp [JsNumber.isInteger, JsNumber.ofNat]

theorem isSafeInteger_ofNat (h : n < 2 ^ 53) : Cli.isSafeInteger (JsNumber.ofNat n) = true := by
  rw [Cli.isSafeInteger, JsNumber.safeInteger?_ofNat h]
  rfl

end

section

variable {members : List (List Nat × Json.Scalar)} {name : String}

theorem get_ofFlat (h : Json.IsFlat members) {scalar : Json.Scalar}
    (hmem : (codes name, scalar) ∈ members)
    : Cli.get (.object (ofFlat members)) name = some (ofScalar scalar) :=
  member_ofFlat h hmem

theorem getNumber_ofFlat (h : Json.IsFlat members) {n : Nat} (hmem : (codes name, .number n) ∈ members)
    : Cli.getNumber (.object (ofFlat members)) name = some (.ofNat n) := by
  rw [Cli.getNumber, get_ofFlat h hmem]
  rfl

theorem getString_ofFlat (h : Json.IsFlat members) {text : List Nat}
    (hmem : (codes name, .text text) ∈ members)
    : Cli.getString (.object (ofFlat members)) name = some (Ascii.units text) := by
  rw [Cli.getString, get_ofFlat h hmem]
  rfl

end

section

variable {response : HttpResponse} {expires : Nat}

theorem length_codes_expires (h : expires < 2 ^ 53) : (Decimal.codes expires).length ≤ 16 :=
  Decimal.length_codes_le (by decide) (by omega)

theorem isId_base64 (id : ByteString 32) : Web.isId (Shared.toBase64Url id) = true := by
  have hlength : (Shared.toBase64Url id.1).length = 43 := by rw [Shared.length_toBase64Url, id.2]
  simp [Web.isId, hlength, Shared.all_isBase64Url]

def challengeMembers (token : Bytes) (bits expires : Nat) : List (List Nat × Json.Scalar) := [
  (codes "challenge", .text (base64 token)),
  (codes "bits", .number bits),
  (codes "expires_at", .number expires)]

theorem toVec_challenge (token : Bytes) (bits expires : Nat)
    : Server.Challenge.toVec ⟨Server.encodeUrlSafe token, bits, expires⟩
        = SerdeJson.toVec ((challengeMembers token bits expires).map SerdeJson.memberOfCodes) := by
  simp [challengeMembers, SerdeJson.memberOfCodes, SerdeJson.Scalar.ofCodes, string_codes,
    Server.Challenge.toVec, Server.encodeUrlSafe, base64]

theorem isFlat_challenge (token : Bytes) {bits : Nat} (hbits : bits ≤ 24) (hexpires : expires < 2 ^ 53)
    : Json.IsFlat (challengeMembers token bits expires) where
  plain := by
    simp only [challengeMembers, List.forall_mem_cons]
    refine ⟨plain_base64 ⟨by decide, by decide⟩ _, plain_number ⟨by decide, by decide⟩ ?_,
      plain_number ⟨by decide, by decide⟩ hexpires, nofun⟩
    omega
  nodup := by
    simp only [challengeMembers, List.map_cons, List.map_nil]
    decide

theorem length_challenge_le (token : ByteString 32) {bits : Nat} (hbits : bits ≤ 24)
    (hexpires : expires < 2 ^ 53)
    : (Json.printObject (challengeMembers token bits expires)).length ≤ 8192 := by
  have htoken : (base64 token.1).length = 43 := by rw [length_base64, token.2]
  have hbits : (Decimal.codes bits).length ≤ 2 := Decimal.length_codes_le (by decide) (by omega)
  have hexpires := length_codes_expires hexpires
  simp [challengeMembers, Json.printObject, Json.printRest, Json.printMember, Json.Scalar.print, codes, htoken]
  omega

theorem challenge_accepted (token : ByteString 32) {bits : Nat} (hbits : 1 ≤ bits ∧ bits ≤ 24)
    (hexpires : 1 ≤ expires ∧ expires < 2 ^ 53)
    (hdelivers : Delivers (Server.Challenge.toVec ⟨Server.encodeUrlSafe token, bits, expires⟩) response)
    : Web.Api.challenge response = .ok ⟨Shared.toBase64Url token, bits, expires⟩
        ∧ Cli.Api.challenge response
          = .ok ⟨Shared.toBase64Url token, .ofNat bits, .ofNat expires⟩ := by
  have hflat := isFlat_challenge token.1 hbits.2 hexpires.2
  rw [toVec_challenge] at hdelivers
  rcases request_toVec hflat (length_challenge_le token hbits.2 hexpires.2) hdelivers with ⟨hweb, hcli⟩
  have htext : Ascii.units (base64 token.1) = Shared.toBase64Url token := (Shared.toBase64Url_eq_units _).symm
  have hlength : (Shared.toBase64Url token.1).length = 43 := by rw [Shared.length_toBase64Url, token.2]
  have hchallenge : string? (ofFlat (challengeMembers token bits expires)) (JsString.ofString "challenge")
      = some (Shared.toBase64Url token) := by
    rw [← htext]
    apply string?_ofFlat hflat
    simp [challengeMembers]
  have hunits : Web.integer (Web.member (ofFlat (challengeMembers token bits expires)) "bits") 1 24
      = .ok ⟨bits, hbits⟩ := integer_ofFlat hflat (by simp [challengeMembers]) hbits
  have hunix : Web.unix (Web.member (ofFlat (challengeMembers token bits expires)) "expires_at")
      = .ok expires := unix_ofFlat hflat (by simp [challengeMembers]) hexpires.1
  constructor
  . unfold Web.Api.challenge
    simp only [hweb, Except.ok_bind, Web.object, hchallenge]
    rw [if_neg (by omega), hunits, hunix]
    rfl
  . have hstring : Cli.getString (.object (ofFlat (challengeMembers token bits expires))) "challenge"
        = some (Shared.toBase64Url token) := by
      rw [← htext]
      apply getString_ofFlat hflat
      simp [challengeMembers]
    have hbits' : Cli.getNumber (.object (ofFlat (challengeMembers token bits expires))) "bits"
        = some (.ofNat bits) := getNumber_ofFlat hflat (by simp [challengeMembers])
    have hexpires' : Cli.getNumber (.object (ofFlat (challengeMembers token bits expires))) "expires_at"
        = some (.ofNat expires) := getNumber_ofFlat hflat (by simp [challengeMembers])
    unfold Cli.Api.challenge
    simp only [hcli, Except.ok_bind, hstring, hbits', hexpires']
    rw [if_neg (by simp [Cli.isFalsy]), if_neg]
    . rfl
    . simp only [isInteger_ofNat, lessThan_ofNat, greaterThan_ofNat, isSafeInteger_ofNat hexpires.2]
      simp only [Bool.not_true, Bool.false_or, Bool.or_false, Bool.or_eq_true, decide_eq_true_eq]
      omega

-- The proof accepts the challenge that either client hands it.
theorem isInvalidChallenge_base64 (token : ByteString 32) {bits : Nat} (hbits : bits ≤ 24)
    (hexpires : expires < 2 ^ 53)
    : Shared.isInvalidChallenge ⟨Shared.toBase64Url token, .ofNat bits, .ofNat expires⟩ = false := by
  have hlength : (Shared.toBase64Url token.1).length = 43 := by rw [Shared.length_toBase64Url, token.2]
  have hunits : (Shared.toBase64Url token.1).all Shared.isChallengeUnit = true := by
    rw [List.all_eq_true]
    intro unit hunit
    rw [Shared.isChallengeUnit, List.all_eq_true.mp (Shared.all_isBase64Url token.1) unit hunit]
    rfl
  have hbits' : (bits : Int) ≤ 24 := by omega
  have hnonnegative : 0 ≤ (bits : Int) := by omega
  simp [Shared.isInvalidChallenge, hlength, hunits, JsNumber.safeInteger?_ofNat hexpires,
    JsNumber.safeInteger?_ofNat (show bits < 2 ^ 53 by omega), hbits', hnonnegative]

def createdMembers (id : Bytes) (expires : Nat) : List (List Nat × Json.Scalar) :=
  [(codes "id", .text (base64 id)), (codes "expires_at", .number expires)]

theorem toVec_created (id : Bytes) (expires : Nat)
    : Server.Created.toVec ⟨Server.encodeUrlSafe id, expires⟩
        = SerdeJson.toVec ((createdMembers id expires).map SerdeJson.memberOfCodes) := by
  simp [createdMembers, SerdeJson.memberOfCodes, SerdeJson.Scalar.ofCodes, string_codes,
    Server.Created.toVec, Server.encodeUrlSafe, base64]

theorem isFlat_created (id : Bytes) (hexpires : expires < 2 ^ 53)
    : Json.IsFlat (createdMembers id expires) where
  plain := by
    simp only [createdMembers, List.forall_mem_cons]
    exact ⟨plain_base64 ⟨by decide, by decide⟩ _, plain_number ⟨by decide, by decide⟩ hexpires, nofun⟩
  nodup := by
    simp only [createdMembers, List.map_cons, List.map_nil]
    decide

theorem length_created_le (id : ByteString 32) (hexpires : expires < 2 ^ 53)
    : (Json.printObject (createdMembers id expires)).length ≤ 8192 := by
  have hid : (base64 id.1).length = 43 := by rw [length_base64, id.2]
  have hexpires := length_codes_expires hexpires
  simp [createdMembers, Json.printObject, Json.printRest, Json.printMember, Json.Scalar.print, codes, hid]
  omega

theorem created_accepted (id : ByteString 32) (hexpires : 1 ≤ expires ∧ expires < 2 ^ 53)
    (hdelivers : Delivers (Server.Created.toVec ⟨Server.encodeUrlSafe id, expires⟩) response)
    : Web.Api.create response = .ok ⟨Shared.toBase64Url id, expires⟩
        ∧ Cli.Api.create response = .ok ⟨.string (Shared.toBase64Url id), .ofNat expires⟩ := by
  have hflat := isFlat_created id.1 hexpires.2
  rw [toVec_created] at hdelivers
  rcases request_toVec hflat (length_created_le id hexpires.2) hdelivers with ⟨hweb, hcli⟩
  have htext : Ascii.units (base64 id.1) = Shared.toBase64Url id := (Shared.toBase64Url_eq_units _).symm
  have hid := isId_base64 id
  constructor
  . have hstring : string? (ofFlat (createdMembers id expires)) (JsString.ofString "id")
        = some (Shared.toBase64Url id) := by
      rw [← htext]
      apply string?_ofFlat hflat
      simp [createdMembers]
    have hunix : Web.unix (Web.member (ofFlat (createdMembers id expires)) "expires_at") = .ok expires :=
      unix_ofFlat hflat (by simp [createdMembers]) hexpires.1
    unfold Web.Api.create
    simp only [hweb, Except.ok_bind, Web.object, hstring]
    rw [if_neg (by simp [hid]), hunix]
    rfl
  . have hget : Cli.get (.object (ofFlat (createdMembers id expires))) "id"
        = some (.string (Shared.toBase64Url id)) := by
      have hmem : (codes "id", Json.Scalar.text (base64 id.1)) ∈ createdMembers id expires := by
        simp [createdMembers]
      rw [← htext]
      exact get_ofFlat hflat hmem
    have hexpires' : Cli.getNumber (.object (ofFlat (createdMembers id expires))) "expires_at"
        = some (.ofNat expires) := getNumber_ofFlat hflat (by simp [createdMembers])
    unfold Cli.Api.create
    simp only [hcli, Except.ok_bind, hget, hexpires']
    rw [if_neg (by simp [Cli.isFalsy]), if_neg]
    . rfl
    . simp [Cli.isIdText, hid, isSafeInteger_ofNat hexpires.2]

def metadataMembers (header : Bytes) (expires remaining : Nat) : List (List Nat × Json.Scalar) := [
  (codes "header", .text (base64 header)),
  (codes "expires_at", .number expires),
  (codes "remaining", .number remaining)]

theorem toVec_metadata (header : Bytes) (expires remaining : Nat)
    : Server.Metadata.toVec ⟨Server.encodeUrlSafe header, expires, remaining⟩
        = SerdeJson.toVec ((metadataMembers header expires remaining).map SerdeJson.memberOfCodes) := by
  simp [metadataMembers, SerdeJson.memberOfCodes, SerdeJson.Scalar.ofCodes, string_codes,
    Server.Metadata.toVec, Server.encodeUrlSafe, base64]

theorem isFlat_metadata (header : Bytes) {remaining : Nat} (hexpires : expires < 2 ^ 53)
    (hremaining : remaining ≤ 100) : Json.IsFlat (metadataMembers header expires remaining) where
  plain := by
    simp only [metadataMembers, List.forall_mem_cons]
    refine ⟨plain_base64 ⟨by decide, by decide⟩ _, plain_number ⟨by decide, by decide⟩ hexpires,
      plain_number ⟨by decide, by decide⟩ ?_, nofun⟩
    omega
  nodup := by
    simp only [metadataMembers, List.map_cons, List.map_nil]
    decide

theorem length_metadata_le {header : Bytes} (hheader : header.length ≤ 2048) (hexpires : expires < 2 ^ 53)
    {remaining : Nat} (hremaining : remaining ≤ 100)
    : (Json.printObject (metadataMembers header expires remaining)).length ≤ 8192 := by
  have hcodes : (base64 header).length ≤ 2731 := by
    rw [length_base64]
    omega
  have hremaining : (Decimal.codes remaining).length ≤ 3 := Decimal.length_codes_le (by decide) (by omega)
  have hexpires := length_codes_expires hexpires
  simp [metadataMembers, Json.printObject, Json.printRest, Json.printMember, Json.Scalar.print, codes]
  omega

theorem metadata_accepted {header : Bytes} (hheader : 1 ≤ header.length ∧ header.length ≤ 2048)
    (hexpires : 1 ≤ expires ∧ expires < 2 ^ 53) {remaining : Nat}
    (hremaining : 1 ≤ remaining ∧ remaining ≤ 100)
    (hdelivers : Delivers (Server.Metadata.toVec ⟨Server.encodeUrlSafe header, expires, remaining⟩) response)
    : Web.Api.metadata response = .ok ⟨Shared.toBase64Url header, expires, remaining⟩
        ∧ Cli.Api.metadata response
          = .ok ⟨Shared.toBase64Url header, .ofNat expires, .ofNat remaining⟩ := by
  have hflat := isFlat_metadata header hexpires.2 hremaining.2
  rw [toVec_metadata] at hdelivers
  rcases request_toVec hflat (length_metadata_le hheader.2 hexpires.2 hremaining.2) hdelivers
    with ⟨hweb, hcli⟩
  have htext : Ascii.units (base64 header) = Shared.toBase64Url header :=
    (Shared.toBase64Url_eq_units _).symm
  have hlength : (Shared.toBase64Url header).length ≤ 2731 := by
    rw [Shared.length_toBase64Url]
    omega
  have hne : Shared.toBase64Url header ≠ [] := by
    rw [ne_eq, Shared.toBase64Url_eq_nil]
    apply List.ne_nil_of_length_pos
    omega
  constructor
  . have hstring : string? (ofFlat (metadataMembers header expires remaining)) (JsString.ofString "header")
        = some (Shared.toBase64Url header) := by
      rw [← htext]
      apply string?_ofFlat hflat
      simp [metadataMembers]
    have hunix : Web.unix (Web.member (ofFlat (metadataMembers header expires remaining)) "expires_at")
        = .ok expires := unix_ofFlat hflat (by simp [metadataMembers]) hexpires.1
    have hinteger : Web.integer (Web.member (ofFlat (metadataMembers header expires remaining)) "remaining")
        1 100 = .ok ⟨remaining, hremaining⟩ := integer_ofFlat hflat (by simp [metadataMembers]) hremaining
    have hshort : ¬2800 < (Shared.toBase64Url header).length := by omega
    unfold Web.Api.metadata
    simp only [hweb, Except.ok_bind, Web.object, hstring]
    rw [if_neg (by simp only [hne, Shared.all_isBase64Url]; simpa using hshort), hunix, hinteger]
    rfl
  . have hstring : Cli.getString (.object (ofFlat (metadataMembers header expires remaining))) "header"
        = some (Shared.toBase64Url header) := by
      rw [← htext]
      apply getString_ofFlat hflat
      simp [metadataMembers]
    have hexpires' : Cli.getNumber (.object (ofFlat (metadataMembers header expires remaining))) "expires_at"
        = some (.ofNat expires) := getNumber_ofFlat hflat (by simp [metadataMembers])
    have hremaining' : Cli.getNumber (.object (ofFlat (metadataMembers header expires remaining))) "remaining"
        = some (.ofNat remaining) := getNumber_ofFlat hflat (by simp [metadataMembers])
    unfold Cli.Api.metadata
    simp only [hcli, Except.ok_bind, hstring, hexpires', hremaining']
    rw [if_neg (by simp [Cli.isFalsy]), if_neg]
    . rfl
    . simp only [isInteger_ofNat, lessThan_ofNat, greaterThan_ofNat, isSafeInteger_ofNat hexpires.2]
      simp only [Bool.not_true, Bool.or_false, Bool.or_eq_true, decide_eq_true_eq]
      omega

end

end Client
