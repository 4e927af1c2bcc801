import Erase.Library.HeaderMap
import Erase.Server.Authorize
import Erase.Server.Json

/-!
The replies of a process: what the handlers and the errors are turned into, and what the guard adds to
each of them.
-/

namespace Server

structure HttpReply where
  status : Nat
  headers : HeaderMap String Bytes
  body : Bytes
  deriving DecidableEq

namespace ApiError

def code : ApiError → String
  | unavailable => "unavailable"
  | invalidRequest => "invalid_request"
  | tooLarge => "too_large"
  | requestTimeout => "request_timeout"
  | proofInvalid => "proof_invalid"
  | proofReused => "proof_reused"
  | idConflict => "id_conflict"
  | capacity => "capacity"
  | rateLimited => "rate_limited"
  | forbidden => "forbidden"
  | notFound => "not_found"

-- Some browsers send a request again after 408.
def status : ApiError → Nat
  | unavailable | notFound => 404
  | invalidRequest | proofInvalid => 400
  | tooLarge => 413
  | requestTimeout => 504
  | proofReused | idConflict => 409
  | capacity => 503
  | rateLimited => 429
  | forbidden => 403

end ApiError

-- `axum::Json`
def json (status : Nat) (body : Bytes) : HttpReply where
  status := status
  headers := [("content-type", asBytes "application/json")]
  body := body

def ApiError.intoResponse (error : ApiError) : HttpReply :=
  json error.status (SerdeJson.toVec [("error", .string error.code)])

def Response.intoResponse : Response → HttpReply
  | .metadata reply => json 200 reply.toVec
  | .packet bytes =>
    { status := 200, headers := [("content-type", asBytes "application/octet-stream")], body := bytes }
  | .noContent => { status := 204, headers := [], body := [] }

-- `page` is the reply that is no answer to a call.
def Payload.intoResponse (page : HttpReply) : Payload → HttpReply
  | .publicConfig reply => json 200 reply.toVec
  | .challenge reply => json 200 reply.toVec
  | .created reply => json 201 reply.toVec
  | .access reply => reply.intoResponse
  | .page => page

def securityHeaders : HeaderMap String Bytes := [
  ("cache-control", "no-store, max-age=0"),
  ("pragma", "no-cache"),
  ("content-security-policy", "default-src 'none'; script-src 'self' 'wasm-unsafe-eval'; style-src 'self'; connect-src 'self'; img-src 'self' data:; font-src 'self'; worker-src 'self'; base-uri 'none'; form-action 'none'; object-src 'none'; frame-ancestors 'none'"),
  ("x-content-type-options", "nosniff"),
  ("referrer-policy", "no-referrer"),
  ("cross-origin-opener-policy", "same-origin"),
  ("cross-origin-resource-policy", "same-origin"),
  ("x-frame-options", "DENY"),
  ("x-dns-prefetch-control", "off"),
  ("permissions-policy", "camera=(), microphone=(), geolocation=(), payment=(), usb=(), bluetooth=(), browsing-topics=()")
].map fun (name, value) => (name, asBytes value)

-- The first host that a request names, if it is visible text.
def RequestHead.host (head : RequestHead) : Bytes := ((head.getAll "host").head?.bind toStr?).getD []

section

variable (config : Configuration) (head : RequestHead)

def hsts : Bool :=
  (config.origins.zip config.hosts).any fun (origin, configured) =>
    "https://".toList.isPrefixOf origin.toList && eqIgnoreAsciiCase (asBytes configured) head.host

-- What the guard writes over the headers of a reply.
def hardened (reply : HttpReply) : HttpReply :=
  let headers := reply.headers.insertAll securityHeaders
  let headers :=
    if hsts config head then headers.insert "strict-transport-security" (asBytes "max-age=31536000")
    else headers
  let headers :=
    if reply.status = 429 ∨ reply.status = 503 then headers.insert "retry-after" (asBytes "2")
    else headers
  { reply with headers }

def staticPermit (staticSlots : Nat) : Except ApiError Unit :=
  if head.isApi then .ok () else (takeSlot staticSlots).map fun _ => ()

-- `inner` is the reply of the router, unless the deadline of the request passes.
def guarded (staticSlots : Nat) (inner : Option HttpReply) : Except ApiError HttpReply := do
  authorize config head
  staticPermit head staticSlots
  match inner with
  | none => .error .requestTimeout
  | some reply => return if reply.status = 405 then ApiError.invalidRequest.intoResponse else reply

def guard (staticSlots : Nat) (inner : Option HttpReply) : HttpReply :=
  hardened config head
    (match guarded config head staticSlots inner with
    | .ok reply => reply
    | .error error => error.intoResponse)

end

-- The headers that the guard writes, in its order.
def guardHeaders (config : Configuration) (head : RequestHead) (status : Nat) : HeaderMap String Bytes :=
  securityHeaders
    ++ (if hsts config head then [("strict-transport-security", asBytes "max-age=31536000")] else [])
    ++ if status = 429 ∨ status = 503 then [("retry-after", asBytes "2")] else []

def guardedNames : List String :=
  securityHeaders.map Prod.fst ++ ["strict-transport-security", "retry-after"]

-- The guard hands on what the router makes of the request.
structure HandsOn (config : Configuration) (head : RequestHead) (staticSlots : Nat)
    (inner : Option HttpReply) (reply : HttpReply) : Prop where
  authorized : Authorized config head
  slot : head.isApi = true ∨ 0 < staticSlots
  routed : inner = some reply
  allowed : reply.status ≠ 405

section

variable {config : Configuration} {head : RequestHead} {staticSlots : Nat} {inner : Option HttpReply}
  {reply : HttpReply} {name : String}

theorem hardened_headers
    : (hardened config head reply).headers = reply.headers.insertAll (guardHeaders config head reply.status)
    := by
  unfold hardened guardHeaders HeaderMap.insertAll
  dsimp only
  rw [List.foldl_append, List.foldl_append]
  by_cases hhsts : hsts config head = true
  . rw [if_pos hhsts, if_pos hhsts]
    split <;> simp only [List.foldl_cons, List.foldl_nil]
  . rw [if_neg hhsts, if_neg hhsts]
    split <;> simp only [List.foldl_cons, List.foldl_nil]

theorem nodup_guardedNames : guardedNames.Nodup := by decide

theorem guardHeaders_names (status : Nat)
    : ((guardHeaders config head status).map Prod.fst).Sublist guardedNames := by
  unfold guardHeaders guardedNames
  rw [List.map_append, List.map_append, List.append_assoc]
  apply List.Sublist.append_left
  split
  . split
    . apply List.Sublist.refl
    . exact List.sublist_append_left _ ["retry-after"]
  . split
    . exact List.sublist_append_right ["strict-transport-security"] _
    . apply List.nil_sublist

theorem getAll_hardened {value : Bytes} (h : (name, value) ∈ guardHeaders config head reply.status)
    : (hardened config head reply).headers.getAll name = [value] := by
  rw [hardened_headers]
  apply HeaderMap.getAll_insertAll _ h
  exact (guardHeaders_names reply.status).nodup nodup_guardedNames

theorem getAll_hardened_of_not_mem (h : name ∉ (guardHeaders config head reply.status).map Prod.fst)
    : (hardened config head reply).headers.getAll name = reply.headers.getAll name := by
  rw [hardened_headers]
  exact HeaderMap.getAll_insertAll_of_not_mem h

theorem getAll_hsts (hnone : reply.headers.getAll "strict-transport-security" = [])
    : (hardened config head reply).headers.getAll "strict-transport-security"
        = if hsts config head then [asBytes "max-age=31536000"] else [] := by
  split
  . next h => exact getAll_hardened (by simp [guardHeaders, h])
  . next h =>
    rw [getAll_hardened_of_not_mem, hnone]
    rw [guardHeaders, if_neg h]
    split <;> decide

theorem getAll_retry (hnone : reply.headers.getAll "retry-after" = [])
    : (hardened config head reply).headers.getAll "retry-after"
        = if reply.status = 429 ∨ reply.status = 503 then [asBytes "2"] else [] := by
  split
  . next h => exact getAll_hardened (by simp [guardHeaders, h])
  . next h =>
    rw [getAll_hardened_of_not_mem, hnone]
    rw [guardHeaders, if_neg h]
    split <;> decide

-- Only hosts of HTTPS origins pin their scheme.
theorem hsts_iff {parse : String → Option Url} (hparse : Url.Lawful parse) (hvalid : config.Valid parse)
    : hsts config head = true
        ↔ ∃ host, "https" ++ "://" ++ host ∈ config.origins
          ∧ eqIgnoreAsciiCase (asBytes host) head.host = true := by
  have hsecure : ∀ {origin host}, Configuration.IsOrigin parse origin host
      → ("https://".toList.isPrefixOf origin.toList = true ↔ origin = "https" ++ "://" ++ host) := by
    intro origin host horigin
    rcases horigin.eq hparse with rfl | rfl
    . constructor
      . intro h
        simp [String.toList_append] at h
      . intro h
        have hchar := congrArg (fun text => text.toList[4]?) h
        simp [String.toList_append] at hchar
    . simp [String.toList_append]
  have hzip : ∀ {origin host}, (origin, host) ∈ config.origins.zip config.hosts
      → Configuration.IsOrigin parse origin host := by
    intro origin host hmem
    exact List.forall₂_zip hvalid.origins hmem
  simp only [hsts, List.any_eq_true, Bool.and_eq_true, Prod.exists]
  constructor
  . rintro ⟨origin, host, hmem, hscheme, hhost⟩
    refine ⟨host, ?_, hhost⟩
    rw [← (hsecure (hzip hmem)).mp hscheme]
    exact (List.of_mem_zip hmem).1
  . rintro ⟨host, hmem, hhost⟩
    rw [← List.map_fst_zip hvalid.origins.length_eq.le] at hmem
    rcases List.mem_map.mp hmem with ⟨⟨origin, host'⟩, hzipped, rfl⟩
    have hscheme : "https://".toList.isPrefixOf ("https" ++ "://" ++ host).toList = true := by
      simp [String.toList_append]
    have hsame := (hsecure (hzip hzipped)).mp hscheme
    rw [String.append_right_inj] at hsame
    subst hsame
    exact ⟨_, host, hzipped, hscheme, hhost⟩

theorem staticPermit_eq_ok_iff
    : staticPermit head staticSlots = .ok () ↔ head.isApi = true ∨ 0 < staticSlots := by
  unfold staticPermit takeSlot
  cases head.isApi with
  | true => simp
  | false =>
    by_cases hfree : staticSlots = 0
    . simp [hfree, Except.map]
    . simp only [Bool.false_eq_true, if_false, hfree, Except.map, false_or, true_iff]
      omega

theorem guarded_eq_ok_iff
    : guarded config head staticSlots inner = .ok reply
        ↔ Authorized config head ∧ (head.isApi = true ∨ 0 < staticSlots)
          ∧ ∃ routed, inner = some routed
            ∧ reply = if routed.status = 405 then ApiError.invalidRequest.intoResponse else routed := by
  unfold guarded
  rw [Except.check_eq_ok, Except.check_eq_ok, authorize_eq_ok_iff, staticPermit_eq_ok_iff]
  cases inner with
  | none => simp
  | some routed =>
    simp only [Option.some.injEq, exists_eq_left']
    change _ ∧ _ ∧ Except.ok _ = _ ↔ _
    rw [Except.ok.injEq, eq_comm (a := reply)]

theorem HandsOn.guarded {routed : HttpReply} (h : HandsOn config head staticSlots inner routed)
    : guarded config head staticSlots inner = .ok routed := by
  rw [guarded_eq_ok_iff]
  exact ⟨h.authorized, h.slot, routed, h.routed, (if_neg h.allowed).symm⟩

-- What becomes of a request whose reply is not the router's.
theorem guarded_of_not_handsOn (h : ¬∃ routed, HandsOn config head staticSlots inner routed)
    : ∃ error : ApiError, guarded config head staticSlots inner = .error error
        ∨ guarded config head staticSlots inner = .ok error.intoResponse := by
  cases hguarded : Server.guarded config head staticSlots inner with
  | error error => exact ⟨error, .inl rfl⟩
  | ok reply =>
    rcases guarded_eq_ok_iff.mp hguarded with ⟨hauthorized, hslot, routed, hrouted, hreply⟩
    refine ⟨.invalidRequest, .inr ?_⟩
    by_cases hallowed : routed.status = 405
    . rw [hreply, if_pos hallowed]
    . exact absurd ⟨routed, hauthorized, hslot, hrouted, hallowed⟩ h

theorem ApiError.status_ne (error : ApiError) : error.status ≠ 405 ∧ error.status ≠ 408 := by
  cases error <;> decide

theorem guard_eq (config : Configuration) (head : RequestHead) (staticSlots : Nat)
    (inner : Option HttpReply)
    : ∃ reply, guard config head staticSlots inner = hardened config head reply
        ∧ ((∃ error : ApiError, reply = error.intoResponse)
          ∨ HandsOn config head staticSlots inner reply)
        ∧ ∀ routed, HandsOn config head staticSlots inner routed → reply = routed := by
  by_cases h : ∃ routed, HandsOn config head staticSlots inner routed
  . rcases h with ⟨routed, hrouted⟩
    refine ⟨routed, by rw [guard, hrouted.guarded], .inr hrouted, ?_⟩
    intro other hother
    exact Option.some.inj (hrouted.routed.symm.trans hother.routed)
  . rcases guarded_of_not_handsOn h with ⟨error, herror | herror⟩
    . refine ⟨error.intoResponse, by rw [guard, herror], .inl ⟨error, rfl⟩, ?_⟩
      intro routed hrouted
      exact absurd ⟨routed, hrouted⟩ h
    . refine ⟨error.intoResponse, by rw [guard, herror], .inl ⟨error, rfl⟩, ?_⟩
      intro routed hrouted
      exact absurd ⟨routed, hrouted⟩ h

/--
Whatever a request is and whatever reply the router makes of it without the two headers that the guard decides
on, its reply carries each security header once, pins the scheme of HTTPS hosts only, and never asks a browser
to send the request again.
-/
theorem guard_hardens {parse : String → Option Url} (hparse : Url.Lawful parse)
    (hvalid : config.Valid parse) (head : RequestHead) (staticSlots : Nat) (inner : Option HttpReply)
    (hplain : ∀ routed, inner = some routed → routed.headers.getAll "strict-transport-security" = []
      ∧ routed.headers.getAll "retry-after" = [])
    : let reply := guard config head staticSlots inner
      (∀ pair ∈ securityHeaders, reply.headers.getAll pair.1 = [pair.2])
      ∧ (reply.headers.getAll "strict-transport-security" = [asBytes "max-age=31536000"]
        ↔ ∃ host, "https" ++ "://" ++ host ∈ config.origins
          ∧ eqIgnoreAsciiCase (asBytes host) head.host = true)
      ∧ (reply.headers.getAll "retry-after"
        = if reply.status = 429 ∨ reply.status = 503 then [asBytes "2"] else [])
      ∧ (∀ routed, HandsOn config head staticSlots inner routed
        → reply.status = routed.status ∧ reply.body = routed.body
          ∧ ∀ name ∉ guardedNames, reply.headers.getAll name = routed.headers.getAll name)
      ∧ ((¬∃ routed, HandsOn config head staticSlots inner routed)
        → ∃ error : ApiError, reply.status = error.status ∧ reply.status ≠ 408
          ∧ reply.body = error.intoResponse.body)
      ∧ reply.status ≠ 405 := by
  intro reply
  rcases guard_eq config head staticSlots inner with ⟨before, hreply, hbefore, hsame⟩
  have hclean : before.headers.getAll "strict-transport-security" = []
      ∧ before.headers.getAll "retry-after" = [] := by
    rcases hbefore with ⟨error, rfl⟩ | hrouted
    . simp [ApiError.intoResponse, json, HeaderMap.getAll]
    . exact hplain before hrouted.routed
  have hstatus : before.status ≠ 405 := by
    rcases hbefore with ⟨error, rfl⟩ | hrouted
    . exact error.status_ne.1
    . exact hrouted.allowed
  rw [show reply = hardened config head before from hreply]
  refine ⟨?_, ?_, getAll_retry hclean.2, ?_, ?_, hstatus⟩
  . intro pair hpair
    apply getAll_hardened
    simp [guardHeaders, hpair]
  . rw [getAll_hsts hclean.1, ← hsts_iff hparse hvalid]
    simp
  . intro routed hrouted
    cases hsame routed hrouted
    refine ⟨rfl, rfl, fun name hname => ?_⟩
    apply getAll_hardened_of_not_mem
    intro hmem
    exact hname ((guardHeaders_names before.status).subset hmem)
  . intro hnot
    rcases hbefore with ⟨error, rfl⟩ | hrouted
    . exact ⟨error, rfl, error.status_ne.2, rfl⟩
    . exact absurd ⟨before, hrouted⟩ hnot

end

def exampleCall : RequestHead where
  method := .get
  uri := { scheme := none, authority := none, path := "/api/challenge".toList, query := none }
  headers := [(asBytes "host", asBytes "localhost:3001")]

open Server.Configuration in
-- A process that is busy says when to come back, and pins no scheme for a host of plain HTTP.
theorem guard_hardens_exampleCall
    : let reply := guard default exampleCall 0 (some ApiError.capacity.intoResponse)
      (∀ pair ∈ securityHeaders, reply.headers.getAll pair.1 = [pair.2])
      ∧ (reply.headers.getAll "strict-transport-security" = [asBytes "max-age=31536000"]
        ↔ ∃ host, "https" ++ "://" ++ host ∈ default.origins
          ∧ eqIgnoreAsciiCase (asBytes host) exampleCall.host = true)
      ∧ reply.headers.getAll "retry-after"
        = if reply.status = 429 ∨ reply.status = 503 then [asBytes "2"] else [] := by
  have hplain : ∀ routed, some ApiError.capacity.intoResponse = some routed
      → routed.headers.getAll "strict-transport-security" = []
        ∧ routed.headers.getAll "retry-after" = [] := by
    intro routed hrouted
    cases hrouted
    decide
  rcases guard_hardens lawful_parseDefault (fromEnv_valid fromEnv_default) exampleCall 0
    (some ApiError.capacity.intoResponse) hplain with ⟨hfixed, hhsts, hretry, -⟩
  exact ⟨hfixed, hhsts, hretry⟩

end Server
