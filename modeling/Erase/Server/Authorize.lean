import Erase.Server.Configuration

/-!
What the guard of a process asks of a request before it lets any handler see it.
-/

namespace Server

inductive Method where
  | get
  | head
  | post
  | delete
  | other (name : String)
  deriving DecidableEq, Repr

structure Uri where
  scheme : Option (List Char)
  authority : Option (List Char)
  path : List Char
  query : Option (List Char)
  deriving DecidableEq, Repr

def Uri.toText (uri : Uri) : List Char :=
  (uri.scheme.map (· ++ "://".toList)).getD [] ++ uri.authority.getD [] ++ uri.path
    ++ (uri.query.map ('?' :: ·)).getD []

-- A request without its body. The names of headers are lowercase.
structure RequestHead where
  method : Method
  uri : Uri
  headers : List (Bytes × Bytes)
  deriving DecidableEq, Repr

namespace RequestHead

def path (head : RequestHead) : List Char := head.uri.path

def getAll (head : RequestHead) (name : String) : List Bytes :=
  (head.headers.filter fun header => header.1 = asBytes name).map Prod.snd

def headerBytes (head : RequestHead) : Nat :=
  (head.headers.map fun header => header.1.length + header.2.length).sum

def isApi (head : RequestHead) : Bool := "/api/".toList.isPrefixOf head.path

end RequestHead

def assetExtensions : List String :=
  [".js", ".css", ".wasm", ".svg", ".png", ".jpg", ".jpeg", ".ico", ".woff2"]

def isAssetChar (c : Char) : Bool := c.isAlphanum || "/_-.".toList.contains c

def isAsset (path : List Char) : Bool :=
  path.all isAssetChar
    && !(PathTemplate.segments path).any (fun part => part.head? = some '.')
    && assetExtensions.any fun extension => extension.toList.isSuffixOf path

section

variable (config : Configuration) (head : RequestHead)

def authorizeHost : Except ApiError Unit := do
  match ← oneHeader (head.getAll "host") with
  | none => .error .forbidden
  | some host =>
    if !config.hosts.any (fun allowed => eqIgnoreAsciiCase (asBytes allowed) host) then .error .forbidden
    return ()

def authorizeOrigin : Except ApiError Unit := do
  match ← oneHeader (head.getAll "origin") with
  | none => return ()
  | some origin =>
    if !config.origins.any (fun allowed => asBytes allowed = origin) then .error .forbidden
    return ()

def authorizeSite : Except ApiError Unit := do
  match ← oneHeader (head.getAll "sec-fetch-site") with
  | none => return ()
  | some site =>
    if site ≠ asBytes "same-origin" then .error .forbidden
    return ()

def authorizeApi : Except ApiError Unit := do
  if head.path.contains '%' then .error .notFound
  if head.method = .head then .error .invalidRequest
  authorizeOrigin config head
  authorizeSite head
  if head.uri.query.isSome || head.getAll "content-encoding" ≠ [] then .error .invalidRequest
  return ()

def authorize : Except ApiError Unit := do
  if (Utf8.encode head.uri.toText).length > 2048 ∨ head.headerBytes > 8192 then .error .invalidRequest
  if head.path ≠ "/healthz".toList then authorizeHost config head
  if head.isApi then authorizeApi config head
  if "/assets/".toList.isPrefixOf head.path && !isAsset head.path then .error .notFound
  return ()

-- The one value of a header, which is visible text.
def Sends (name : String) (value : Bytes) : Prop :=
  head.getAll name = [value] ∧ toStr? value = some value

structure AuthorizedHost : Prop where
  host : ∃ host, Sends head "host" host
    ∧ ∃ allowed ∈ config.hosts, eqIgnoreAsciiCase (asBytes allowed) host = true

structure AuthorizedApi : Prop where
  plain : '%' ∉ head.path
  method : head.method ≠ .head
  origin : head.getAll "origin" = []
    ∨ ∃ allowed ∈ config.origins, Sends head "origin" (asBytes allowed)
  site : head.getAll "sec-fetch-site" = [] ∨ Sends head "sec-fetch-site" (asBytes "same-origin")
  query : head.uri.query = none
  encoding : head.getAll "content-encoding" = []

structure Authorized : Prop where
  target : (Utf8.encode head.uri.toText).length ≤ 2048
  headers : head.headerBytes ≤ 8192
  host : head.path ≠ "/healthz".toList → AuthorizedHost config head
  api : head.isApi = true → AuthorizedApi config head
  asset : "/assets/".toList.isPrefixOf head.path = true → isAsset head.path = true

end

section

variable {config : Configuration} {head : RequestHead}

theorem toStr?_eq_some {value text : Bytes} (h : toStr? value = some text) : text = value := by
  unfold toStr? at h
  split at h
  . exact (Option.some.inj h).symm
  . cases h

theorem oneHeader_eq_none_iff {values : List Bytes} : oneHeader values = .ok none ↔ values = [] := by
  match values with
  | [] => simp [oneHeader]
  | [value] =>
    rw [oneHeader]
    cases toStr? value <;> simp
  | _ :: _ :: _ => simp [oneHeader]

theorem oneHeader_eq_some_iff {values : List Bytes} {value : Bytes}
    : oneHeader values = .ok (some value) ↔ values = [value] ∧ toStr? value = some value := by
  match values with
  | [] => simp [oneHeader]
  | [other] =>
    rw [oneHeader]
    cases hother : toStr? other with
    | none =>
      simp only [reduceCtorEq, List.cons.injEq, and_true, false_iff, not_and]
      rintro rfl
      simp [hother]
    | some text =>
      have htext := toStr?_eq_some hother
      subst htext
      simp only [Except.ok.injEq, Option.some.injEq, List.cons.injEq, and_true]
      constructor
      . rintro rfl
        exact ⟨rfl, hother⟩
      . exact And.left
  | _ :: _ :: _ => simp [oneHeader]

theorem authorizeHost_eq_ok_iff : authorizeHost config head = .ok () ↔ AuthorizedHost config head := by
  unfold authorizeHost
  simp only [Except.bind_eq_ok]
  constructor
  . rintro ⟨found, hfound, h⟩
    cases found with
    | none => cases h
    | some host =>
      simp only [Except.guard_eq_ok, Bool.not_eq_true', Bool.not_eq_false, List.any_eq_true] at h
      exact ⟨host, oneHeader_eq_some_iff.mp hfound, h.1⟩
  . rintro ⟨host, hhost, hallowed⟩
    refine ⟨some host, oneHeader_eq_some_iff.mpr hhost, ?_⟩
    simp only [Except.guard_eq_ok, Bool.not_eq_true', Bool.not_eq_false, List.any_eq_true]
    exact ⟨hallowed, rfl⟩

theorem authorizeOrigin_eq_ok_iff
    : authorizeOrigin config head = .ok ()
        ↔ head.getAll "origin" = [] ∨ ∃ allowed ∈ config.origins, Sends head "origin" (asBytes allowed) := by
  unfold authorizeOrigin
  simp only [Except.bind_eq_ok]
  constructor
  . rintro ⟨found, hfound, h⟩
    cases found with
    | none => exact .inl (oneHeader_eq_none_iff.mp hfound)
    | some origin =>
      simp only [Except.guard_eq_ok, Bool.not_eq_true', Bool.not_eq_false, List.any_eq_true,
        decide_eq_true_eq] at h
      rcases h with ⟨⟨allowed, hmem, rfl⟩, -⟩
      exact .inr ⟨allowed, hmem, oneHeader_eq_some_iff.mp hfound⟩
  . rintro (hnone | ⟨allowed, hmem, hsends⟩)
    . exact ⟨none, oneHeader_eq_none_iff.mpr hnone, rfl⟩
    . refine ⟨some (asBytes allowed), oneHeader_eq_some_iff.mpr hsends, ?_⟩
      simp only [Except.guard_eq_ok, Bool.not_eq_true', Bool.not_eq_false, List.any_eq_true,
        decide_eq_true_eq]
      exact ⟨⟨allowed, hmem, rfl⟩, rfl⟩

theorem authorizeSite_eq_ok_iff
    : authorizeSite head = .ok ()
        ↔ head.getAll "sec-fetch-site" = [] ∨ Sends head "sec-fetch-site" (asBytes "same-origin") := by
  unfold authorizeSite
  simp only [Except.bind_eq_ok]
  constructor
  . rintro ⟨found, hfound, h⟩
    cases found with
    | none => exact .inl (oneHeader_eq_none_iff.mp hfound)
    | some site =>
      simp only [Except.guard_eq_ok, ne_eq, not_not] at h
      rcases h with ⟨rfl, -⟩
      exact .inr (oneHeader_eq_some_iff.mp hfound)
  . rintro (hnone | hsends)
    . exact ⟨none, oneHeader_eq_none_iff.mpr hnone, rfl⟩
    . refine ⟨some (asBytes "same-origin"), oneHeader_eq_some_iff.mpr hsends, ?_⟩
      rw [Except.guard_eq_ok]
      exact ⟨by simp, rfl⟩

theorem authorizeApi_eq_ok_iff : authorizeApi config head = .ok () ↔ AuthorizedApi config head := by
  unfold authorizeApi
  simp only [Except.guard_eq_ok, Except.check_eq_ok, authorizeOrigin_eq_ok_iff,
    authorizeSite_eq_ok_iff, Bool.or_eq_true, Option.isSome_iff_ne_none, ne_eq, decide_eq_true_eq, not_or,
    not_not, List.contains_iff_mem]
  constructor
  . rintro ⟨hplain, hmethod, horigin, hsite, ⟨hquery, hencoding⟩, -⟩
    exact ⟨hplain, hmethod, horigin, hsite, hquery, hencoding⟩
  . rintro ⟨hplain, hmethod, horigin, hsite, hquery, hencoding⟩
    exact ⟨hplain, hmethod, horigin, hsite, ⟨hquery, hencoding⟩, rfl⟩

theorem authorize_eq_ok_iff : authorize config head = .ok () ↔ Authorized config head := by
  unfold authorize
  simp only [Except.guard_eq_ok, Except.check_ite_eq_ok, authorizeHost_eq_ok_iff,
    authorizeApi_eq_ok_iff, Bool.and_eq_true, Bool.not_eq_true', not_and, Bool.not_eq_false, not_or]
  constructor
  . rintro ⟨⟨htarget, hheaders⟩, hhost, hapi, hasset, -⟩
    exact ⟨by omega, by omega, hhost, hapi, hasset⟩
  . rintro ⟨htarget, hheaders, hhost, hapi, hasset⟩
    exact ⟨⟨by omega, by omega⟩, hhost, hapi, hasset, rfl⟩

end

end Server
