import Erase.Server.Authorize

/-!
How the router of a process hands on a request that its guard lets pass.
-/

namespace Server

inductive Handler where
  | publicConfig
  | challenge
  | createNote
  | metadata
  | openNote
  | deleteNote
  | health
  | page
  | favicon
  | theme
  | robots
  | securityContact
  deriving DecidableEq, Repr

def routes : List (String × Method × Handler) := [
  ("/api/config", .get, .publicConfig),
  ("/api/challenge", .get, .challenge),
  ("/api/notes", .post, .createNote),
  ("/api/notes/{id}/meta", .post, .metadata),
  ("/api/notes/{id}/open", .post, .openNote),
  ("/api/notes/{id}", .delete, .deleteNote),
  ("/healthz", .get, .health),
  ("/", .get, .page),
  ("/create", .get, .page),
  ("/view", .get, .page),
  ("/about", .get, .page),
  ("/privacy", .get, .page),
  ("/terms", .get, .page),
  ("/favicon.svg", .get, .favicon),
  ("/theme.js", .get, .theme),
  ("/robots.txt", .get, .robots),
  ("/.well-known/security.txt", .get, .securityContact)]

-- What becomes of a request. The assets are a service of their own.
inductive Routed where
  | handler (handler : Handler) (parameters : List String)
  | assets (path : List Char)
  | methodNotAllowed
  | fallback
  deriving DecidableEq, Repr

-- A handler for GET answers HEAD as well.
def Method.serves (allowed method : Method) : Bool :=
  method = allowed || (allowed = .get && method = .head)

def findRoute (path : List Char) : Option (Method × Handler × List (List Char)) :=
  routes.findSome? fun (template, method, handler) =>
    (PathTemplate.capture? (PathTemplate.parse template) (PathTemplate.segments path)).map
      fun captured => (method, handler, captured)

def nested (path : List Char) : Option (List Char) :=
  if path = "/assets".toList then some ['/']
  else if "/assets/".toList.isPrefixOf path then some (path.drop 7)
  else none

-- A path of the API has no percent sign once it is authorized, so its parameters need no decoding.
def route (head : RequestHead) : Routed :=
  match findRoute head.path with
  | some (method, handler, captured) =>
    if method.serves head.method then .handler handler (captured.map String.ofList) else .methodNotAllowed
  | none =>
    match nested head.path with
    | some path => .assets path
    | none => .fallback

def RequestHead.request (head : RequestHead) (body : Transfer) : HttpRequest where
  contentType := head.getAll "content-type"
  contentLength := head.getAll "content-length"
  body := body

-- The guard turns a wrong method into `InvalidRequest`. `token` is what `random_token` gives.
def apiRequest (head : RequestHead) (body : Transfer) (token : String) : Incoming :=
  match route head with
  | .handler .publicConfig [] => .publicConfig
  | .handler .challenge [] => .challenge token
  | .handler .createNote [] =>
    .createNote (head.getAll "x-erase-challenge") (head.getAll "x-erase-nonce") (head.request body)
  | .handler .metadata [id] => .access .metadata id (head.request body)
  | .handler .openNote [id] => .access .openNote id (head.request body)
  | .handler .deleteNote [id] => .access .deleteNote id (head.request body)
  | .methodNotAllowed => .rejected .invalidRequest
  | _ => .rejected .notFound

-- Whatever answers it, a request that is none to the API takes a static slot.
def incoming (config : Configuration) (head : RequestHead) (body : Transfer) (token : String) : Incoming :=
  match authorize config head with
  | .error error => .rejected error
  | .ok () => if head.isApi then apiRequest head body token else .page

-- What a request can ask of the API.
inductive ApiCall where
  | publicConfig
  | challenge
  | createNote
  | access (route : AccessRoute) (id : String)
  deriving DecidableEq, Repr

namespace ApiCall

def method : ApiCall → Method
  | publicConfig | challenge => .get
  | createNote | access .metadata _ | access .openNote _ => .post
  | access .deleteNote _ => .delete

def handler : ApiCall → Handler
  | publicConfig => .publicConfig
  | challenge => .challenge
  | createNote => .createNote
  | access .metadata _ => .metadata
  | access .openNote _ => .openNote
  | access .deleteNote _ => .deleteNote

def parameters : ApiCall → List String
  | access _ id => [id]
  | _ => []

def segments (call : ApiCall) : List (List Char) :=
  [[], "api".toList] ++
    match call with
    | publicConfig => ["config".toList]
    | challenge => ["challenge".toList]
    | createNote => ["notes".toList]
    | access .metadata id => ["notes".toList, id.toList, "meta".toList]
    | access .openNote id => ["notes".toList, id.toList, "open".toList]
    | access .deleteNote id => ["notes".toList, id.toList]

def path (call : ApiCall) : List Char := PathTemplate.unsplit call.segments

-- The id is a whole segment of a path.
def Named (call : ApiCall) : Prop := ∀ id ∈ call.parameters, id ≠ "" ∧ '/' ∉ id.toList

def incoming (head : RequestHead) (body : Transfer) (token : String) : ApiCall → Incoming
  | publicConfig => .publicConfig
  | challenge => .challenge token
  | createNote =>
    .createNote (head.getAll "x-erase-challenge") (head.getAll "x-erase-nonce") (head.request body)
  | access route id => .access route id (head.request body)

end ApiCall

section

open PathTemplate

variable {head : RequestHead} {path : List Char} {method : Method} {handler : Handler} {call : ApiCall}

theorem findRoute_mem {captured : List (List Char)} (h : findRoute path = some (method, handler, captured))
    : ∃ template, (template, method, handler) ∈ routes
        ∧ capture? (parse template) (segments path) = some captured := by
  rcases List.exists_of_findSome?_eq_some h with ⟨⟨template, method', handler'⟩, hmem, hcapture⟩
  simp only [Option.map_eq_some_iff, Prod.mk.injEq] at hcapture
  rcases hcapture with ⟨_, hcapture, rfl, rfl, rfl⟩
  exact ⟨template, hmem, hcapture⟩

theorem template_of_handler {template : String} {captured : List (List Char)}
    (h : (template, method, call.handler) ∈ routes)
    (hcaptured : captured.map String.ofList = call.parameters)
    : method = call.method ∧ fill (parse template) captured = call.segments := by
  have hsingle : ∀ {id : String}, captured.map String.ofList = [id] → captured = [id.toList] := by
    intro id hid
    rcases List.map_eq_singleton_iff.mp hid with ⟨text, rfl, rfl⟩
    rw [String.toList_ofList]
  cases call with
  | publicConfig =>
    simp only [routes, ApiCall.handler, List.mem_cons, Prod.mk.injEq, reduceCtorEq, and_false, or_false,
      List.not_mem_nil, and_true] at h
    rcases h with ⟨rfl, rfl⟩
    rw [List.map_eq_nil_iff.mp hcaptured]
    exact ⟨rfl, rfl⟩
  | challenge =>
    simp only [routes, ApiCall.handler, List.mem_cons, Prod.mk.injEq, reduceCtorEq, and_false, or_false,
      false_or, List.not_mem_nil, and_true] at h
    rcases h with ⟨rfl, rfl⟩
    rw [List.map_eq_nil_iff.mp hcaptured]
    exact ⟨rfl, rfl⟩
  | createNote =>
    simp only [routes, ApiCall.handler, List.mem_cons, Prod.mk.injEq, reduceCtorEq, and_false, or_false,
      false_or, List.not_mem_nil, and_true] at h
    rcases h with ⟨rfl, rfl⟩
    rw [List.map_eq_nil_iff.mp hcaptured]
    exact ⟨rfl, rfl⟩
  | access route id =>
    rw [hsingle hcaptured]
    cases route
    all_goals
      simp only [routes, ApiCall.handler, List.mem_cons, Prod.mk.injEq, reduceCtorEq, and_false, or_false,
        false_or, List.not_mem_nil, and_true] at h
      rcases h with ⟨rfl, rfl⟩
      exact ⟨rfl, rfl⟩

theorem segments_path (hnamed : call.Named) : segments call.path = call.segments := by
  apply segments_unsplit
  . cases call with
    | access route id =>
      have hid := (hnamed id List.mem_cons_self).2
      cases route <;> simp [ApiCall.segments, hid]
    | _ => simp [ApiCall.segments]
  . simp [ApiCall.segments]

theorem findRoute_path (hnamed : call.Named)
    : findRoute call.path = some (call.method, call.handler, call.parameters.map String.toList) := by
  rw [findRoute, segments_path hnamed]
  cases call with
  | access route id =>
    have hne : id.toList ≠ [] := by simpa using (hnamed id List.mem_cons_self).1
    rcases List.exists_cons_of_ne_nil hne with ⟨c, rest, hid⟩
    cases route
    all_goals
      rw [ApiCall.segments, ApiCall.parameters, List.map_singleton, hid]
      rfl
  | _ => rfl

theorem isApi_path (call : ApiCall) : "/api/".toList.isPrefixOf call.path = true := by
  cases call with
  | access route id =>
    cases route <;> simp [ApiCall.path, ApiCall.segments, unsplit, List.intercalate]
  | _ => rfl

theorem route_handler_iff
    : Server.route head = .handler call.handler call.parameters
        ↔ call.Named ∧ call.method.serves head.method = true ∧ head.path = call.path := by
  constructor
  . intro h
    unfold Server.route at h
    split at h
    . next method handler captured hfound =>
      split at h
      . next hserves =>
        simp only [Routed.handler.injEq] at h
        rcases h with ⟨rfl, hparameters⟩
        rcases findRoute_mem hfound with ⟨template, hmem, hcapture⟩
        rcases template_of_handler hmem hparameters with ⟨rfl, hfill⟩
        rcases capture?_segments hcapture with ⟨hpath, hsegments⟩
        refine ⟨?_, hserves, ?_⟩
        . intro id hid
          rw [← hparameters] at hid
          rcases List.mem_map.mp hid with ⟨text, htext, rfl⟩
          rcases hsegments text htext with ⟨hne, hsegment⟩
          rw [String.toList_ofList]
          exact ⟨by simpa using hne, not_mem_segment hsegment⟩
        . rw [hpath, hfill]
          rfl
      . cases h
    . split at h
      . cases h
      . cases h
  . rintro ⟨hnamed, hserves, hpath⟩
    unfold Server.route
    rw [hpath, findRoute_path hnamed]
    dsimp only
    rw [if_pos hserves]
    simp [Function.comp_def]

end

section

variable {config : Configuration} {head : RequestHead} {body : Transfer} {token : String}
  {call : ApiCall}

theorem apiRequest_eq_iff
    : apiRequest head body token = call.incoming head body token
        ↔ Server.route head = .handler call.handler call.parameters := by
  unfold apiRequest
  constructor
  . intro h
    rcases call with _ | _ | _ | ⟨_ | _ | _, id⟩
    all_goals
      split at h
      all_goals cases h
      all_goals assumption
  . intro hroute
    rw [hroute]
    cases call with
    | access route id => cases route <;> rfl
    | _ => rfl

/--
A handler of the API sees just the requests that the guard lets pass and that name it.
-/
theorem incoming_eq_iff
    : incoming config head body token = call.incoming head body token
        ↔ Authorized config head ∧ head.method = call.method ∧ head.path = call.path ∧ call.Named := by
  have hserves : head.method ≠ .head
      → (call.method.serves head.method = true ↔ head.method = call.method) := by
    intro hhead
    simp [Method.serves, hhead]
  unfold incoming
  constructor
  . intro h
    split at h
    . cases call <;> cases h
    . next hauthorize =>
      have hauthorized := authorize_eq_ok_iff.mp hauthorize
      split at h
      . next hapi =>
        rcases route_handler_iff.mp (apiRequest_eq_iff.mp h) with ⟨hnamed, hmethod, hpath⟩
        exact ⟨hauthorized, (hserves (hauthorized.api hapi).method).mp hmethod, hpath, hnamed⟩
      . cases call <;> cases h
  . rintro ⟨hauthorized, hmethod, hpath, hnamed⟩
    have hapi : head.isApi = true := by
      rw [RequestHead.isApi, hpath]
      apply isApi_path
    have hserved := (hserves (hauthorized.api hapi).method).mpr hmethod
    rw [authorize_eq_ok_iff.mpr hauthorized]
    dsimp only
    rw [if_pos hapi]
    exact apiRequest_eq_iff.mpr (route_handler_iff.mpr ⟨hnamed, hserved, hpath⟩)

theorem incoming_page_iff
    : incoming config head body token = .page ↔ Authorized config head ∧ head.isApi = false := by
  unfold incoming
  cases hauthorize : authorize config head with
  | error error =>
    have hnot : ¬Authorized config head := by
      rw [← authorize_eq_ok_iff, hauthorize]
      simp
    simp [hnot]
  | ok _ =>
    have hauthorized : Authorized config head := authorize_eq_ok_iff.mp hauthorize
    cases hapi : head.isApi with
    | true =>
      simp only [if_true, hauthorized, true_and, Bool.true_eq_false, iff_false]
      unfold apiRequest
      split <;> simp
    | false => simp [hauthorized]

def ApiCall.IsNamedBy (call : ApiCall) (config : Configuration) (head : RequestHead) : Prop :=
  Authorized config head ∧ head.method = call.method ∧ head.path = call.path ∧ call.Named

variable (config head body token) in
theorem incoming_cases
    : (∃ call : ApiCall, incoming config head body token = call.incoming head body token)
        ∨ incoming config head body token = .page
        ∨ ∃ error, incoming config head body token = .rejected error := by
  unfold incoming apiRequest
  split
  . next error _ => exact .inr (.inr ⟨error, rfl⟩)
  . split
    . split
      . exact .inl ⟨.publicConfig, rfl⟩
      . exact .inl ⟨.challenge, rfl⟩
      . exact .inl ⟨.createNote, rfl⟩
      . next id _ => exact .inl ⟨.access .metadata id, rfl⟩
      . next id _ => exact .inl ⟨.access .openNote id, rfl⟩
      . next id _ => exact .inl ⟨.access .deleteNote id, rfl⟩
      . exact .inr (.inr ⟨_, rfl⟩)
      . exact .inr (.inr ⟨_, rfl⟩)
    . exact .inr (.inl rfl)

/--
A request reaches a handler of the API only if it names that call and the guard lets it pass. A page of
another origin reaches none.
-/
theorem gate_exact (config : Configuration) (head : RequestHead) (body : Transfer) (token : String)
    : (∀ call : ApiCall, incoming config head body token = call.incoming head body token
        ↔ call.IsNamedBy config head)
      ∧ (incoming config head body token = .page ↔ Authorized config head ∧ head.isApi = false)
      ∧ ((∃ error, incoming config head body token = .rejected error)
        ↔ ¬Authorized config head ∨ head.isApi = true ∧ ∀ call : ApiCall, ¬call.IsNamedBy config head)
      ∧ ∀ origin ∈ head.getAll "origin", (∀ allowed ∈ config.origins, asBytes allowed ≠ origin)
        → ∀ call : ApiCall, incoming config head body token ≠ call.incoming head body token := by
  have hnot : ∀ call : ApiCall, ∀ error, call.incoming head body token ≠ .rejected error := by
    intro call error
    cases call <;> exact Incoming.noConfusion
  refine ⟨fun call => incoming_eq_iff, incoming_page_iff, ?_, ?_⟩
  . constructor
    . rintro ⟨error, herror⟩
      by_cases hauthorized : Authorized config head
      . right
        constructor
        . by_contra hapi
          rw [incoming_page_iff.mpr ⟨hauthorized, by simpa using hapi⟩] at herror
          cases herror
        . intro call hnamed
          exact hnot call error ((incoming_eq_iff.mpr hnamed).symm.trans herror)
      . exact .inl hauthorized
    . intro h
      rcases incoming_cases config head body token
        with ⟨call, hcall⟩ | hpage | hrejected
      . have hnamed := incoming_eq_iff.mp hcall
        rcases h with h | h
        . exact absurd hnamed.1 h
        . exact absurd hnamed (h.2 call)
      . rcases incoming_page_iff.mp hpage with ⟨hauthorized, hapi⟩
        rcases h with h | h
        . exact absurd hauthorized h
        . rw [hapi] at h
          cases h.1
      . exact hrejected
  . intro origin horigin hforeign call hcall
    rcases incoming_eq_iff.mp hcall with ⟨hauthorized, -, hpath, -⟩
    have hapi : head.isApi = true := by
      rw [RequestHead.isApi, hpath]
      apply isApi_path
    rcases (hauthorized.api hapi).origin with hnone | ⟨allowed, hmem, hsends⟩
    . rw [hnone] at horigin
      cases horigin
    . rw [hsends.1, List.mem_singleton] at horigin
      exact hforeign allowed hmem horigin.symm

end

end Server
