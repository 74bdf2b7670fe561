import Homescope.AdminToken
import Homescope.IngestTask

/-! The HTTP front of the API (`api/src/http.rs`, `api/src/http`, and the router of
`api/src/devices/routes.rs`): routes, the guard on the protected ones, and requests
that interleave with each other and with the ingest. -/

namespace Homescope

open Commands Commands.Prog

inductive Method
  | get
  | head
  | post
  | other
  deriving DecidableEq, Repr

structure HttpRequest where
  method : Method
  path : Text
  authorization : Option (List UInt8)
  contentType : Option (List UInt8)
  body : List UInt8
  deriving DecidableEq

inductive HttpBody
  | health (status : String)
  | key (response : DeviceKeyResponse)
  | summary (device : DeviceSummary)
  | summaries (devices : List DeviceSummary)

abbrev HttpResponse := ApiResponse HttpBody

inductive Endpoint
  | health
  | devices
  | device (addr : Text)
  | rotateKey (addr : Text)
  deriving DecidableEq

/-- A segment in braces takes any text but the empty one. -/
def route (path : Text) : Option Endpoint :=
  match path.splitOn '/' with
  | [[], first] =>
    if first = "health".toList then some .health
    else if first = "devices".toList then some .devices
    else none
  | [[], first, addr] => if first = "devices".toList ∧ addr ≠ [] then some (.device addr) else none
  | [[], first, addr, last] =>
    if first = "devices".toList ∧ addr ≠ [] ∧ last = "rotate-key".toList then some (.rotateKey addr)
    else none
  | _ => none

def Endpoint.isProtected : Endpoint → Bool
  | health => false
  | _ => true

/-- The commands of a handler: those of the registry, and the activity queries. -/
inductive HttpCmd
  | api (c : ApiCmd)
  | activityByAddr (addr : DeviceAddr)
  | allActivity

abbrev HttpCmd.Answer : HttpCmd → Type
  | api c => c.Answer
  | activityByAddr _ => Except SqlxError (Option DeviceActivity)
  | allActivity => Except SqlxError (List DeviceActivity)

abbrev HttpM (α : Type) := Prog HttpCmd HttpCmd.Answer α

def httpStep (s : ApiStore) : (c : HttpCmd) → c.Answer → ApiStore → Prop
  | .api c, a, t => apiStep s c a t
  | .activityByAddr addr, found, t =>
    (∀ activity, found = .ok activity → activity = Store.activityByAddr s addr) ∧ t = s
  | .allActivity, found, t =>
    (∀ l, found = .ok l → l.Nodup ∧ ∀ activity, activity ∈ l ↔
      ∃ addr, Store.activityByAddr s addr = some activity) ∧ t = s

/-- What `axum` makes of a body under its content type and of a segment of a
path, or what it says against them. -/
structure Extractors where
  json : Option (List UInt8) → List UInt8 → Except String ProvisionDevicePayload
  path : Text → Except String DeviceAddr

section Serve

variable (config : ApiConfig) (token : AdminToken) (extract : Extractors)

def healthcheck : HttpResponse := .ok (200, .health "ok")

/-- A handler of the registry, behind its extractor; no response is a panic. -/
def respondKey {α : Type} (argument : Except ApiError α)
    (handler : α → ApiM (Option (ApiResponse DeviceKeyResponse))) : HttpM (Option HttpResponse) :=
  match argument with
  | .error e => .ret (some (.error e))
  | .ok a => do
    let response ← (handler a).expand fun c => perform (HttpCmd.api c)
    return response.map fun r => r.map fun p => (p.1, .key p.2)

def HttpRequest.payload (req : HttpRequest) : Except ApiError ProvisionDevicePayload :=
  (extract.json req.contentType req.body).mapError .invalidBody

def pathAddr (segment : Text) : Except ApiError DeviceAddr :=
  (extract.path segment).mapError .invalidParams

def getDevice (segment : Text) : HttpM (Option HttpResponse) :=
  match pathAddr extract segment with
  | .error e => .ret (some (.error e))
  | .ok addr => do
    let found ← perform (HttpCmd.activityByAddr addr)
    return some ((DeviceRoutes.getDevice config found).map fun p => (p.1, .summary p.2))

def getDevices : HttpM (Option HttpResponse) := do
  match ← perform HttpCmd.allActivity with
  | .error _ => return some (.error .internal)
  | .ok activity =>
    return some (.ok (200, .summaries (activity.map fun a => classify config.kekAead a config.ring)))

/-- `none` for a method that the route lacks; `get` serves `HEAD` as well. -/
def handler (req : HttpRequest) : Endpoint → Method → Option (HttpM (Option HttpResponse))
  | .health, .get | .health, .head => some (.ret (some healthcheck))
  | .devices, .post => some (respondKey (req.payload extract) (DeviceRoutes.provisionDevice config))
  | .devices, .get | .devices, .head => some (getDevices config)
  | .device segment, .get | .device segment, .head => some (getDevice config extract segment)
  | .rotateKey segment, .post =>
    some (respondKey (pathAddr extract segment) (DeviceRoutes.rotateDeviceKey config))
  | _, _ => none

/-- The layer of the protected routes. -/
def guarded (req : HttpRequest) (work : HttpM (Option HttpResponse)) : HttpM (Option HttpResponse) :=
  match requireBearer token req.authorization with
  | .error e => .ret (some (.error e))
  | .ok () => work

/-- `guardsFallback`: whether the layer also stands before the answer to a wrong
method, which `axum` decides. -/
def serve (guardsFallback : Bool) (req : HttpRequest) : HttpM (Option HttpResponse) :=
  match route req.path with
  | none => .ret (some (.error .notFound))
  | some endpoint =>
    match handler config extract req endpoint req.method with
    | some work => if endpoint.isProtected then guarded token req work else work
    | none =>
      if endpoint.isProtected && guardsFallback then
        guarded token req (.ret (some (.error .methodNotAllowed)))
      else .ret (some (.error .methodNotAllowed))

end Serve

/-- `started` and `answered` list the requests that came and the answers that
went out; no code reads them. -/
structure HttpApi where
  store : ApiStore
  requests : Nat → Option (HttpRequest × HttpM (Option HttpResponse))
  started : List HttpRequest
  answered : List (HttpRequest × HttpResponse)

namespace HttpApi

variable (config : ApiConfig) (token : AdminToken) (extract : Extractors) (guardsFallback : Bool)

def start (devices : DeviceAddr → Option DeviceRow) (readings : List StoredReading) : HttpApi where
  store := ⟨devices, readings, config.load devices⟩
  requests _ := none
  started := []
  answered := []

/-- A connection brings a request, a handler goes on or is done, a client hangs
up, the ingest works, or the process starts again. -/
inductive Step : HttpApi → HttpApi → Prop
  | accept {s : HttpApi} {i : Nat} (hs : s.requests i = none) (req : HttpRequest) :
      Step s { s with
        requests := Function.update s.requests i
          (some (req, serve config token extract guardsFallback req))
        started := s.started ++ [req] }
  | ran {s : HttpApi} {i : Nat} {req : HttpRequest} {c : HttpCmd}
      {k : c.Answer → HttpM (Option HttpResponse)} {a : c.Answer} {store : ApiStore}
      (hs : s.requests i = some (req, .cmd c k)) (hc : httpStep s.store c a store) :
      Step s { s with store, requests := Function.update s.requests i (some (req, k a)) }
  | respond {s : HttpApi} {i : Nat} {req : HttpRequest} {response : Option HttpResponse}
      (hs : s.requests i = some (req, .ret response)) :
      Step s { s with
        requests := Function.update s.requests i none
        answered := s.answered ++ response.toList.map fun r => (req, r) }
  | hangUp {s : HttpApi} (i : Nat) :
      Step s { s with requests := Function.update s.requests i none }
  | ingest {s : HttpApi} {c : ApiCmd} {a : c.Answer} {store : ApiStore} (h : ¬ c.Requested)
      (hc : apiStep s.store c a store) : Step s { s with store }
  | restart {s : HttpApi} :
      Step s { s with
        store := ⟨s.store.devices, s.store.readings, config.load s.store.devices⟩
        requests := fun _ => none }

end HttpApi

/-! ### What a handler does -/

/-- The address whose row or cache entry a command writes. -/
def ApiCmd.touches : ApiCmd → Option DeviceAddr
  | .insertRow _ addr _ | .updateKey addr _ | .cacheInsert addr _ => some addr
  | _ => none

def HttpCmd.touches : HttpCmd → Option DeviceAddr
  | .api c => c.touches
  | _ => none

theorem apiStep_untouched {s t : ApiStore} {c : ApiCmd} {a : c.Answer} (h : apiStep s c a t)
    {addr : DeviceAddr} (hc : c.touches ≠ some addr) :
    t.devices addr = s.devices addr ∧ t.cache addr = s.cache addr := by
  have hne {b : DeviceAddr} (hb : c.touches = some b) : addr ≠ b := by
    rintro rfl
    exact hc hb
  rw [apiStep_after h]
  have hpossible := apiStep_possible h
  cases c with
  | insertRow name b key =>
    cases a with
    | error err => exact ⟨rfl, rfl⟩
    | ok r =>
      obtain ⟨now, rfl⟩ := hpossible
      exact ⟨Function.update_of_ne (hne rfl) .., rfl⟩
  | updateKey b key =>
    rcases a with err | _ | r
    · exact ⟨rfl, rfl⟩
    · exact ⟨rfl, rfl⟩
    · obtain ⟨name, now, rfl⟩ := hpossible
      exact ⟨Function.update_of_ne (hne rfl) .., rfl⟩
  | cacheInsert b device => exact ⟨rfl, Function.update_of_ne (hne rfl) ..⟩
  | insertReading reading b key => cases a <;> exact ⟨rfl, rfl⟩
  | _ => exact ⟨rfl, rfl⟩

def HttpCmd.Possible : (c : HttpCmd) → c.Answer → Prop
  | .api c, a => c.Possible a
  | _, _ => True

theorem httpStep_possible {s t : ApiStore} {c : HttpCmd} {a : c.Answer} (h : httpStep s c a t) :
    c.Possible a := by
  cases c with
  | api c => exact apiStep_possible h
  | _ => trivial

theorem httpStep_untouched {s t : ApiStore} {c : HttpCmd} {a : c.Answer} (h : httpStep s c a t)
    {addr : DeviceAddr} (hc : c.touches ≠ some addr) :
    t.devices addr = s.devices addr ∧ t.cache addr = s.cache addr := by
  cases c with
  | api c => exact apiStep_untouched h hc
  | activityByAddr b =>
    obtain ⟨-, rfl⟩ := h
    exact ⟨rfl, rfl⟩
  | allActivity =>
    obtain ⟨-, rfl⟩ := h
    exact ⟨rfl, rfl⟩

/-- The program touches one address, and answers with its key. -/
def Minds (addr : DeviceAddr) (p : ApiM (Option (ApiResponse DeviceKeyResponse))) : Prop :=
  Guarded (fun (_ : Unit) c a _ => ApiCmd.Possible c a)
    (fun _ c => ∀ b, c.touches = some b → b = addr) p
    (fun r _ => ∀ status response, r = some (.ok (status, response)) → response.deviceAddr = addr) ()

variable (config : ApiConfig)

theorem rotateDeviceKey_minds (addr : DeviceAddr) :
    Minds addr (DeviceRoutes.rotateDeviceKey config addr) := by
  rw [DeviceRoutes.rotateDeviceKey_eq]
  refine ⟨nofun, fun key _ _ => ?_⟩
  cases key with
  | error e => rintro status response ⟨⟩
  | ok key =>
    refine ⟨nofun, fun nonce _ _ => ?_⟩
    dsimp only
    split
    · rintro status response ⟨⟩
    · refine ⟨by rintro b ⟨⟩; rfl, fun a _ ha => ?_⟩
      rcases a with err | _ | r
      · rintro status response ⟨⟩
      · rintro status response ⟨⟩
      · refine ⟨by rintro b ⟨⟩; rfl, fun _ _ _ => ?_⟩
        rintro status response ⟨⟩
        obtain ⟨name, now, rfl⟩ := ha
        rfl

theorem provisionDevice_minds (payload : ProvisionDevicePayload) :
    Minds payload.deviceAddr (DeviceRoutes.provisionDevice config payload) := by
  rw [DeviceRoutes.provisionDevice_eq]
  refine ⟨nofun, fun key _ _ => ?_⟩
  cases key with
  | error e => rintro status response ⟨⟩
  | ok key =>
    refine ⟨nofun, fun nonce _ _ => ?_⟩
    dsimp only
    split
    · rintro status response ⟨⟩
    · refine ⟨by rintro b ⟨⟩; rfl, fun a _ ha => ?_⟩
      rcases a with err | r
      · cases err with
        | duplicateDeviceAddr =>
          refine ⟨nofun, fun a _ _ => ?_⟩
          cases a <;> rintro status response ⟨⟩
        | rowNotFound => rintro status response ⟨⟩
        | failed => rintro status response ⟨⟩
      · refine ⟨by rintro b ⟨⟩; rfl, fun _ _ _ => ?_⟩
        rintro status response ⟨⟩
        obtain ⟨now, rfl⟩ := ha
        rfl

/-! ### What a request may do -/

section Requests

variable (token : AdminToken) (extract : Extractors)

def HttpRequest.Bears (req : HttpRequest) : Prop := Homescope.Bears token.token req.authorization

/-- The request asks for a new key of the address. -/
def HttpRequest.Names (req : HttpRequest) (addr : DeviceAddr) : Prop :=
  req.method = .post ∧
    ((route req.path = some .devices ∧ ∃ payload,
        extract.json req.contentType req.body = .ok payload ∧ payload.deviceAddr = addr) ∨
      ∃ segment, route req.path = some (.rotateKey segment) ∧ extract.path segment = .ok addr)

/-- What anybody is told. -/
def HttpResponse.IsPublic (response : HttpResponse) : Prop :=
  response = healthcheck ∨ response = .error .unauthorized ∨ response = .error .notFound ∨
    response = .error .methodNotAllowed

/-- What a client without the token may be told, and who may be told a key. -/
def HttpRequest.MayGet (req : HttpRequest) (response : HttpResponse) : Prop :=
  (¬ req.Bears token → HttpResponse.IsPublic response) ∧
    ∀ status r, response = .ok (status, .key r) →
      req.Bears token ∧ req.Names extract r.deviceAddr

/-- The work on a request touches only what the request may touch. -/
def HttpRequest.Admits (req : HttpRequest) (work : HttpM (Option HttpResponse)) : Prop :=
  Guarded (fun (_ : Unit) c a _ => HttpCmd.Possible c a)
    (fun _ c => ∀ addr, c.touches = some addr → req.Bears token ∧ req.Names extract addr) work
    (fun r _ => ∀ response, r = some response → req.MayGet token extract response) ()

variable {token extract} {req : HttpRequest}

theorem HttpRequest.admits_error {e : ApiError}
    (h : req.Bears token ∨ HttpResponse.IsPublic (.error e)) :
    req.Admits token extract (.ret (some (.error e))) := by
  rintro response ⟨⟩
  refine ⟨h.resolve_left, ?_⟩
  rintro status r ⟨⟩

theorem respondKey_admits {α : Type} {argument : Except ApiError α}
    {handler : α → ApiM (Option (ApiResponse DeviceKeyResponse))} (hbears : req.Bears token)
    {addrOf : α → DeviceAddr} (hminds : ∀ a, Minds (addrOf a) (handler a))
    (hnames : ∀ a, argument = .ok a → req.Names extract (addrOf a)) :
    req.Admits token extract (respondKey argument handler) := by
  cases argument with
  | error e => exact HttpRequest.admits_error (.inl hbears)
  | ok a =>
    apply Guarded.bind
    refine ((hminds a).expand ?_).mono ?_
    · refine fun _ c hc => ⟨fun addr haddr => ?_, fun _ _ ha => ha⟩
      rw [hc addr haddr]
      exact ⟨hbears, hnames a rfl⟩
    · rintro r ⟨⟩ hr response hresponse
      refine ⟨fun hnot => absurd hbears hnot, ?_⟩
      rintro status body rfl
      rcases r with _ | e | ⟨status', body'⟩
      · cases hresponse
      · cases hresponse
      · cases hresponse
        rw [hr _ _ rfl]
        exact ⟨hbears, hnames a rfl⟩

theorem getDevice_admits (hbears : req.Bears token) (segment : Text) :
    req.Admits token extract (getDevice config extract segment) := by
  rw [getDevice]
  cases pathAddr extract segment with
  | error e => exact HttpRequest.admits_error (.inl hbears)
  | ok addr =>
    refine ⟨nofun, fun found _ _ => ?_⟩
    rintro response ⟨⟩
    refine ⟨fun hnot => absurd hbears hnot, fun status r hr => ?_⟩
    cases hresponse : DeviceRoutes.getDevice config found <;> rw [hresponse] at hr <;> cases hr

theorem getDevices_admits (hbears : req.Bears token) :
    req.Admits token extract (getDevices config) := by
  refine ⟨nofun, fun found _ _ => ?_⟩
  cases found with
  | error err => exact HttpRequest.admits_error (.inl hbears)
  | ok activity =>
    rintro response ⟨⟩
    refine ⟨fun hnot => absurd hbears hnot, ?_⟩
    rintro status r ⟨⟩

theorem HttpRequest.payload_eq_ok {payload : ProvisionDevicePayload}
    (h : req.payload extract = .ok payload) : extract.json req.contentType req.body = .ok payload := by
  rw [HttpRequest.payload] at h
  cases hjson : extract.json req.contentType req.body with
  | error text => simp [hjson, Except.mapError] at h
  | ok p => simpa [hjson, Except.mapError] using h

theorem pathAddr_eq_ok {segment : Text} {addr : DeviceAddr} (h : pathAddr extract segment = .ok addr) :
    extract.path segment = .ok addr := by
  rw [pathAddr] at h
  cases hpath : extract.path segment with
  | error text => simp [hpath, Except.mapError] at h
  | ok p => simpa [hpath, Except.mapError] using h

theorem handler_admits {endpoint : Endpoint} {work : HttpM (Option HttpResponse)}
    (hroute : route req.path = some endpoint) (hbears : req.Bears token)
    (h : handler config extract req endpoint req.method = some work) :
    req.Admits token extract work := by
  cases hmethod : req.method <;> cases endpoint <;> rw [hmethod] at h <;> cases h
  case get.health | head.health =>
    rintro response ⟨⟩
    refine ⟨fun _ => .inl rfl, ?_⟩
    rintro status r ⟨⟩
  case get.devices | head.devices => exact getDevices_admits config hbears
  case get.device segment | head.device segment => exact getDevice_admits config hbears segment
  case post.devices =>
    refine respondKey_admits hbears (provisionDevice_minds config) fun payload hpayload => ?_
    exact ⟨hmethod, .inl ⟨hroute, payload, HttpRequest.payload_eq_ok hpayload, rfl⟩⟩
  case post.rotateKey segment =>
    refine respondKey_admits hbears (rotateDeviceKey_minds config) fun addr haddr => ?_
    exact ⟨hmethod, .inr ⟨segment, hroute, pathAddr_eq_ok haddr⟩⟩

theorem guarded_admits {work : HttpM (Option HttpResponse)}
    (h : req.Bears token → req.Admits token extract work) :
    req.Admits token extract (guarded token req work) := by
  rw [guarded]
  rcases requireBearer_cases token req.authorization with hok | herror
  · rw [hok]
    exact h ((requireBearer_ok_iff token req.authorization).mp hok)
  · rw [herror]
    exact HttpRequest.admits_error (.inr (.inr (.inl rfl)))

/-- Only the health check is left unguarded. -/
theorem health_admits {endpoint : Endpoint} {work : HttpM (Option HttpResponse)}
    (hpublic : endpoint.isProtected = false)
    (h : handler config extract req endpoint req.method = some work) :
    req.Admits token extract work := by
  cases endpoint with
  | health =>
    cases hmethod : req.method <;> rw [hmethod] at h <;> cases h
    all_goals
      rintro response ⟨⟩
      refine ⟨fun _ => .inl rfl, ?_⟩
      rintro status r ⟨⟩
  | _ => cases hpublic

theorem serve_admits (guardsFallback : Bool) (req : HttpRequest) :
    req.Admits token extract (serve config token extract guardsFallback req) := by
  have hwrong : req.Admits token extract (.ret (some (.error .methodNotAllowed))) :=
    HttpRequest.admits_error (.inr (.inr (.inr (.inr rfl))))
  rw [serve]
  cases hroute : route req.path with
  | none => exact HttpRequest.admits_error (.inr (.inr (.inr (.inl rfl))))
  | some endpoint =>
    dsimp only
    cases hhandler : handler config extract req endpoint req.method with
    | none =>
      dsimp only
      split
      · exact guarded_admits fun _ => hwrong
      · exact hwrong
    | some work =>
      dsimp only
      split
      · exact guarded_admits fun hbears => handler_admits config hroute hbears hhandler
      · rename_i hpublic
        exact health_admits config (Bool.eq_false_iff.mpr hpublic) hhandler

end Requests

/-! ### Runs -/

namespace HttpApi

variable {config} {token : AdminToken} {extract : Extractors} {guardsFallback : Bool}
  {devices : DeviceAddr → Option DeviceRow}

structure Inv (config : ApiConfig) (token : AdminToken) (extract : Extractors)
    (devices : DeviceAddr → Option DeviceRow) (s : HttpApi) : Prop where
  working : ∀ i req work, s.requests i = some (req, work) →
    req ∈ s.started ∧ req.Admits token extract work
  untouched : ∀ addr, (∀ req ∈ s.started, ¬ (req.Bears token ∧ req.Names extract addr)) →
    s.store.devices addr = devices addr ∧ s.store.cache addr = config.load devices addr
  answered : ∀ p ∈ s.answered, p.1 ∈ s.started ∧ p.1.MayGet token extract p.2

theorem inv_start (readings : List StoredReading) :
    (start config devices readings).Inv config token extract devices where
  working := by rintro i req work ⟨⟩
  untouched _ _ := ⟨rfl, rfl⟩
  answered := by rintro p ⟨⟩

/-- One slot changes. -/
theorem forall_update {P : HttpRequest → HttpM (Option HttpResponse) → Prop}
    {requests : Nat → Option (HttpRequest × HttpM (Option HttpResponse))} {i : Nat}
    {slot : Option (HttpRequest × HttpM (Option HttpResponse))}
    (hall : ∀ j req work, requests j = some (req, work) → P req work)
    (hslot : ∀ req work, slot = some (req, work) → P req work) :
    ∀ j req work, Function.update requests i slot j = some (req, work) → P req work := by
  intro j req work hj
  by_cases hij : j = i
  · subst hij
    rw [Function.update_self] at hj
    exact hslot req work hj
  · rw [Function.update_of_ne hij] at hj
    exact hall j req work hj

theorem Step.inv {s t : HttpApi} (ht : Step config token extract guardsFallback s t)
    (hs : s.Inv config token extract devices) : t.Inv config token extract devices := by
  cases ht with
  | @accept i hidle req =>
    refine ⟨forall_update (fun j r work hj => ?_) ?_, fun addr haddr => ?_, fun p hp => ?_⟩
    · obtain ⟨hmem, hwork⟩ := hs.working j r work hj
      exact ⟨List.mem_append_left _ hmem, hwork⟩
    · rintro r work ⟨⟩
      exact ⟨by simp, serve_admits config guardsFallback req⟩
    · exact hs.untouched addr fun r hr => haddr r (List.mem_append_left _ hr)
    · obtain ⟨hmem, hmay⟩ := hs.answered p hp
      exact ⟨List.mem_append_left _ hmem, hmay⟩
  | @ran i req c k a store hslot hc =>
    obtain ⟨hmem, hwork⟩ := hs.working i req _ hslot
    refine ⟨forall_update hs.working ?_, fun addr haddr => ?_, hs.answered⟩
    · rintro r work ⟨⟩
      exact ⟨hmem, hwork.2 a () (httpStep_possible hc)⟩
    · have huntouched : c.touches ≠ some addr := fun h => haddr req hmem (hwork.1 addr h)
      obtain ⟨hdevices, hcache⟩ := httpStep_untouched hc huntouched
      obtain ⟨hrow, hentry⟩ := hs.untouched addr haddr
      exact ⟨hdevices.trans hrow, hcache.trans hentry⟩
  | @respond i req response hslot =>
    obtain ⟨hmem, hmay⟩ := hs.working i req _ hslot
    refine ⟨forall_update hs.working nofun, hs.untouched, fun p hp => ?_⟩
    rcases List.mem_append.mp hp with hold | hnew
    · exact hs.answered p hold
    · obtain ⟨r, hr, rfl⟩ := List.mem_map.mp hnew
      exact ⟨hmem, hmay r (Option.mem_toList.mp hr)⟩
  | hangUp i => exact ⟨forall_update hs.working nofun, hs.untouched, hs.answered⟩
  | @ingest c a store hingest hc =>
    refine ⟨hs.working, fun addr haddr => ?_, hs.answered⟩
    have huntouched : c.touches ≠ some addr := by
      intro h
      apply hingest
      cases c with
      | cacheGet b => cases h
      | insertReading => cases h
      | _ => trivial
    obtain ⟨hdevices, hcache⟩ := apiStep_untouched hc huntouched
    obtain ⟨hrow, hentry⟩ := hs.untouched addr haddr
    exact ⟨hdevices.trans hrow, hcache.trans hentry⟩
  | restart =>
    refine ⟨by rintro i req work ⟨⟩, fun addr haddr => ?_, hs.answered⟩
    have hrow := (hs.untouched addr haddr).1
    refine ⟨hrow, ?_⟩
    simp only [ApiConfig.load, DeviceRegistry.load, hrow]

/-- However requests interleave with each other, the ingest and restarts: the row
and the cache entry of an address stay as they were unless a request came that
bears the token and asks for a new key of that address; a request without the
token is told nothing but what the router, the guard and the health check say;
and a key goes only to a request that bears the token and asked for it. -/
theorem guards {readings : List StoredReading} {t : HttpApi}
    (h : Relation.ReflTransGen (Step config token extract guardsFallback)
      (start config devices readings) t) :
    (∀ addr, (∀ req ∈ t.started, ¬ (req.Bears token ∧ req.Names extract addr)) →
      t.store.devices addr = devices addr ∧ t.store.cache addr = config.load devices addr) ∧
    (∀ req response, (req, response) ∈ t.answered → req ∈ t.started ∧
      (¬ req.Bears token → HttpResponse.IsPublic response) ∧
      ∀ status r, response = .ok (status, .key r) →
        req.Bears token ∧ req.Names extract r.deviceAddr) := by
  have hinv := invariant_run h (fun _ _ => Step.inv) (inv_start readings)
  exact ⟨hinv.untouched, fun req response hmem => hinv.answered (req, response) hmem⟩

/-! ### Two requests -/

/-- A request as far as its handler has got. -/
def serving (s : HttpApi) (i : Nat) (req : HttpRequest) (c : HttpM (Option HttpResponse) × ApiStore) :
    HttpApi :=
  { s with store := c.2, requests := Function.update s.requests i (some (req, c.1)) }

theorem run_request {s : HttpApi} {i : Nat} {req : HttpRequest} {p q : HttpM (Option HttpResponse)}
    {store : ApiStore} (hs : s.requests i = some (req, p)) (h : Steps httpStep (p, s.store) (q, store)) :
    Relation.ReflTransGen (Step config token extract guardsFallback) s (s.serving i req (q, store)) := by
  have hself : s.serving i req (p, s.store) = s := by
    rw [serving, ← hs, Function.update_eq_self]
  have hrun : Relation.ReflTransGen (Step config token extract guardsFallback)
      (s.serving i req (p, s.store)) (s.serving i req (q, store)) := by
    refine h.lift (s.serving i req) ?_
    rintro _ _ (@⟨c, k, u, v, a, hc⟩)
    have hslot : (s.serving i req (.cmd c k, u)).requests i = some (req, .cmd c k) :=
      Function.update_self ..
    have hstep : Step config token extract guardsFallback _ _ := .ran hslot hc
    simp only [serving, Function.update_idem] at hstep
    exact hstep
  rwa [hself] at hrun

/-- The commands of a handler of the registry are commands of its request. -/
theorem steps_respondKey {α : Type} {a : α} {handler : α → ApiM (Option (ApiResponse DeviceKeyResponse))}
    {r : Option (ApiResponse DeviceKeyResponse)} {u v : ApiStore}
    (h : Steps apiStep (handler a, u) (.ret r, v)) :
    Steps httpStep (respondKey (.ok a) handler, u)
      (.ret (r.map fun r => r.map fun p => (p.1, .key p.2)), v) := by
  let expanded (p : ApiM (Option (ApiResponse DeviceKeyResponse))) :
      HttpM (Option (ApiResponse DeviceKeyResponse)) := p.expand fun c => perform (HttpCmd.api c)
  have hsteps : Steps httpStep (expanded (handler a), u) (expanded (.ret r), v) := by
    refine h.lift (fun c : ApiM _ × ApiStore => (expanded c.1, c.2)) ?_
    rintro _ _ ⟨hc⟩
    exact Commands.Step.cmd (D := httpStep) hc
  exact Steps.bind hsteps _

def barePost : HttpRequest := ⟨.post, "/devices".toList, none, none, []⟩

def rotatePost : HttpRequest :=
  ⟨.post, "/devices/060504030201/rotate-key".toList, some (utf8 (bearerScheme ++ sampleToken.token)),
    none, []⟩

def sampleExtract : Extractors where
  json _ _ := .error "Expected request with `Content-Type: application/json`"
  path segment := (DeviceAddr.fromStr (String.ofList segment)).mapError fun _ =>
    "Invalid URL: " ++ String.ofList segment

theorem serve_barePost :
    serve sampleConfig sampleToken sampleExtract false barePost = .ret (some (.error .unauthorized)) := by
  have hroute : route barePost.path = some .devices := by decide
  rw [serve, hroute]
  rfl

theorem serve_rotatePost : serve sampleConfig sampleToken sampleExtract false rotatePost =
    respondKey (.ok sensorAddr) (DeviceRoutes.rotateDeviceKey sampleConfig) := by
  have hroute : route rotatePost.path = some (.rotateKey "060504030201".toList) := by decide
  have haddr : pathAddr sampleExtract "060504030201".toList = .ok sensorAddr := by decide +kernel
  have hbears : requireBearer sampleToken rotatePost.authorization = .ok () := by decide +kernel
  have hhandler : handler sampleConfig sampleExtract rotatePost (.rotateKey "060504030201".toList)
      rotatePost.method = some (respondKey (.ok sensorAddr) (DeviceRoutes.rotateDeviceKey sampleConfig)) := by
    rw [← haddr]
    rfl
  simp only [serve, hroute, hhandler, Endpoint.isProtected, if_true, guarded, hbears]

def rotatedDevice : Device := ⟨sensorAddr, "kitchen", 1, ⟨mintedKey, sensorAddr⟩⟩

theorem rotatePost_steps {u : ApiStore} (hu : u.devices sensorAddr = some sensorRow) : ∃ v,
    Steps apiStep (DeviceRoutes.rotateDeviceKey sampleConfig sensorAddr, u)
      (.ret (some (.ok (200, .ofDevice rotatedDevice mintedKey))), v) := by
  let v := u.setRow sensorAddr ⟨"kitchen", some firstSealed.bytes, 1⟩
  have hupdate : apiStep u (.updateKey sensorAddr firstSealed)
      (.ok (some ⟨sensorAddr, "kitchen", some firstSealed.bytes, 1⟩)) v :=
    ⟨sensorRow, 1, hu, rfl, rfl⟩
  let w := { v with cache := Function.update v.cache sensorAddr (some rotatedDevice) }
  have hinsert : apiStep v (.cacheInsert sensorAddr rotatedDevice) () w := rfl
  have hkey : apiStep u .generateKey (.ok mintedKey) u := rfl
  have hnonce : apiStep u .generateNonce firstNonce u := rfl
  rw [DeviceRoutes.rotateDeviceKey_eq]
  refine ⟨w, .cmd hkey (.cmd hnonce ?_)⟩
  simp only [firstSealed_eq]
  exact .cmd hupdate (.cmd hinsert .refl)

/-- Two requests at once: one without the token, and one for a new key. -/
theorem guards_requests : ∃ t : HttpApi,
    Relation.ReflTransGen (Step sampleConfig sampleToken sampleExtract false)
      (start sampleConfig sampleDevices []) t ∧
    t.answered = [(barePost, .error .unauthorized),
      (rotatePost, .ok (200, .key (.ofDevice rotatedDevice mintedKey)))] ∧
    rotatePost.Bears sampleToken ∧ rotatePost.Names sampleExtract sensorAddr ∧
    ∀ addr, addr ≠ sensorAddr → t.store.devices addr = sampleDevices addr := by
  let accepted : HttpApi :=
    { start sampleConfig sampleDevices [] with
      requests := Function.update (Function.update (fun _ => none) 0 (some (barePost, serve sampleConfig
        sampleToken sampleExtract false barePost))) 1 (some (rotatePost, serve sampleConfig sampleToken
          sampleExtract false rotatePost))
      started := [barePost, rotatePost] }
  have haccept : Relation.ReflTransGen (Step sampleConfig sampleToken sampleExtract false)
      (start sampleConfig sampleDevices []) accepted :=
    .tail (.single (.accept (i := 0) rfl barePost)) (.accept (i := 1) rfl rotatePost)
  have hbare : accepted.requests 0 = some (barePost, .ret (some (.error .unauthorized))) := by
    rw [← serve_barePost]
    rfl
  obtain ⟨v, hsteps⟩ := @rotatePost_steps accepted.store sampleDevices_sensor
  let refused : HttpApi := { accepted with
    requests := Function.update accepted.requests 0 none
    answered := [(barePost, .error .unauthorized)] }
  have hrefuse : Step sampleConfig sampleToken sampleExtract false accepted refused := .respond hbare
  have hrotate : refused.requests 1 = some (rotatePost,
      respondKey (.ok sensorAddr) (DeviceRoutes.rotateDeviceKey sampleConfig)) := by
    rw [← serve_rotatePost]
    rfl
  have hserve : Relation.ReflTransGen (Step sampleConfig sampleToken sampleExtract false) refused _ :=
    run_request hrotate (steps_respondKey hsteps)
  have hrun := ((haccept.tail hrefuse).trans hserve).tail (.respond (Function.update_self ..))
  have hbears : rotatePost.Bears sampleToken := (requireBearer_ok_iff _ _).mp (by decide +kernel)
  have hroute : route rotatePost.path = some (.rotateKey "060504030201".toList) := by decide
  have haddr : sampleExtract.path "060504030201".toList = .ok sensorAddr := by decide +kernel
  refine ⟨_, hrun, rfl, hbears, ⟨rfl, .inr ⟨_, hroute, haddr⟩⟩, fun addr hne => ?_⟩
  refine ((guards hrun).1 addr ?_).1
  rintro req hreq ⟨⟨-, blanks, -, hbears⟩, -, hnames⟩
  rcases List.mem_pair.mp hreq with rfl | rfl
  · cases hbears
  · rcases hnames with ⟨hdevices, -⟩ | ⟨segment, hsegment, hpath⟩
    · cases hroute.symm.trans hdevices
    · cases hroute.symm.trans hsegment
      exact hne (Except.ok.inj (haddr.symm.trans hpath)).symm

end HttpApi

end Homescope
