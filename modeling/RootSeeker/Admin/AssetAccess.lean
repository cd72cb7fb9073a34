import RootSeeker.Core.Base64
import RootSeeker.Python.Paths

/-!
# What is served without a session

The middleware of the admin application lets a request pass if its session is
known or its path is public.  It decides by the text of the path; the asset route
joins the rest of the path to a directory.
-/

namespace RootSeeker.Admin

open Python Base64 PathStep

structure SessionRecord where
  userId : PyStr
  username : PyStr
  expiresAt : ℤ

abbrev SessionStore := Dict PyStr SessionRecord

namespace SessionStore

/-- `get`: an expired session is dropped. -/
def find (sessions : SessionStore) (now : ℤ) (sessionId : PyStr) :
    Option SessionRecord × SessionStore :=
  match sessions.get? sessionId with
  | none => (none, sessions)
  | some record =>
    if record.expiresAt ≤ now then (none, sessions.erase sessionId) else (some record, sessions)

end SessionStore

structure AdminRequest where
  method : PyStr
  /-- The path after percent-decoding. -/
  path : PyStr
  /-- The session cookie. -/
  cookie : Option PyStr

/-- What is stored when a request comes in, and where the web pages are. -/
structure AdminState where
  sessions : SessionStore
  userIds : List PyStr
  now : ℤ
  dist : Path PyStr

abbrev Host := FileTree PyStr (List Byte)

inductive AdminResponse where
  | redirectToLogin
  | unauthorized
  | notFound
  | methodNotAllowed
  | serverError
  | endpoint (method path : PyStr)
  | file (place : Path PyStr) (content : List Byte)
  /-- Any answer of the other routes. -/
  | other
  deriving DecidableEq

def publicExact : List (PyStr × PyStr) :=
  [(py "GET", py "/healthz"), (py "GET", py "/login"), (py "GET", py "/api/auth/status"),
    (py "POST", py "/api/auth/login"), (py "POST", py "/api/auth/bootstrap"),
    (py "POST", py "/api/auth/logout")]

def assetPrefix : PyStr := py "/assets/"

/-- `method.upper()` of an ASCII text. -/
def upper (method : PyStr) : PyStr :=
  method.map fun c => if h : 0x61 ≤ c.val ∧ c.val ≤ 0x7A then ⟨c.val - 0x20, by omega⟩ else c

def isPublic (method path : PyStr) : Bool :=
  assetPrefix <+: path ∨ (upper method, path) ∈ publicExact

/-- The session of a request: known, not expired, and of a user that still exists. -/
def currentSession (state : AdminState) (request : AdminRequest) :
    Option SessionRecord × SessionStore :=
  let sessionId := request.cookie.getD []
  if sessionId = [] then (none, state.sessions)
  else
    match state.sessions.find state.now sessionId with
    | (none, sessions) => (none, sessions)
    | (some record, sessions) =>
      if record.userId ∈ state.userIds then (some record, sessions)
      else (none, sessions.erase sessionId)

def newline : CodePoint := CodePoint.ofChar '\n'

/-- What `.*$` matches of the rest of a path. -/
def pathParameter (rest : PyStr) : Option PyStr :=
  if newline ∉ rest then some rest
  else if rest.getLast? = some newline ∧ newline ∉ rest.dropLast then some rest.dropLast
  else none

def assetsDir (dist : Path PyStr) : Path PyStr :=
  dist ++ [py "assets"]

/-- Where a joined path starts: an absolute path replaces the directory. -/
def joinStart (dist : Path PyStr) (path : PyStr) : Path PyStr :=
  if path.head? = some pathSeparator then [] else assetsDir dist

/-- `admin_assets`; no path with a zero character exists. -/
def adminAssets (host : Host) (dist : Path PyStr) (path : PyStr) : AdminResponse :=
  if nul ∈ path then .notFound
  else
    match host.walk (joinStart dist path) (pathSteps path) with
    | none => .notFound
    | some place =>
      match host.get? place with
      | some (.file content) => .file place content
      | _ => .serverError

/-- The routes, as far as a request without a session comes to them. -/
def route (host : Host) (dist : Path PyStr) (request : AdminRequest) : AdminResponse :=
  if assetPrefix <+: request.path then
    match pathParameter (request.path.drop assetPrefix.length) with
    | none => .notFound
    | some path =>
      if request.method = py "GET" then adminAssets host dist path else .methodNotAllowed
  else if (request.method, request.path) ∈ publicExact then
    .endpoint request.method request.path
  else if (upper request.method, request.path) ∈ publicExact then .methodNotAllowed
  else .other

def middleware (host : Host) (state : AdminState) (request : AdminRequest) :
    AdminResponse × SessionStore :=
  let (record, sessions) := currentSession state request
  if isPublic (upper request.method) request.path ∨ record.isSome then
    (route host state.dist request, sessions)
  else if py "/api/" <+: request.path then (.unauthorized, sessions)
  else (.redirectToLogin, sessions)

/-! ## What is public -/

/-- The cookie names an unexpired session of an existing user. -/
def HasSession (state : AdminState) (request : AdminRequest) : Prop :=
  ∃ sessionId record, request.cookie = some sessionId ∧
    state.sessions.get? sessionId = some record ∧ state.now < record.expiresAt ∧
    record.userId ∈ state.userIds

/-- A redirect, a refusal, a listed endpoint, or a file under the assets. -/
def PublicContent (dist : Path PyStr) : AdminResponse → Prop
  | .endpoint method path => (method, path) ∈ publicExact
  | .file place _ => assetsDir dist <+: place
  | .other => False
  | _ => True

/-- On every host the answer is public. -/
def OnlyPublic (state : AdminState) (request : AdminRequest) : Prop :=
  ∀ host : Host, host.Grown → PublicContent state.dist (middleware host state request).1

/-- The request gets an asset, and the steps after `/assets/` lead to a place that is neither
under the assets nor a directory they pass. -/
def LeavesAssets (state : AdminState) (request : AdminRequest) : Prop :=
  request.method = py "GET" ∧ assetPrefix <+: request.path ∧
    ∃ path ∈ pathParameter (request.path.drop assetPrefix.length), nul ∉ path ∧
      FileTree.CanEnd (joinStart state.dist path) (pathSteps path) ∧
      ¬assetsDir state.dist <+: destination (joinStart state.dist path) (pathSteps path)

variable {state : AdminState} {request : AdminRequest}

theorem currentSession_eq_none (hsession : ¬HasSession state request) :
    (currentSession state request).1 = none := by
  rw [currentSession]
  split
  · rfl
  · next hne =>
    have hcookie : request.cookie = some (request.cookie.getD []) := by
      cases hcookie : request.cookie with
      | none => exact absurd (by rw [hcookie]; rfl) hne
      | some sessionId => rfl
    rw [SessionStore.find]
    cases hget : state.sessions.get? (request.cookie.getD []) with
    | none => rfl
    | some record =>
      by_cases hexpired : record.expiresAt ≤ state.now
      · simp only [if_pos hexpired]
      · have huser : record.userId ∉ state.userIds :=
          fun huser => hsession ⟨_, record, hcookie, hget, not_le.mp hexpired, huser⟩
        simp only [if_neg hexpired, if_neg huser]

theorem upper_idem (method : PyStr) : upper (upper method) = upper method := by
  rw [upper, upper, List.map_map]
  apply List.map_congr_left
  intro c _
  rw [Function.comp_apply]
  by_cases hlower : 0x61 ≤ c.val ∧ c.val ≤ 0x7A
  · rw [dif_pos hlower, dif_neg (by simp only; omega)]
  · rw [dif_neg hlower, dif_neg hlower]

/-- Without a session only public paths come to the routes. -/
theorem middleware_of_no_session (hsession : ¬HasSession state request) (host : Host) :
    (middleware host state request).1 =
      if isPublic request.method request.path then route host state.dist request
      else if py "/api/" <+: request.path then .unauthorized else .redirectToLogin := by
  have hrecord := currentSession_eq_none hsession
  have hpublic : isPublic (upper request.method) request.path =
      isPublic request.method request.path := by
    rw [isPublic, isPublic, upper_idem]
  rw [middleware]
  generalize currentSession state request = found at hrecord
  obtain ⟨record, sessions⟩ := found
  obtain rfl : record = none := hrecord
  simp only [hpublic, Option.isSome_none, Bool.false_eq_true, or_false]
  split
  · rfl
  · split <;> rfl

/-- An asset is public exactly when it is not a file outside the directory. -/
theorem publicContent_adminAssets_iff (host : Host) (dist : Path PyStr) (path : PyStr) :
    PublicContent dist (adminAssets host dist path) ↔
      (nul ∉ path → ∀ place content,
        host.walk (joinStart dist path) (pathSteps path) = some place →
        host.get? place = some (.file content) → assetsDir dist <+: place) := by
  rw [adminAssets]
  split
  · next hnul => exact iff_of_true trivial fun hnot => absurd hnul hnot
  · next hnul =>
    cases hwalk : host.walk (joinStart dist path) (pathSteps path) with
    | none => exact iff_of_true trivial fun _ _ _ hfound => absurd hfound (by simp)
    | some place =>
      cases hget : host.get? place with
      | none =>
        refine iff_of_true (by simp only [hget]; trivial) ?_
        rintro _ found content hfound hcontent
        rw [← Option.some.inj hfound, hget] at hcontent
        exact absurd hcontent (by simp)
      | some entry =>
        cases entry with
        | dir =>
          refine iff_of_true (by simp only [hget]; trivial) ?_
          rintro _ found content hfound hcontent
          rw [← Option.some.inj hfound, hget] at hcontent
          exact absurd hcontent (by simp)
        | file content =>
          simp only [hget]
          constructor
          · rintro hpublic _ found _ hfound _
            exact Option.some.inj hfound ▸ hpublic
          · intro hall
            exact hall hnul place content rfl hget

theorem publicContent_route_of_not_asset (hasset : ¬assetPrefix <+: request.path)
    (hpublic : isPublic request.method request.path = true) (host : Host) (dist : Path PyStr) :
    PublicContent dist (route host dist request) := by
  have hlisted : (upper request.method, request.path) ∈ publicExact := by
    rw [isPublic, decide_eq_true_eq] at hpublic
    exact hpublic.resolve_left hasset
  rw [route, if_neg hasset]
  split
  · assumption
  · trivial

/-- No sessions, and the pages in a directory below the service. -/
def emptyState : AdminState where
  sessions := []
  userIds := []
  now := 0
  dist := [py "srv", py "apps", py "admin-web", py "dist"]

def anonymous (path : String) : AdminRequest where
  method := py "GET"
  path := py path
  cookie := none

theorem anonymous_has_no_session (path : String) : ¬HasSession emptyState (anonymous path) := by
  rintro ⟨_, _, hcookie, _⟩
  exact absurd hcookie (by simp [anonymous])

/-- A host with one file outside the pages. -/
def secretHost : Host :=
  FileTree.around [] [py "etc", py "passwd"] []

end RootSeeker.Admin
