import RootSeeker.Admin.AssetAccess
import RootSeeker.Admin.UserStores
import RootSeeker.Core.Transition
import RootSeeker.Python.Utf8

/-!
# Accounts and sessions under concurrent requests

Requests run in threads.  Each call to the store of the accounts or of the sessions
is atomic, but a request makes several, and others may come in between.
-/

namespace RootSeeker.Admin

open Python Transition

/-- The character class of `USERNAME_RE`. -/
def isUsernameChar (c : CodePoint) : Bool :=
  isDigit c ∨ 0x41 ≤ c.val ∧ c.val ≤ 0x5A ∨ 0x61 ≤ c.val ∧ c.val ≤ 0x7A ∨ c ∈ py "._-"

/-- `username_error(username) is None`. -/
def UsernameOk (username : PyStr) : Prop :=
  3 ≤ username.length ∧ username.length ≤ 64 ∧ username.all isUsernameChar = true

/-- `password_error(password)` returns `None`; a surrogate has no encoding. -/
def PasswordOk (password : PyStr) : Prop :=
  Encodable password ∧ 8 ≤ password.length ∧ (utf8 password).length ≤ 72

instance (username : PyStr) : Decidable (UsernameOk username) :=
  inferInstanceAs (Decidable (_ ∧ _ ∧ _))

instance (password : PyStr) : Decidable (PasswordOk password) :=
  inferInstanceAs (Decidable (_ ∧ _ ∧ _))

/-- `bcrypt`, with the salt that `hashpw` is given. -/
structure Bcrypt where
  hashpw : PyStr → PyStr → PyStr
  checkpw : PyStr → PyStr → Bool

def sessionTtl : ℤ := 12 * 3600

inductive AuthCall where
  | bootstrap (username password : PyStr)
  | login (username password : PyStr)
  | logout
  | createUser (username password : PyStr)
  | deleteUser (userId : PyStr)
  | changeMyPassword (oldPassword newPassword : PyStr)
  /-- Any other route; it changes neither accounts nor sessions. -/
  | other (method path : PyStr)
  deriving DecidableEq

def AuthCall.endpoint : AuthCall → PyStr × PyStr
  | .bootstrap _ _ => (py "POST", py "/api/auth/bootstrap")
  | .login _ _ => (py "POST", py "/api/auth/login")
  | .logout => (py "POST", py "/api/auth/logout")
  | .createUser _ _ => (py "POST", py "/api/users")
  | .deleteUser userId => (py "DELETE", py "/api/users/" ++ userId)
  | .changeMyPassword _ _ => (py "POST", py "/api/users/me/password")
  | .other method path => (method, path)

def AuthCall.isPublic (call : AuthCall) : Bool :=
  Admin.isPublic call.endpoint.1 call.endpoint.2

deriving instance DecidableEq for UserRecord, SessionRecord

/-- Where a request stands between its calls to the stores. -/
inductive AuthPhase where
  | idle
  /-- The middleware has an unexpired session and looks up its user next. -/
  | found (cookie : PyStr) (call : AuthCall) (record : SessionRecord)
  /-- The user of the session is gone; the session is dropped next. -/
  | stale (cookie : PyStr) (call : AuthCall)
  | admitted (cookie : PyStr) (call : AuthCall) (record : Option SessionRecord)
  /-- The credentials are right; a session is opened next. -/
  | opening (user : UserRecord)
  | deleting (userId : PyStr)
  | revoking (userId : PyStr)
  | renewing (userId passwordHash : PyStr)
  deriving DecidableEq

structure AuthStores where
  users : UserTable
  sessions : SessionStore

/-- What a step takes from the clock and the random generator. -/
structure Draw where
  now : ℤ
  token : PyStr
  salt : PyStr

/-- A request without a session goes on if its route is public. -/
def pass (cookie : PyStr) (call : AuthCall) : AuthPhase :=
  if call.isPublic then .admitted cookie call none else .idle

/-- The first call of the middleware. -/
def arrive (stores : AuthStores) (cookie : PyStr) (call : AuthCall) (now : ℤ) :
    AuthStores × AuthPhase :=
  if cookie = [] then (stores, pass cookie call)
  else
    match stores.sessions.find now cookie with
    | (none, sessions) => ({ stores with sessions := sessions }, pass cookie call)
    | (some record, sessions) => ({ stores with sessions := sessions }, .found cookie call record)

/-- The first call of a handler. -/
def handle (bcrypt : Bcrypt) (stores : AuthStores) (cookie : PyStr)
    (record : Option SessionRecord) (draw : Draw) : AuthCall → AuthStores × AuthPhase
  | .bootstrap username password =>
    if UsernameOk username ∧ PasswordOk password then
      match stores.users.createFirst
          (newUser draw.token username (bcrypt.hashpw password draw.salt) draw.now) with
      | .ok users =>
        ({ stores with users := users }, .opening
          (newUser draw.token username (bcrypt.hashpw password draw.salt) draw.now))
      | .error _ => (stores, .idle)
    else (stores, .idle)
  | .login username password =>
    match stores.users.getByUsername username with
    | none => (stores, .idle)
    | some user =>
      if bcrypt.checkpw password user.passwordHash then (stores, .opening user)
      else (stores, .idle)
  | .logout =>
    if cookie = [] then (stores, .idle)
    else ({ stores with sessions := stores.sessions.erase cookie }, .idle)
  | .createUser username password =>
    if UsernameOk username ∧ PasswordOk password then
      match stores.users.create
          (newUser draw.token username (bcrypt.hashpw password draw.salt) draw.now) with
      | .ok users => ({ stores with users := users }, .idle)
      | .error _ => (stores, .idle)
    else (stores, .idle)
  | .deleteUser userId =>
    match stores.users.getById userId with
    | none => (stores, .idle)
    | some _ => (stores, .deleting userId)
  | .changeMyPassword oldPassword newPassword =>
    match record.bind fun session => stores.users.getById session.userId with
    | none => (stores, .idle)
    | some user =>
      if PasswordOk newPassword ∧ bcrypt.checkpw oldPassword user.passwordHash ∧
          oldPassword ≠ newPassword then
        (stores, .renewing user.id (bcrypt.hashpw newPassword draw.salt))
      else (stores, .idle)
  | .other _ _ => (stores, .idle)

/-- The next call of a request that is under way. -/
def advance (bcrypt : Bcrypt) (stores : AuthStores) (draw : Draw) :
    AuthPhase → AuthStores × AuthPhase
  | .idle => (stores, .idle)
  | .found cookie call record =>
    match stores.users.getById record.userId with
    | some _ => (stores, .admitted cookie call (some record))
    | none => (stores, .stale cookie call)
  | .stale cookie call =>
    ({ stores with sessions := stores.sessions.erase cookie }, pass cookie call)
  | .admitted cookie call record => handle bcrypt stores cookie record draw call
  | .opening user =>
    ({ stores with
      sessions := stores.sessions.set draw.token
        { userId := user.id, username := user.username, expiresAt := draw.now + sessionTtl } },
      .idle)
  | .deleting userId => ({ stores with users := stores.users.delete userId }, .revoking userId)
  | .revoking userId =>
    ({ stores with sessions := stores.sessions.filter fun entry => entry.2.userId ≠ userId },
      .idle)
  | .renewing userId passwordHash =>
    ({ stores with
      users := stores.users.updatePasswordHash userId passwordHash draw.now }, .idle)

/-! ## Requests in threads -/

/-- The stores, the phase of every request, and the tokens drawn so far. -/
structure AuthSystem (ι : Type*) where
  stores : AuthStores
  phase : ι → AuthPhase
  drawn : List PyStr

inductive AuthStep (ι : Type*) where
  | arrive (request : ι) (cookie : PyStr) (call : AuthCall) (now : ℤ)
  | proceed (request : ι) (draw : Draw)

section System

variable {ι : Type*} [DecidableEq ι]

def AuthSystem.start : AuthSystem ι where
  stores := ⟨.empty, []⟩
  phase _ := .idle
  drawn := []

def AuthSystem.step (bcrypt : Bcrypt) (system : AuthSystem ι) : AuthStep ι → AuthSystem ι
  | .arrive request cookie call now =>
    match system.phase request with
    | .idle =>
      let (stores, phase) := arrive system.stores cookie call now
      { system with
        stores := stores, phase := Function.update system.phase request phase }
    | _ => system
  | .proceed request draw =>
    let (stores, phase) := advance bcrypt system.stores draw (system.phase request)
    { stores := stores
      phase := Function.update system.phase request phase
      drawn := draw.token :: system.drawn }

/-- Tokens are not drawn twice. -/
def DrawsNew (system : AuthSystem ι) : AuthStep ι → Prop
  | .arrive _ _ _ _ => True
  | .proceed _ draw => draw.token ∉ system.drawn

instance (system : AuthSystem ι) : ∀ label, Decidable (DrawsNew system label)
  | .arrive _ _ _ _ => .isTrue trivial
  | .proceed _ draw => inferInstanceAs (Decidable (draw.token ∉ system.drawn))

def AuthRuns (bcrypt : Bcrypt) (trace : Trace (AuthSystem ι) (AuthStep ι)) : Prop :=
  Follows (fun system label next => DrawsNew system label ∧ next = system.step bcrypt label)
    .start trace

/-! ## What one call changes -/

section Calls

variable {bcrypt : Bcrypt} {stores : AuthStores} {draw : Draw} {phase : AuthPhase}
  {call : AuthCall} {cookie : PyStr} {record : Option SessionRecord} {row : UserRecord}

/-- The hash of an acceptable password. -/
def Secured (bcrypt : Bcrypt) (passwordHash : PyStr) : Prop :=
  ∃ password salt, PasswordOk password ∧ passwordHash = bcrypt.hashpw password salt

/-- An account that the call of a handler may insert. -/
def IsNew (bcrypt : Bcrypt) (draw : Draw) (row : UserRecord) : Prop :=
  ∃ username password, UsernameOk username ∧ PasswordOk password ∧
    row = newUser draw.token username (bcrypt.hashpw password draw.salt) draw.now

variable (bcrypt stores draw phase) in
/-- What a call does to the stores, and where the request stands after it. -/
inductive Advanced : AuthStores × AuthPhase → Prop
  | refused : Advanced (stores, .idle)
  | admitted {row : UserRecord} {cookie : PyStr} {call : AuthCall} {record : SessionRecord}
      (hfound : phase = .found cookie call record) (hrow : row ∈ stores.users.rows)
      (hid : row.id = record.userId) : Advanced (stores, .admitted cookie call (some record))
  | stale (cookie : PyStr) (call : AuthCall) : Advanced (stores, .stale cookie call)
  | passed (cookie : PyStr) (call : AuthCall) :
      Advanced ({ stores with sessions := stores.sessions.erase cookie }, pass cookie call)
  | dropped {sessions : SessionStore} (hsubset : sessions ⊆ stores.sessions) :
      Advanced ({ stores with sessions := sessions }, .idle)
  | created {row : UserRecord} {users : UserTable} {next : AuthPhase}
      (hnew : IsNew bcrypt draw row) (hrows : users.rows = stores.users.rows ++ [row])
      (hnext : next = .idle ∨ next = .opening row) :
      Advanced ({ stores with users := users }, next)
  | entered {row : UserRecord} (hrow : row ∈ stores.users.rows) : Advanced (stores, .opening row)
  | opened {user : UserRecord} {record : SessionRecord} (hphase : phase = .opening user)
      (hid : record.userId = user.id) (hname : record.username = user.username) :
      Advanced ({ stores with sessions := stores.sessions.set draw.token record }, .idle)
  | deleting {row : UserRecord} (hrow : row ∈ stores.users.rows) :
      Advanced (stores, .deleting row.id)
  | deleted (userId : PyStr) :
      Advanced ({ stores with users := stores.users.delete userId }, .revoking userId)
  | renewing (userId : PyStr) {passwordHash : PyStr} (hhash : Secured bcrypt passwordHash) :
      Advanced (stores, .renewing userId passwordHash)
  | renewed {userId passwordHash : PyStr} (hphase : phase = .renewing userId passwordHash) :
      Advanced ({ stores with
        users := stores.users.updatePasswordHash userId passwordHash draw.now }, .idle)

theorem advanced_handle :
    Advanced bcrypt stores draw phase (handle bcrypt stores cookie record draw call) := by
  cases call with
  | bootstrap username password =>
    rw [handle]
    split
    · next hok =>
      split
      · next hcreate =>
        exact .created ⟨username, password, hok.1, hok.2, rfl⟩
          (UserTable.rows_createFirst hcreate) (.inr rfl)
      · exact .refused
    · exact .refused
  | login username password =>
    rw [handle]
    split
    · exact .refused
    · next user huser =>
      split
      · exact .entered (List.mem_of_find?_eq_some huser)
      · exact .refused
  | logout =>
    rw [handle]
    split
    · exact .refused
    · exact .dropped fun _ hentry => Dict.mem_of_mem_erase hentry
  | createUser username password =>
    rw [handle]
    split
    · next hok =>
      split
      · next hcreate =>
        exact .created ⟨username, password, hok.1, hok.2, rfl⟩ (UserTable.rows_create hcreate)
          (.inl rfl)
      · exact .refused
    · exact .refused
  | deleteUser userId =>
    rw [handle]
    split
    · exact .refused
    · next row hrow =>
      rw [← UserTable.id_of_getById hrow]
      exact .deleting (UserTable.mem_of_getById hrow)
  | changeMyPassword oldPassword newPassword =>
    rw [handle]
    split
    · exact .refused
    · next user _ =>
      split
      · next hok => exact .renewing user.id ⟨newPassword, draw.salt, hok.1, rfl⟩
      · exact .refused
  | other method path => exact .refused

theorem advanced (bcrypt : Bcrypt) (stores : AuthStores) (draw : Draw) (phase : AuthPhase) :
    Advanced bcrypt stores draw phase (advance bcrypt stores draw phase) := by
  cases phase with
  | idle => exact .refused
  | found cookie call record =>
    rw [advance]
    split
    · next row hrow =>
      exact .admitted rfl (UserTable.mem_of_getById hrow) (UserTable.id_of_getById hrow)
    · exact .stale cookie call
  | stale cookie call => exact .passed cookie call
  | admitted cookie call record => exact advanced_handle
  | opening user => exact .opened rfl rfl rfl
  | deleting userId => exact .deleted userId
  | revoking userId => exact .dropped fun _ hentry => List.mem_of_mem_filter hentry
  | renewing userId passwordHash => exact .renewed rfl

variable {next : AuthStores × AuthPhase} (hnext : Advanced bcrypt stores draw phase next)

include hnext

/-- A row was there before, has a new hash, or is new. -/
theorem Advanced.mem_rows (hrow : row ∈ next.1.users.rows) :
    row ∈ stores.users.rows ∨
      (∃ old ∈ stores.users.rows, ∃ passwordHash, phase = .renewing old.id passwordHash ∧
        row = old.withHash passwordHash draw.now) ∨
      IsNew bcrypt draw row := by
  cases hnext with
  | created hnew hrows _ =>
    rw [hrows, List.mem_append, List.mem_singleton] at hrow
    rcases hrow with hold | rfl
    · exact .inl hold
    · exact .inr (.inr hnew)
  | deleted userId => exact .inl (List.mem_of_mem_filter hrow)
  | @renewed userId passwordHash hphase =>
    obtain ⟨old, hold, rfl⟩ := List.mem_map.mp hrow
    by_cases hid : old.id = userId
    · refine .inr (.inl ⟨old, hold, passwordHash, by rw [hid, hphase], ?_⟩)
      rw [UserTable.rehash, if_pos hid]
    · rw [UserTable.rehash, if_neg hid]
      exact .inl hold
  | _ => exact .inl hrow

/-- A row keeps its identifier and its username. -/
theorem Advanced.origin (hrow : row ∈ next.1.users.rows) :
    (∃ old ∈ stores.users.rows, old.id = row.id ∧ old.username = row.username) ∨
      row.id = draw.token := by
  obtain hold | ⟨old, hold, _, _, rfl⟩ | ⟨_, _, _, _, rfl⟩ := hnext.mem_rows hrow
  · exact .inl ⟨row, hold, rfl, rfl⟩
  · exact .inl ⟨old, hold, rfl, rfl⟩
  · exact .inr rfl

theorem Advanced.mem_sessions {entry : PyStr × SessionRecord} (hentry : entry ∈ next.1.sessions) :
    entry ∈ stores.sessions ∨ ∃ user, phase = .opening user ∧ entry.2.userId = user.id ∧
      entry.2.username = user.username := by
  cases hnext with
  | @opened user record hphase hid hname =>
    exact Dict.forall_mem_set
      (fun entry => entry ∈ stores.sessions ∨ ∃ user, phase = .opening user ∧
        entry.2.userId = user.id ∧ entry.2.username = user.username)
      (fun _ hold => .inl hold) (.inr ⟨user, hphase, hid, hname⟩) entry hentry
  | passed cookie call => exact .inl (Dict.mem_of_mem_erase hentry)
  | dropped hsubset => exact .inl (hsubset hentry)
  | _ => exact .inl hentry

theorem Advanced.exists_of_admitted {record : SessionRecord}
    (hadmitted : next.2 = .admitted cookie call (some record)) :
    ∃ row ∈ stores.users.rows, row.id = record.userId := by
  cases hnext with
  | admitted _ hrow hid =>
    cases hadmitted
    exact ⟨_, hrow, hid⟩
  | passed cookie call =>
    rw [pass] at hadmitted
    split at hadmitted <;> cases hadmitted
  | created _ _ hopening => rcases hopening with rfl | rfl <;> cases hadmitted
  | _ => cases hadmitted

omit hnext

theorem find_subset (sessions : SessionStore) (now : ℤ) (sessionId : PyStr) :
    (sessions.find now sessionId).2 ⊆ sessions := by
  rw [SessionStore.find]
  split
  · exact List.Subset.refl _
  · split
    · exact fun entry hentry => Dict.mem_of_mem_erase hentry
    · exact List.Subset.refl _

theorem mem_of_find {sessions : SessionStore} {now : ℤ} {sessionId : PyStr} {record : SessionRecord}
    (hfind : (sessions.find now sessionId).1 = some record) : (sessionId, record) ∈ sessions := by
  rw [SessionStore.find] at hfind
  split at hfind
  · cases hfind
  · next found hget =>
    split at hfind
    · cases hfind
    · exact Option.some.inj hfind ▸ Dict.mem_of_get? hget

theorem users_arrive (stores : AuthStores) (cookie : PyStr) (call : AuthCall) (now : ℤ) :
    (arrive stores cookie call now).1.users = stores.users := by
  rw [arrive]
  split
  · rfl
  · split <;> rfl

theorem sessions_arrive_subset (stores : AuthStores) (cookie : PyStr) (call : AuthCall)
    (now : ℤ) : (arrive stores cookie call now).1.sessions ⊆ stores.sessions := by
  have hsubset := find_subset stores.sessions now cookie
  rw [arrive]
  split
  · exact List.Subset.refl _
  · split
    · next hfind => simpa only [hfind] using hsubset
    · next hfind => simpa only [hfind] using hsubset

theorem phase_arrive (stores : AuthStores) (cookie : PyStr) (call : AuthCall) (now : ℤ) :
    (arrive stores cookie call now).2 = pass cookie call ∨
      ∃ record, (cookie, record) ∈ stores.sessions ∧
        (arrive stores cookie call now).2 = .found cookie call record := by
  rw [arrive]
  split
  · exact .inl rfl
  · split
    · exact .inl rfl
    · next record sessions hfind => exact .inr ⟨record, mem_of_find (congrArg Prod.fst hfind), rfl⟩

end Calls

/-! ## What holds of every run -/

section Runs

variable {bcrypt : Bcrypt} {drawn : List PyStr} {users : UserTable} {userId username : PyStr}
  {phase next : AuthPhase}

/-- The identifier was drawn, and an account that has it has this username. -/
def Names (drawn : List PyStr) (users : UserTable) (userId username : PyStr) : Prop :=
  userId ∈ drawn ∧ ∀ row ∈ users.rows, row.id = userId → row.username = username

theorem names_of_mem {user : UserRecord} (hdrawn : user.id ∈ drawn) (huser : user ∈ users.rows) :
    Names drawn users user.id user.username := by
  refine ⟨hdrawn, ?_⟩
  intro row hrow hid
  rw [List.inj_on_of_nodup_map users.ids hrow huser hid]

/-- What a request knows is right. -/
def AuthPhase.Fits (bcrypt : Bcrypt) (drawn : List PyStr) (users : UserTable) : AuthPhase → Prop
  | .found _ _ record => Names drawn users record.userId record.username
  | .admitted _ call none => call.isPublic = true
  | .admitted _ _ (some record) => Names drawn users record.userId record.username
  | .opening user => Names drawn users user.id user.username
  | .deleting userId => userId ∈ drawn
  | .renewing _ passwordHash => Secured bcrypt passwordHash
  | _ => True

theorem fits_pass {cookie : PyStr} {call : AuthCall} :
    (pass cookie call).Fits bcrypt drawn users := by
  rw [pass]
  split
  · next hpublic => exact hpublic
  · trivial

theorem AuthPhase.Fits.imp {drawn' : List PyStr} {users' : UserTable}
    (hfits : phase.Fits bcrypt drawn users) (hdrawn : drawn ⊆ drawn')
    (hnames : ∀ userId username, Names drawn users userId username →
      Names drawn' users' userId username) : phase.Fits bcrypt drawn' users' := by
  cases phase with
  | found cookie call record => exact hnames _ _ hfits
  | admitted cookie call record =>
    cases record with
    | none => exact hfits
    | some record => exact hnames _ _ hfits
  | opening user => exact hnames _ _ hfits
  | deleting userId => exact hdrawn hfits
  | renewing userId passwordHash => exact hfits
  | idle => trivial
  | stale cookie call => trivial
  | revoking userId => trivial

theorem Advanced.fits {stores : AuthStores} {draw : Draw} {next : AuthStores × AuthPhase}
    (hnext : Advanced bcrypt stores draw phase next)
    (hdrawn : ∀ row ∈ next.1.users.rows, row.id ∈ drawn)
    (hfits : phase.Fits bcrypt drawn next.1.users) : next.2.Fits bcrypt drawn next.1.users := by
  cases hnext with
  | admitted hfound _ _ =>
    rw [hfound] at hfits
    exact hfits
  | passed cookie call => exact fits_pass
  | @created row users _ _ hrows hopening =>
    obtain rfl | rfl := hopening
    · trivial
    · have hrow : row ∈ users.rows := by simp [hrows]
      exact names_of_mem (hdrawn row hrow) hrow
  | entered hrow => exact names_of_mem (hdrawn _ hrow) hrow
  | deleting hrow => exact hdrawn _ hrow
  | renewing userId hhash => exact hhash
  | _ => trivial

variable {ι : Type*} [DecidableEq ι] {system after : AuthSystem ι}
  {label : AuthStep ι} {trace : Trace (AuthSystem ι) (AuthStep ι)}

/-- Accounts, sessions and requests fit together. -/
structure AuthSystem.Orderly (bcrypt : Bcrypt) (system : AuthSystem ι) : Prop where
  drawn : ∀ row ∈ system.stores.users.rows, row.id ∈ system.drawn
  usernames : ∀ row ∈ system.stores.users.rows, UsernameOk row.username
  secured : ∀ row ∈ system.stores.users.rows, Secured bcrypt row.passwordHash
  sessions : ∀ entry ∈ system.stores.sessions,
    Names system.drawn system.stores.users entry.2.userId entry.2.username
  requests : ∀ request, (system.phase request).Fits bcrypt system.drawn system.stores.users

/-- An account that comes in has a new identifier, so no name is taken over. -/
theorem names_advance {stores : AuthStores} {draw : Draw}
    (hnames : Names drawn stores.users userId username) (hnew : draw.token ∉ drawn) :
    Names (draw.token :: drawn) (advance bcrypt stores draw phase).1.users userId username := by
  refine ⟨List.mem_cons_of_mem _ hnames.1, ?_⟩
  intro row hrow hid
  obtain ⟨old, hold, hsame, hname⟩ | htoken := (advanced _ _ _ _).origin hrow
  · rw [← hname, hnames.2 old hold (hsame.trans hid)]
  · exact absurd (htoken ▸ hid ▸ hnames.1) hnew

omit [DecidableEq ι] in
theorem orderly_start : (AuthSystem.start : AuthSystem ι).Orderly bcrypt where
  drawn := by simp [AuthSystem.start, UserTable.empty]
  usernames := by simp [AuthSystem.start, UserTable.empty]
  secured := by simp [AuthSystem.start, UserTable.empty]
  sessions := by simp [AuthSystem.start]
  requests _ := trivial

theorem AuthSystem.Orderly.arrive (horder : system.Orderly bcrypt) (request : ι) (cookie : PyStr)
    (call : AuthCall) (now : ℤ) :
    (system.step bcrypt (.arrive request cookie call now)).Orderly bcrypt := by
  rw [AuthSystem.step]
  split
  · have husers := users_arrive system.stores cookie call now
    constructor
    · simpa only [husers] using horder.drawn
    · simpa only [husers] using horder.usernames
    · simpa only [husers] using horder.secured
    · intro entry hentry
      simpa only [husers] using
        horder.sessions entry (sessions_arrive_subset system.stores cookie call now hentry)
    · intro other
      by_cases hother : other = request
      · subst hother
        simp only [husers, Function.update_self]
        obtain hpass | ⟨record, hrecord, hfound⟩ := phase_arrive system.stores cookie call now
        · rw [hpass]
          exact fits_pass
        · rw [hfound]
          exact horder.sessions _ hrecord
      · simpa only [husers, Function.update_of_ne hother] using horder.requests other
  · exact horder

theorem AuthSystem.Orderly.proceed (horder : system.Orderly bcrypt) {request : ι} {draw : Draw}
    (hnew : draw.token ∉ system.drawn) :
    (system.step bcrypt (.proceed request draw)).Orderly bcrypt := by
  have hdrawn : ∀ row ∈ (advance bcrypt system.stores draw (system.phase request)).1.users.rows,
      row.id ∈ draw.token :: system.drawn := by
    intro row hrow
    obtain ⟨old, hold, hsame, _⟩ | htoken := (advanced _ _ _ _).origin hrow
    · exact List.mem_cons_of_mem _ (hsame ▸ horder.drawn old hold)
    · exact htoken ▸ List.mem_cons_self
  have hfits : ∀ other, (system.phase other).Fits bcrypt (draw.token :: system.drawn)
      (advance bcrypt system.stores draw (system.phase request)).1.users := by
    intro other
    exact (horder.requests other).imp (List.subset_cons_self _ _)
      fun _ _ hnames => names_advance hnames hnew
  constructor
  · exact hdrawn
  · intro row hrow
    obtain hold | ⟨old, hold, _, _, rfl⟩ | ⟨_, _, husername, _, rfl⟩ :=
      (advanced _ _ _ _).mem_rows hrow
    · exact horder.usernames row hold
    · exact horder.usernames old hold
    · exact husername
  · intro row hrow
    obtain hold | ⟨old, _, passwordHash, hphase, rfl⟩ | ⟨_, password, _, hpassword, rfl⟩ :=
      (advanced _ _ _ _).mem_rows hrow
    · exact horder.secured row hold
    · have hrequest := horder.requests request
      rw [hphase] at hrequest
      exact hrequest
    · exact ⟨password, draw.salt, hpassword, rfl⟩
  · intro entry hentry
    obtain hold | ⟨user, hphase, hid, hname⟩ := (advanced _ _ _ _).mem_sessions hentry
    · exact names_advance (horder.sessions entry hold) hnew
    · have hrequest := horder.requests request
      rw [hphase] at hrequest
      rw [hid, hname]
      exact names_advance hrequest hnew
  · intro other
    by_cases hother : other = request
    · subst hother
      simp only [AuthSystem.step, Function.update_self]
      exact (advanced _ _ _ _).fits hdrawn (hfits other)
    · simpa only [AuthSystem.step, Function.update_of_ne hother] using hfits other

theorem AuthSystem.Orderly.step (horder : system.Orderly bcrypt) (hnew : DrawsNew system label) :
    (system.step bcrypt label).Orderly bcrypt := by
  cases label with
  | arrive request cookie call now => exact horder.arrive request cookie call now
  | proceed request draw => exact horder.proceed hnew

theorem orderly_step (state : AuthSystem ι) (label : AuthStep ι) (next : AuthSystem ι)
    (horder : state.Orderly bcrypt)
    (hstep : DrawsNew state label ∧ next = state.step bcrypt label) : next.Orderly bcrypt :=
  hstep.2 ▸ horder.step hstep.1

/-- The system takes the steps one after the other. -/
def AuthSystem.trail (bcrypt : Bcrypt) (system : AuthSystem ι) (labels : List (AuthStep ι)) :
    Trace (AuthSystem ι) (AuthStep ι) :=
  history (AuthSystem.step bcrypt) system labels

theorem follows_trail {labels : List (AuthStep ι)}
    (hnew : Guarded DrawsNew system (system.trail bcrypt labels)) :
    Follows (fun system label next => DrawsNew system label ∧ next = system.step bcrypt label)
      system (system.trail bcrypt labels) :=
  follows_and hnew (follows_history _ _ labels)

def demoBcrypt : Bcrypt where
  hashpw password salt := password ++ salt
  checkpw password passwordHash := password <+: passwordHash

/-- An account is set up and about to be deleted while someone logs in to it. -/
def demoLabels : List (AuthStep Bool) :=
  [.arrive false [] (.bootstrap (py "admin") (py "password")) 0,
    .proceed false ⟨0, py "u", py "s"⟩, .proceed false ⟨0, py "a", []⟩,
    .arrive true [] (.login (py "admin") (py "password")) 1, .proceed true ⟨1, py "b", []⟩,
    .arrive false (py "a") (.deleteUser (py "u")) 1, .proceed false ⟨1, py "c", []⟩,
    .proceed false ⟨1, py "d", []⟩]

def demoDeleting : AuthSystem Bool :=
  last .start (AuthSystem.start.trail demoBcrypt demoLabels)

/-- The identifier was drawn, and no account has it. -/
def AuthSystem.Gone (userId : PyStr) (system : AuthSystem ι) : Prop :=
  userId ∈ system.drawn ∧ ∀ row ∈ system.stores.users.rows, row.id ≠ userId

theorem AuthSystem.Gone.step (hgone : system.Gone userId) (hnew : DrawsNew system label) :
    (system.step bcrypt label).Gone userId := by
  cases label with
  | arrive request cookie call now =>
    rw [AuthSystem.step]
    split
    · exact ⟨hgone.1, by simpa only [users_arrive] using hgone.2⟩
    · exact hgone
  | proceed request draw =>
    refine ⟨List.mem_cons_of_mem _ hgone.1, ?_⟩
    intro row hrow hid
    obtain ⟨old, hold, hsame, _⟩ | htoken := (advanced _ _ _ _).origin hrow
    · exact hgone.2 old hold (hsame.trans hid)
    · exact hnew (htoken ▸ hid ▸ hgone.1)

/-- A request that has a session of the user after a step had it before. -/
def AdmitsNone (userId : PyStr) (system after : AuthSystem ι) : Prop :=
  ∀ request cookie call record, after.phase request = .admitted cookie call (some record) →
    record.userId = userId → system.phase request = .admitted cookie call (some record)

theorem AuthSystem.Gone.admitsNone (hgone : system.Gone userId) (hnew : DrawsNew system label) :
    AdmitsNone userId system (system.step bcrypt label) := by
  intro other cookie call record hadmitted huser
  cases label with
  | arrive request arrived route now =>
    rw [AuthSystem.step] at hadmitted
    split at hadmitted
    · by_cases hother : other = request
      · subst hother
        simp only [Function.update_self] at hadmitted
        obtain hpass | ⟨found, _, hfound⟩ := phase_arrive system.stores arrived route now
        · rw [hpass, pass] at hadmitted
          split at hadmitted <;> cases hadmitted
        · rw [hfound] at hadmitted
          cases hadmitted
      · simpa only [Function.update_of_ne hother] using hadmitted
    · exact hadmitted
  | proceed request draw =>
    by_cases hother : other = request
    · subst hother
      simp only [AuthSystem.step, Function.update_self] at hadmitted
      obtain ⟨row, hrow, hid⟩ :=
        (advanced bcrypt system.stores draw (system.phase other)).exists_of_admitted hadmitted
      exact absurd (hid.trans huser) (hgone.2 row hrow)
    · simpa only [AuthSystem.step, Function.update_of_ne hother] using hadmitted

theorem gone_of_deleting {request : ι} (hdeleting : system.phase request = .deleting userId)
    (horder : system.Orderly bcrypt) (draw : Draw) :
    (system.step bcrypt (.proceed request draw)).Gone userId := by
  have hrequest := horder.requests request
  rw [hdeleting] at hrequest
  refine ⟨List.mem_cons_of_mem _ hrequest, ?_⟩
  intro row hrow
  simp only [AuthSystem.step, hdeleting, advance, UserTable.delete] at hrow
  simpa using List.of_mem_filter hrow

/-- Once an account is deleted, no request gets a session of it any more, not even one that was
opened while the account was being deleted. -/
theorem deleted_user_is_not_admitted {earlier later : Trace (AuthSystem ι) (AuthStep ι)}
    {request : ι} {draw : Draw}
    (hruns : AuthRuns bcrypt (earlier ++ (.proceed request draw, after) :: later))
    (hdeleting : (last .start earlier).phase request = .deleting userId) :
    Follows (fun system _ next => AdmitsNone userId system next) after later := by
  obtain ⟨hearlier, ⟨_, rfl⟩, hlater⟩ := follows_append.mp hruns
  have horder := (invariant_of_follows hearlier orderly_start orderly_step).2
  have hgone := gone_of_deleting hdeleting horder draw
  have hall : ∀ start : AuthSystem ι, Guarded (fun _ _ => True) start later := fun start =>
    guarded_of_forall (fun _ _ => trivial) start later
  apply follows_of_guarded (AuthSystem.Gone userId) hlater (hall _) hgone
  rintro state label next hstate - ⟨hnew, rfl⟩
  exact ⟨hstate.admitsNone hnew, hstate.step hnew⟩

def demoDeleted : AuthSystem Bool :=
  demoDeleting.step demoBcrypt (.proceed false ⟨2, py "e", []⟩)

/-- The login ends in a session of the deleted account, with which a request comes in. -/
def demoLater : List (AuthStep Bool) :=
  [.proceed false ⟨2, py "f", []⟩, .proceed true ⟨2, py "g", []⟩,
    .arrive true (py "g") (.other (py "GET") (py "/api/users")) 2,
    .proceed true ⟨2, py "h", []⟩, .proceed true ⟨2, py "i", []⟩]

theorem demoLater_admits_none :
    Follows (fun system _ next => AdmitsNone (py "u") system next) demoDeleted
      (demoDeleted.trail demoBcrypt demoLater) := by
  have hruns : AuthRuns demoBcrypt (AuthSystem.start.trail demoBcrypt demoLabels ++
      (.proceed false ⟨2, py "e", []⟩, demoDeleted) :: demoDeleted.trail demoBcrypt demoLater) := by
    refine follows_append.mpr ⟨follows_trail ?_, ⟨?_, rfl⟩, follows_trail ?_⟩ <;> decide +kernel
  exact deleted_user_is_not_admitted hruns (by decide +kernel)

end Runs

end System

end RootSeeker.Admin
