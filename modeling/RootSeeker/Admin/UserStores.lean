import RootSeeker.Core.Dict
import RootSeeker.Python.Text

/-!
# The accounts of the administrators

The accounts are kept in a table with two unique columns.  An insertion that
violates a constraint fails.
-/

namespace RootSeeker.Admin

open Python

structure UserRecord where
  id : PyStr
  username : PyStr
  passwordHash : PyStr
  createdAt : ℤ
  updatedAt : ℤ

/-- `_new_user`, with the identifier and the time that it draws. -/
def newUser (id username passwordHash : PyStr) (now : ℤ) : UserRecord where
  id := id
  username := username
  passwordHash := passwordHash
  createdAt := now
  updatedAt := now

def UserRecord.withHash (user : UserRecord) (passwordHash : PyStr) (now : ℤ) : UserRecord :=
  { user with passwordHash := passwordHash, updatedAt := now }

inductive UserError where
  | userAlreadyExists
  | usersAlreadyExist

/-- The rows in the order of insertion: `id` is the primary key, `username` is unique. -/
structure UserTable where
  rows : List UserRecord
  ids : (rows.map UserRecord.id).Nodup
  usernames : (rows.map UserRecord.username).Nodup

namespace UserTable

def empty : UserTable where
  rows := []
  ids := List.nodup_nil
  usernames := List.nodup_nil

/-- A row violates a constraint. -/
def Conflicts (table : UserTable) (user : UserRecord) : Prop :=
  ∃ row ∈ table.rows, row.id = user.id ∨ row.username = user.username

instance (table : UserTable) (user : UserRecord) : Decidable (table.Conflicts user) :=
  inferInstanceAs (Decidable (∃ row ∈ table.rows, _))

def insert (table : UserTable) (user : UserRecord) (hnew : ¬table.Conflicts user) :
    UserTable where
  rows := table.rows ++ [user]
  ids := by
    rw [List.map_append, List.map_singleton, List.nodup_append]
    refine ⟨table.ids, List.nodup_singleton _, ?_⟩
    simp only [List.mem_map, List.mem_singleton, forall_eq, forall_exists_index, and_imp,
      forall_apply_eq_imp_iff₂]
    exact fun row hrow hid => hnew ⟨row, hrow, .inl hid⟩
  usernames := by
    rw [List.map_append, List.map_singleton, List.nodup_append]
    refine ⟨table.usernames, List.nodup_singleton _, ?_⟩
    simp only [List.mem_map, List.mem_singleton, forall_eq, forall_exists_index, and_imp,
      forall_apply_eq_imp_iff₂]
    exact fun row hrow hname => hnew ⟨row, hrow, .inr hname⟩

def getById (table : UserTable) (userId : PyStr) : Option UserRecord :=
  table.rows.find? fun user => user.id = userId

def getByUsername (table : UserTable) (username : PyStr) : Option UserRecord :=
  table.rows.find? fun user => user.username = username

/-- A violated constraint is an `IntegrityError`. -/
def create (table : UserTable) (user : UserRecord) : Except UserError UserTable :=
  if hnew : table.Conflicts user then .error .userAlreadyExists else .ok (table.insert user hnew)

/-- The insertion selects nothing unless the table is empty. -/
def createFirst (table : UserTable) (user : UserRecord) : Except UserError UserTable :=
  if hempty : table.rows = [] then .ok (table.insert user (by simp [Conflicts, hempty]))
  else .error .usersAlreadyExist

/-- The change of `updatePasswordHash` on one row. -/
def rehash (userId passwordHash : PyStr) (now : ℤ) (row : UserRecord) : UserRecord :=
  if row.id = userId then row.withHash passwordHash now else row

@[simp]
theorem id_rehash (userId passwordHash : PyStr) (now : ℤ) (row : UserRecord) :
    (rehash userId passwordHash now row).id = row.id := by
  rw [rehash]
  split <;> rfl

@[simp]
theorem username_rehash (userId passwordHash : PyStr) (now : ℤ) (row : UserRecord) :
    (rehash userId passwordHash now row).username = row.username := by
  rw [rehash]
  split <;> rfl

def updatePasswordHash (table : UserTable) (userId passwordHash : PyStr) (now : ℤ) :
    UserTable where
  rows := table.rows.map (rehash userId passwordHash now)
  ids := by simpa [Function.comp_def] using table.ids
  usernames := by simpa [Function.comp_def] using table.usernames

theorem rows_create {table created : UserTable} {user : UserRecord}
    (hcreate : table.create user = .ok created) : created.rows = table.rows ++ [user] := by
  rw [create] at hcreate
  split at hcreate
  · cases hcreate
  · cases hcreate
    rfl

theorem rows_createFirst {table created : UserTable} {user : UserRecord}
    (hcreate : table.createFirst user = .ok created) : created.rows = table.rows ++ [user] := by
  rw [createFirst] at hcreate
  split at hcreate
  · cases hcreate
    rfl
  · cases hcreate

theorem mem_of_getById {table : UserTable} {userId : PyStr} {user : UserRecord}
    (hfound : table.getById userId = some user) : user ∈ table.rows :=
  List.mem_of_find?_eq_some hfound

theorem id_of_getById {table : UserTable} {userId : PyStr} {user : UserRecord}
    (hfound : table.getById userId = some user) : user.id = userId := by
  simpa using List.find?_some hfound

def delete (table : UserTable) (userId : PyStr) : UserTable where
  rows := table.rows.filter fun row => row.id ≠ userId
  ids := table.ids.sublist (List.filter_sublist.map _)
  usernames := table.usernames.sublist (List.filter_sublist.map _)

end UserTable

end RootSeeker.Admin
