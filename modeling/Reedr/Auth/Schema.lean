import Reedr.Schema

/-!
# Accounts, refresh tokens and reset codes

The rows the auth services read and write, and the statements on them: one
Prisma statement or one `$transaction` batch each.
-/

namespace Reedr
open Relational

inductive Role where
  | user
  | admin
  deriving DecidableEq, Repr

/-- The columns of a user that the auth services read. -/
structure Account where
  id : Id
  name : String
  phone : String
  password : String
  role : Role := .user
  deriving DecidableEq, Repr

/-- Stored under the hash of the token, which only the client knows. -/
structure RefreshToken where
  id : Id
  userId : Id
  tokenHash : String
  expiresAt : Millis
  revokedAt : Option Millis := none
  deriving DecidableEq, Repr

structure PasswordResetToken where
  id : Id
  userId : Id
  codeHash : String
  expiresAt : Millis
  usedAt : Option Millis := none
  deriving DecidableEq, Repr

inductive AccountKey where
  | id (id : Id)
  | phone (phone : String)
  deriving DecidableEq

instance : Keyed Account where
  Key := AccountKey
  decEq := inferInstance
  keys a := [.id a.id, .phone a.phone]

inductive RefreshTokenKey where
  | id (id : Id)
  | tokenHash (tokenHash : String)
  deriving DecidableEq

instance : Keyed RefreshToken where
  Key := RefreshTokenKey
  decEq := inferInstance
  keys r := [.id r.id, .tokenHash r.tokenHash]

instance : Keyed PasswordResetToken where
  Key := Id
  decEq := inferInstance
  keys r := [r.id]

section Unique

theorem Account.eq_of_id {t : Table Account} {a b : Account} (ha : a ∈ t) (hb : b ∈ t)
    (h : a.id = b.id) : a = b :=
  Table.eq_of_key (AccountKey.id a.id) ha hb (by simp [Keyed.keys]) (by simp [Keyed.keys, h])

theorem Account.eq_of_phone {t : Table Account} {a b : Account} (ha : a ∈ t) (hb : b ∈ t)
    (h : a.phone = b.phone) : a = b :=
  Table.eq_of_key (AccountKey.phone a.phone) ha hb (by simp [Keyed.keys])
    (by simp [Keyed.keys, h])

theorem RefreshToken.eq_of_id {t : Table RefreshToken} {r q : RefreshToken} (hr : r ∈ t)
    (hq : q ∈ t) (h : r.id = q.id) : r = q :=
  Table.eq_of_key (RefreshTokenKey.id r.id) hr hq (by simp [Keyed.keys])
    (by simp [Keyed.keys, h])

theorem RefreshToken.eq_of_tokenHash {t : Table RefreshToken} {r q : RefreshToken} (hr : r ∈ t)
    (hq : q ∈ t) (h : r.tokenHash = q.tokenHash) : r = q :=
  Table.eq_of_key (RefreshTokenKey.tokenHash r.tokenHash) hr hq (by simp [Keyed.keys])
    (by simp [Keyed.keys, h])

theorem PasswordResetToken.eq_of_id {t : Table PasswordResetToken} {r q : PasswordResetToken}
    (hr : r ∈ t) (hq : q ∈ t) (h : r.id = q.id) : r = q :=
  Table.eq_of_key r.id hr hq (by simp [Keyed.keys]) (by simp [Keyed.keys, h])

end Unique

/-- The tables the auth services work on. -/
structure AuthTables where
  users : Table Account
  refreshTokens : Table RefreshToken
  passwordResetTokens : Table PasswordResetToken

/-- The row after its revocation. -/
def RefreshToken.revoke (now : Millis) (r : RefreshToken) : RefreshToken :=
  { r with revokedAt := some now }

def PasswordResetToken.use (now : Millis) (r : PasswordResetToken) : PasswordResetToken :=
  { r with usedAt := some now }

namespace AuthTables
variable (db : AuthTables)

section Reads

def findUserByPhone (phone : String) : Option Account :=
  db.users.find? fun a => a.phone = phone

def findUser (id : Id) : Option Account :=
  db.users.find? fun a => a.id = id

def findRefreshToken (tokenHash : String) : Option RefreshToken :=
  db.refreshTokens.find? fun r => r.tokenHash = tokenHash

/-- An unused code of the user that expires after `now`. -/
def findResetToken (userId : Id) (codeHash : String) (now : Millis) : Option PasswordResetToken :=
  db.passwordResetTokens.find? fun r =>
    r.userId = userId ∧ r.codeHash = codeHash ∧ r.usedAt = none ∧ now < r.expiresAt

end Reads

section Writes

def createUser (a : Account) : Except Violation (Account × AuthTables) := do
  let users ← db.users.create a
  return (a, { db with users })

def createRefreshToken (r : RefreshToken) : Except Violation (RefreshToken × AuthTables) := do
  let refreshTokens ← db.refreshTokens.create r
  return (r, { db with refreshTokens })

def revokeRefreshToken (id : Id) (now : Millis) : Except Violation (RefreshToken × AuthTables) := do
  let (revoked, refreshTokens) ← db.refreshTokens.update (fun r => r.id = id) (.revoke now)
  return (revoked, { db with refreshTokens })

def revokeByTokenHash (tokenHash : String) (now : Millis) :
    Except Violation (Unit × AuthTables) := do
  let refreshTokens ← db.refreshTokens.updateMany
    (fun r => r.tokenHash = tokenHash ∧ r.revokedAt = none) (.revoke now)
  return ((), { db with refreshTokens })

/-- `deleteMany` with its count. -/
def deleteExpired (now : Millis) : Nat × AuthTables :=
  ((db.refreshTokens.findMany fun r => r.expiresAt < now).length,
    { db with refreshTokens := db.refreshTokens.delete fun r => r.expiresAt < now })

/-- A new code, with every outstanding one of the user used up. -/
def replaceResetToken (r : PasswordResetToken) (now : Millis) :
    Except Violation (PasswordResetToken × AuthTables) := do
  let used ← db.passwordResetTokens.updateMany
    (fun q => q.userId = r.userId ∧ q.usedAt = none) (.use now)
  let passwordResetTokens ← used.create r
  return (r, { db with passwordResetTokens })

/-- The code is used, the password set and every open session revoked. -/
def resetBatch (id userId : Id) (password : String) (now : Millis) :
    Except Violation (Unit × AuthTables) := do
  let (_, passwordResetTokens) ← db.passwordResetTokens.update (fun r => r.id = id) (.use now)
  let (_, users) ← db.users.update (fun a => a.id = userId) fun a => { a with password }
  let refreshTokens ← db.refreshTokens.updateMany
    (fun r => r.userId = userId ∧ r.revokedAt = none) (.revoke now)
  return ((), { users, refreshTokens, passwordResetTokens })

end Writes

end AuthTables

end Reedr
