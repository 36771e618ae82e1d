import Reedr.Auth.Schema
import Reedr.Library.Call

/-!
# The shared state of the auth services and their statements

`AuthStmt` lists what the auth services ask of the outside of their own code:
the database, the random source, bcrypt, the JWT signer, the SMS provider, the
clock, and the response that reaches the client.

## Implementation notes

The random source is a stream of values, of which `drawn` have been used. The
refresh token is drawn by the statement that stores its hash, since nobody sees
the token before. Foreign keys are not enforced: no user is ever deleted.
-/

namespace Reedr
open Relational Interleaving

structure JwtPayload where
  sub : Id
  role : Role
  deriving DecidableEq, Repr

structure TokenPairResponseDto where
  accessToken : String
  refreshToken : String
  deriving DecidableEq, Repr

/-- What the auth services take from configuration and from their libraries.
Issued tokens are distinct, and no other text has the hash of one. -/
structure AuthConfig where
  jwtAccessExpiresIn : String := "15m"
  jwtRefreshExpiresIn : String := "30d"
  passwordResetCodeExpiresIn : String := "15m"
  ms : String → Millis
  signJwt : JwtPayload → String → Millis → String
  /-- The data, the number of rounds and the draw of the salt. -/
  bcryptHash : String → Nat → Nat → String
  bcryptCompare : String → String → Bool
  hashToken : String → String
  uuid : Nat → Id
  /-- `randomBytes(48).toString('hex')`. -/
  randomBytes : Nat → String
  /-- The bounds and the draw. -/
  randomInt : Nat → Nat → Nat → Nat
  uuid_injective : Function.Injective uuid
  randomBytes_injective : Function.Injective randomBytes
  hashToken_issued : ∀ x k, hashToken x = hashToken (randomBytes k) → x = randomBytes k

private theorem replicate_injective : Function.Injective
    fun k => String.ofList (List.replicate (k + 1) 'x') := by
  intro j k h
  simpa using congrArg List.length (String.ofList_injective h)

/-- Passwords and tokens in clear, with every duration a quarter of an hour. -/
def AuthConfig.default : AuthConfig where
  ms _ := 900000
  signJwt payload _ _ := payload.sub
  bcryptHash data _ _ := data
  bcryptCompare data encrypted := data = encrypted
  hashToken token := token
  uuid k := String.ofList (List.replicate (k + 1) 'x')
  randomBytes k := String.ofList (List.replicate (k + 1) 'x')
  randomInt min _ _ := min
  uuid_injective := replicate_injective
  randomBytes_injective := replicate_injective
  hashToken_issued _ _ h := h

/-- What an auth service throws. -/
inductive AuthError where
  | conflict (message : String)
  | unauthorized (message : String)
  | constraint (violation : Violation)
  | outage
  deriving DecidableEq, Repr

structure Sms where
  phone : String
  message : String
  deriving DecidableEq, Repr

/-- Database, random source, clock, and what has been sent to whom. -/
structure AuthBackend where
  tables : AuthTables
  drawn : Nat := 0
  clock : Millis := 0
  sms : List Sms := []
  responses : List TokenPairResponseDto := []

/-- Users who have no token yet. -/
def AuthBackend.signedUp (users : Table Account) : AuthBackend where
  tables := ⟨users, .empty, .empty⟩

inductive AuthStmt where
  | findUserByPhone (phone : String)
  | findUser (id : Id)
  | createUser (name phone password : String)
  | findRefreshToken (tokenHash : String)
  | revokeRefreshToken (id : Id) (now : Millis)
  | revokeByTokenHash (tokenHash : String) (now : Millis)
  /-- Draws the token and stores its hash. -/
  | createRefreshToken (userId : Id) (expiresAt : Millis)
  | deleteExpired (now : Millis)
  | replaceResetToken (userId : Id) (codeHash : String) (expiresAt now : Millis)
  | findResetToken (userId : Id) (codeHash : String) (now : Millis)
  | resetBatch (id userId : Id) (password : String) (now : Millis)
  | bcryptHash (data : String) (rounds : Nat)
  | bcryptCompare (data encrypted : String)
  | signAsync (payload : JwtPayload) (expiresIn : String)
  | randomInt (min max : Nat)
  | sendSms (phone message : String)
  | respond (pair : TokenPairResponseDto)
  | now
  | elapse (duration : Millis)

namespace AuthStmt

/-- The result type of each statement. -/
abbrev Res : AuthStmt → Type
  | findUserByPhone _ => Option Account
  | findUser _ => Option Account
  | createUser _ _ _ => Account
  | findRefreshToken _ => Option RefreshToken
  | revokeRefreshToken _ _ => RefreshToken
  | revokeByTokenHash _ _ => Unit
  | createRefreshToken _ _ => String
  | deleteExpired _ => Nat
  | replaceResetToken _ _ _ _ => PasswordResetToken
  | findResetToken _ _ _ => Option PasswordResetToken
  | resetBatch _ _ _ _ => Unit
  | bcryptHash _ _ => String
  | bcryptCompare _ _ => Bool
  | signAsync _ _ => String
  | randomInt _ _ => Nat
  | sendSms _ _ => Unit
  | respond _ => Unit
  | now => Millis
  | elapse _ => Unit

/-- Statements that leave the process, and so may be refused by an outage. -/
def external : AuthStmt → Bool
  | bcryptHash _ _ | bcryptCompare _ _ | signAsync _ _ | randomInt _ _ => false
  | respond _ | now | elapse _ => false
  | _ => true

/-- The refresh tokens a statement revokes. -/
def revokes : AuthStmt → RefreshToken → Bool
  | revokeRefreshToken id _, r => r.id = id
  | revokeByTokenHash tokenHash _, r => r.tokenHash = tokenHash ∧ r.revokedAt = none
  | resetBatch _ userId _ _, r => r.userId = userId ∧ r.revokedAt = none
  | _, _ => false

/-- Statements that store or delete refresh tokens. -/
def movesRefreshTokens : AuthStmt → Bool
  | createRefreshToken _ _ | deleteExpired _ => true
  | _ => false

/-- Statements that reset the password of a user. -/
def resets (userId : Id) : AuthStmt → Bool
  | resetBatch _ id _ _ => id = userId
  | _ => false

def passesTime : AuthStmt → Bool
  | elapse _ => true
  | _ => false

end AuthStmt

abbrev authSignature : Signature := ⟨AuthStmt, AuthStmt.Res⟩

/-- A call of an auth service. -/
abbrev AuthCall (α : Type) := Call authSignature AuthError α

/-- The refresh token row that the next insertion stores. -/
def AuthBackend.nextRefreshToken (cfg : AuthConfig) (s : AuthBackend) (userId : Id)
    (expiresAt : Millis) : RefreshToken where
  id := cfg.uuid s.drawn
  userId := userId
  tokenHash := cfg.hashToken (cfg.randomBytes s.drawn)
  expiresAt := expiresAt

namespace AuthBackend

/-- Lift a statement on the tables; a violation leaves the backend as it was. -/
def onTables {α : Type} (s : AuthBackend) (f : AuthTables → Except Violation (α × AuthTables)) :
    Except AuthError (α × AuthBackend) :=
  match f s.tables with
  | .ok (a, tables) => .ok (a, { s with tables })
  | .error v => .error (.constraint v)

/-- One more value of the random source has been used. -/
def draw (s : AuthBackend) : AuthBackend := { s with drawn := s.drawn + 1 }

variable (cfg : AuthConfig)

/-- What each statement does to the backend and what it returns. -/
def exec : (o : AuthStmt) → AuthBackend → Except AuthError (o.Res × AuthBackend)
  | .findUserByPhone phone, s => .ok (s.tables.findUserByPhone phone, s)
  | .findUser id, s => .ok (s.tables.findUser id, s)
  | .createUser name phone password, s =>
      s.draw.onTables fun db => db.createUser { id := cfg.uuid s.drawn, name, phone, password }
  | .findRefreshToken tokenHash, s => .ok (s.tables.findRefreshToken tokenHash, s)
  | .revokeRefreshToken id now, s => s.onTables fun db => db.revokeRefreshToken id now
  | .revokeByTokenHash tokenHash now, s => s.onTables fun db => db.revokeByTokenHash tokenHash now
  | .createRefreshToken userId expiresAt, s =>
      match s.draw.onTables fun db =>
        db.createRefreshToken (s.nextRefreshToken cfg userId expiresAt) with
      | .ok (_, s') => .ok (cfg.randomBytes s.drawn, s')
      | .error e => .error e
  | .deleteExpired now, s =>
      .ok ((s.tables.deleteExpired now).1, { s with tables := (s.tables.deleteExpired now).2 })
  | .replaceResetToken userId codeHash expiresAt now, s =>
      s.draw.onTables fun db =>
        db.replaceResetToken { id := cfg.uuid s.drawn, userId, codeHash, expiresAt } now
  | .findResetToken userId codeHash now, s => .ok (s.tables.findResetToken userId codeHash now, s)
  | .resetBatch id userId password now, s =>
      s.onTables fun db => db.resetBatch id userId password now
  | .bcryptHash data rounds, s => .ok (cfg.bcryptHash data rounds s.drawn, s.draw)
  | .bcryptCompare data encrypted, s => .ok (cfg.bcryptCompare data encrypted, s)
  | .signAsync payload expiresIn, s => .ok (cfg.signJwt payload expiresIn s.clock, s)
  | .randomInt min max, s => .ok (cfg.randomInt min max s.drawn, s.draw)
  | .sendSms phone message, s => .ok ((), { s with sms := s.sms ++ [⟨phone, message⟩] })
  | .respond pair, s => .ok ((), { s with responses := s.responses ++ [pair] })
  | .now, s => .ok (s.clock, s)
  | .elapse duration, s => .ok ((), { s with clock := s.clock + duration })

end AuthBackend

end Reedr
