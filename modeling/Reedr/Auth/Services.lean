import Reedr.Auth.Effects
import Reedr.Library.Pool

/-!
# The auth services as calls

`AuthService` and `TokenCleanupService`, cut at their statements, with the
lookups of `UsersService`. The controller answers a request with the token pair
its service call returns.

## Implementation notes

Request bodies have passed the validation of their DTOs; nothing below depends
on it. Time passes by an invocation of its own, so it may pass between any two
statements of a call, or only between whole calls.
-/

namespace Reedr
open Relational Interleaving

/-- Execute one statement of the auth services. -/
abbrev await (o : AuthStmt) : AuthCall o.Res :=
  Call.perform (σ := authSignature) o

structure RegisterDto where
  name : String
  phone : String
  password : String
  deriving DecidableEq, Repr

structure LoginDto where
  phone : String
  password : String
  deriving DecidableEq, Repr

structure ForgotPasswordDto where
  phone : String
  deriving DecidableEq, Repr

structure ResetPasswordDto where
  phone : String
  code : String
  newPassword : String
  deriving DecidableEq, Repr

def bcryptRounds : Nat := 12

namespace AuthService
variable (cfg : AuthConfig)

def issueTokenPair (userId : Id) (role : Role) : AuthCall TokenPairResponseDto := do
  let accessToken ← await (.signAsync { sub := userId, role } cfg.jwtAccessExpiresIn)
  let now ← await .now
  let refreshToken ← await
    (.createRefreshToken userId (now + cfg.ms cfg.jwtRefreshExpiresIn))
  return { accessToken, refreshToken }

def register (dto : RegisterDto) : AuthCall TokenPairResponseDto := do
  let existing ← await (.findUserByPhone dto.phone)
  Call.ensure (existing = none) (.conflict "Phone number already registered")
  let passwordHash ← await (.bcryptHash dto.password bcryptRounds)
  let user ← await (.createUser dto.name dto.phone passwordHash)
  issueTokenPair cfg user.id user.role

def login (dto : LoginDto) : AuthCall TokenPairResponseDto := do
  let user ← Call.required (← await (.findUserByPhone dto.phone))
    (.unauthorized "Invalid credentials")
  let valid ← await (.bcryptCompare dto.password user.password)
  Call.ensure (valid = true) (.unauthorized "Invalid credentials")
  issueTokenPair cfg user.id user.role

def refresh (refreshToken : String) : AuthCall TokenPairResponseDto := do
  let stored ← Call.required
    (← await (.findRefreshToken (cfg.hashToken refreshToken)))
    (.unauthorized "Invalid or expired refresh token")
  Call.ensure (stored.revokedAt = none) (.unauthorized "Invalid or expired refresh token")
  let now ← await .now
  Call.ensure (¬ stored.expiresAt < now) (.unauthorized "Invalid or expired refresh token")
  -- Rotate: the used token is revoked, whatever has become of it since the read.
  let now ← await .now
  let _ ← await (.revokeRefreshToken stored.id now)
  let user ← Call.required (← await (.findUser stored.userId))
    (.unauthorized "Unauthorized")
  issueTokenPair cfg user.id user.role

def forgotPassword (dto : ForgotPasswordDto) : AuthCall Unit := do
  match ← await (.findUserByPhone dto.phone) with
  -- Whether the number is registered is not revealed.
  | none => return
  | some user =>
      let code := toString (← await (.randomInt 100000 1000000))
      let expiresIn := cfg.passwordResetCodeExpiresIn
      let now ← await .now
      let _ ← await
        (.replaceResetToken user.id (cfg.hashToken code) (now + cfg.ms expiresIn) now)
      await (.sendSms user.phone ("Your Reedr password reset code is " ++ code ++
        ". It expires in " ++ expiresIn ++ "."))

def resetPassword (dto : ResetPasswordDto) : AuthCall Unit := do
  let user ← Call.required (← await (.findUserByPhone dto.phone))
    (.unauthorized "Invalid or expired reset code")
  let now ← await .now
  let stored ← Call.required
    (← await (.findResetToken user.id (cfg.hashToken dto.code) now))
    (.unauthorized "Invalid or expired reset code")
  let passwordHash ← await (.bcryptHash dto.newPassword bcryptRounds)
  let now ← await .now
  await (.resetBatch stored.id user.id passwordHash now)

def logout (refreshToken : String) : AuthCall Unit := do
  let now ← await .now
  await (.revokeByTokenHash (cfg.hashToken refreshToken) now)

end AuthService

namespace TokenCleanupService

/-- The nightly sweep; it only logs how many rows it removed. -/
def removeExpiredRefreshTokens : AuthCall Unit := do
  let now ← await .now
  let _ ← await (.deleteExpired now)

end TokenCleanupService

/-- Everything that can be asked of the services, and the passing of time. -/
inductive AuthInvocation where
  | register (dto : RegisterDto)
  | login (dto : LoginDto)
  | refresh (refreshToken : String)
  | forgotPassword (dto : ForgotPasswordDto)
  | resetPassword (dto : ResetPasswordDto)
  | logout (refreshToken : String)
  | removeExpiredRefreshTokens
  | elapse (duration : Millis)
  deriving DecidableEq, Repr

namespace AuthController

/-- Answer with the pair that a service call returns. -/
def answer (c : AuthCall TokenPairResponseDto) : AuthCall Unit := do
  await (.respond (← c))

end AuthController

/-- The call behind each invocation. -/
def AuthInvocation.code (cfg : AuthConfig) : AuthInvocation → AuthCall Unit
  | .register dto => AuthController.answer (AuthService.register cfg dto)
  | .login dto => AuthController.answer (AuthService.login cfg dto)
  | .refresh refreshToken => AuthController.answer (AuthService.refresh cfg refreshToken)
  | .forgotPassword dto => AuthService.forgotPassword cfg dto
  | .resetPassword dto => AuthService.resetPassword cfg dto
  | .logout refreshToken => AuthService.logout cfg refreshToken
  | .removeExpiredRefreshTokens => TokenCleanupService.removeExpiredRefreshTokens
  | .elapse duration => await (.elapse duration)

/-- The auth services over a database and an SMS provider that may be out of reach. -/
def authSystem (cfg : AuthConfig) : System authSignature AuthError AuthBackend AuthInvocation where
  code := AuthInvocation.code cfg
  exec := AuthBackend.exec cfg
  external := AuthStmt.external
  outage := .outage

/-- The same services over a database that stays in reach; the SMS provider need not. -/
def reliableDatabase (cfg : AuthConfig) :
    System authSignature AuthError AuthBackend AuthInvocation :=
  { authSystem cfg with
    external := fun
      | .sendSms _ _ => true
      | _ => false }

abbrev AuthWorld := World authSignature AuthBackend AuthInvocation
abbrev AuthPool := Pool authSignature AuthError AuthBackend AuthInvocation
abbrev AuthMove := Move AuthInvocation
abbrev AuthCommit := Commit authSignature AuthBackend AuthInvocation

/-- Users who have signed up, no token yet and no call. -/
def authPool (users : Table Account) : AuthPool := Pool.init (.signedUp users)

section Uses
variable {cfg : AuthConfig} {P : AuthStmt → Prop}

/-- The statements of a call that returns a token pair. -/
structure IssuesWith (P : AuthStmt → Prop) : Prop where
  findUserByPhone : ∀ phone, P (.findUserByPhone phone)
  signAsync : ∀ payload expiresIn, P (.signAsync payload expiresIn)
  now : P .now
  createRefreshToken : ∀ userId expiresAt, P (.createRefreshToken userId expiresAt)
  respond : ∀ pair, P (.respond pair)

theorem issueTokenPair_uses (h : IssuesWith P) (userId : Id) (role : Role) :
    (AuthService.issueTokenPair cfg userId role).Uses P := by
  apply Call.Uses.bind (.perform (h.signAsync _ _))
  intro accessToken
  apply Call.Uses.bind (.perform h.now)
  intro now
  apply Call.Uses.bind (.perform (h.createRefreshToken _ _))
  intro refreshToken
  trivial

theorem answer_uses (h : IssuesWith P) {c : AuthCall TokenPairResponseDto} (hc : c.Uses P) :
    (AuthController.answer c).Uses P :=
  hc.bind fun pair => .perform (h.respond pair)

theorem register_uses (h : IssuesWith P) (hhash : ∀ d n, P (.bcryptHash d n))
    (hcreate : ∀ name phone password, P (.createUser name phone password)) (dto : RegisterDto) :
    (AuthService.register cfg dto).Uses P := by
  apply Call.Uses.bind (.perform (h.findUserByPhone _))
  intro existing
  apply Call.Uses.bind (.ensure _ _)
  intro _
  apply Call.Uses.bind (.perform (hhash _ _))
  intro passwordHash
  apply Call.Uses.bind (.perform (hcreate _ _ _))
  intro user
  exact issueTokenPair_uses h _ _

theorem login_uses (h : IssuesWith P) (hcompare : ∀ d e, P (.bcryptCompare d e)) (dto : LoginDto) :
    (AuthService.login cfg dto).Uses P := by
  apply Call.Uses.bind (.perform (h.findUserByPhone _))
  intro found
  apply Call.Uses.bind (.required found _)
  intro user
  apply Call.Uses.bind (.perform (hcompare _ _))
  intro valid
  apply Call.Uses.bind (.ensure _ _)
  intro _
  exact issueTokenPair_uses h _ _

theorem refresh_uses (h : IssuesWith P) (hfind : ∀ x, P (.findRefreshToken x))
    (hrevoke : ∀ id t, P (.revokeRefreshToken id t)) (huser : ∀ id, P (.findUser id)) (x : String) :
    (AuthService.refresh cfg x).Uses P := by
  apply Call.Uses.bind (.perform (hfind _))
  intro found
  apply Call.Uses.bind (.required found _)
  intro stored
  apply Call.Uses.bind (.ensure _ _)
  intro _
  apply Call.Uses.bind (.perform h.now)
  intro now
  apply Call.Uses.bind (.ensure _ _)
  intro _
  apply Call.Uses.bind (.perform h.now)
  intro now
  apply Call.Uses.bind (.perform (hrevoke _ _))
  intro _
  apply Call.Uses.bind (.perform (huser _))
  intro found
  apply Call.Uses.bind (.required found _)
  intro user
  exact issueTokenPair_uses h _ _

theorem logout_uses (hnow : P .now) (hrevoke : ∀ h t, P (.revokeByTokenHash h t)) (x : String) :
    (AuthService.logout cfg x).Uses P := by
  apply Call.Uses.bind (.perform hnow)
  intro now
  exact .perform (hrevoke _ _)

theorem forgotPassword_uses (dto : ForgotPasswordDto)
    (hfind : P (.findUserByPhone dto.phone)) (hcode : ∀ min max, P (.randomInt min max))
    (hnow : P .now) (hreplace : ∀ u h e t, P (.replaceResetToken u h e t))
    (hsend : ∀ phone message, P (.sendSms phone message)) :
    (AuthService.forgotPassword cfg dto).Uses P := by
  apply Call.Uses.bind (.perform hfind)
  intro found
  cases found with
  | none => trivial
  | some user =>
      apply Call.Uses.bind (.perform (hcode _ _))
      intro code
      apply Call.Uses.bind (.perform hnow)
      intro now
      apply Call.Uses.bind (.perform (hreplace _ _ _ _))
      intro _
      exact .perform (hsend _ _)

theorem resetPassword_uses (dto : ResetPasswordDto)
    (hfind : P (.findUserByPhone dto.phone)) (hnow : P .now)
    (hcode : ∀ u h t, P (.findResetToken u h t)) (hhash : ∀ d n, P (.bcryptHash d n))
    (hreset : ∀ id u h t, P (.resetBatch id u h t)) :
    (AuthService.resetPassword cfg dto).Uses P := by
  apply Call.Uses.bind (.perform hfind)
  intro found
  apply Call.Uses.bind (.required found _)
  intro user
  apply Call.Uses.bind (.perform hnow)
  intro now
  apply Call.Uses.bind (.perform (hcode _ _ _))
  intro code
  apply Call.Uses.bind (.required code _)
  intro stored
  apply Call.Uses.bind (.perform (hhash _ _))
  intro passwordHash
  apply Call.Uses.bind (.perform hnow)
  intro now
  exact .perform (hreset _ _ _ _)

end Uses

/-- A single user. -/
def oneUser : Table Account :=
  ⟨[{ id := "ada", name := "Ada Obi", phone := "+2348012345678", password := "password123" }],
    by decide⟩

/-- Their next login, from the first statement to the response. -/
def loginMoves (n : Nat) : List AuthMove :=
  .invoke (.login { phone := "+2348012345678", password := "password123" }) ::
    List.replicate 6 (.advance n)

end Reedr
