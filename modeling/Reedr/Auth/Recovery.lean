import Reedr.Auth.Privileges
import Reedr.Auth.ResetCodes
import Reedr.Auth.Sessions
import Reedr.Library.Progress

/-!
# A forgotten password can always be replaced

Whatever auth calls have run, failed or are still in flight, the owner of a
phone number gets back in: the code that is sent sets a new password, the new
password logs in, and the sessions there were of that account, and of no other,
are over.
-/

namespace Reedr
open Relational Interleaving

/-- `@Length(6, 6)` and `@Matches(/^\d{6}$/)`: the codes that the form lets through. -/
def ResetPasswordDto.codeAccepted (code : String) : Prop :=
  code.length = 6 ∧ ∀ c ∈ code.toList, c.isDigit = true

/-- A number of six digits is written with six digits. -/
theorem codeAccepted_toString {k : Nat} (hmin : 100000 ≤ k) (hmax : k < 1000000) :
    ResetPasswordDto.codeAccepted (toString k) := by
  rw [Nat.toString_eq_ofList_toDigits, ResetPasswordDto.codeAccepted, String.length_ofList,
    String.toList_ofList]
  have hle : (Nat.toDigits 10 k).length ≤ 6 :=
    (Nat.length_toDigits_le_iff (by decide) (by decide)).mpr hmax
  have hlt : ¬ (Nat.toDigits 10 k).length ≤ 5 := by
    rw [Nat.length_toDigits_le_iff (by decide) (by decide)]
    exact Nat.not_lt.mpr hmin
  exact ⟨by omega, fun c hc => Nat.isDigit_of_mem_toDigits (by decide) (by decide) hc⟩

/-- The text of the message with the code. -/
def AuthConfig.resetMessage (cfg : AuthConfig) (code : String) : String :=
  "Your Reedr password reset code is " ++ code ++ ". It expires in " ++
    cfg.passwordResetCodeExpiresIn ++ "."

section Lookups
variable {db : AuthTables} {a : Account} (ha : a ∈ db.users)
include ha

theorem AuthTables.findUserByPhone_of_mem : db.findUserByPhone a.phone = some a :=
  Table.find?_of_unique ha (decide_eq_true rfl) fun _ hx hphone =>
    Account.eq_of_phone hx ha (of_decide_eq_true hphone)

end Lookups

/-- An outstanding code is found until it expires. -/
theorem AuthBackend.Outstanding.found {s : AuthBackend} {userId : Id} {codeHash : String}
    {e now : Millis} (h : s.Outstanding userId codeHash e) (hnow : now < e) :
    ∃ r, s.tables.findResetToken userId codeHash now = some r := by
  obtain ⟨r, hr, huser, hhash, rfl, hunused⟩ := h
  cases hf : s.tables.findResetToken userId codeHash now with
  | some r => exact ⟨r, rfl⟩
  | none => exact absurd ⟨huser, hhash, hunused, hnow⟩ (AuthTables.findResetToken_none hf r hr)

/-- A reset ends the sessions of its user and no other. -/
theorem AuthBackend.valid_reset {cfg : AuthConfig} {s s' : AuthBackend} {id userId : Id}
    {password : String} {now : Millis}
    (h : exec cfg (.resetBatch id userId password now) s = .ok ((), s')) (x : String) (v : Id)
    (e : Millis) : s'.Valid cfg x v e ↔ s.Valid cfg x v e ∧ v ≠ userId := by
  have hclock := exec_clock h rfl
  obtain ⟨now, hrewrites⟩ := exec_onRefreshToken h rfl
  rw [valid_revoked hclock hrewrites]
  simp only [AuthStmt.revokes, decide_eq_false_iff_not]
  constructor
  · rintro ⟨htime, r, hr, hhash, rfl, hexpires, hopen, hkept⟩
    exact ⟨⟨htime, r, hr, hhash, rfl, hexpires, hopen⟩, fun huser => hkept ⟨huser, hopen⟩⟩
  · rintro ⟨⟨htime, r, hr, hhash, rfl, hexpires, hopen⟩, hne⟩
    exact ⟨htime, r, hr, hhash, rfl, hexpires, hopen, fun hrevoked => hne hrevoked.1⟩

section Legs
variable (cfg : AuthConfig) (a : Account) (s s' : AuthBackend)

/-- A code that the form lets through has been sent to the number of the account,
and nothing else has changed. -/
structure CodeSent (code : String) : Prop where
  accepted : ResetPasswordDto.codeAccepted code
  outstanding : s'.Outstanding a.id (cfg.hashToken code)
    (s.clock + cfg.ms cfg.passwordResetCodeExpiresIn)
  sms : s'.sms = s.sms ++ [⟨a.phone, cfg.resetMessage code⟩]
  users : s'.tables.users = s.tables.users
  refreshTokens : s'.tables.refreshTokens = s.tables.refreshTokens
  clock : s'.clock = s.clock
  responses : s'.responses = s.responses

/-- The account has the new password, and its sessions are over. -/
structure PasswordReplaced (newPassword : String) : Prop where
  user : ∃ k, { a with password := cfg.bcryptHash newPassword bcryptRounds k } ∈ s'.tables.users
  sessions : ∀ x userId e, s'.Valid cfg x userId e ↔ s.Valid cfg x userId e ∧ userId ≠ a.id
  clock : s'.clock = s.clock
  responses : s'.responses = s.responses

/-- The account has been answered a pair of tokens: both are its own and the
refresh token is valid beside those there were. -/
structure LoggedIn (pair : TokenPairResponseDto) : Prop where
  responses : s'.responses = s.responses ++ [pair]
  access : pair.accessToken = cfg.signJwt ⟨a.id, a.role⟩ cfg.jwtAccessExpiresIn s.clock
  sessions : ∀ x userId e, s'.Valid cfg x userId e ↔ s.Valid cfg x userId e ∨
    (x = pair.refreshToken ∧ userId = a.id ∧ e = s.clock + cfg.ms cfg.jwtRefreshExpiresIn)

end Legs

section Calls
variable {cfg : AuthConfig} {n : Nat} {i : AuthInvocation} {w : AuthWorld} {a : Account}

theorem forgotPassword_returns
    (hrandom : ∀ k, 100000 ≤ cfg.randomInt 100000 1000000 k ∧
      cfg.randomInt 100000 1000000 k < 1000000)
    (hcodes : w.shared.CodesKept cfg)
    (ha : a ∈ w.shared.tables.users) :
    (AuthService.forgotPassword cfg ⟨a.phone⟩).Returns (authSystem cfg) n i
      (fun _ w' => ∃ code, CodeSent cfg a w.shared w'.shared code) w := by
  refine .perform_bind rfl ?_
  rw [AuthTables.findUserByPhone_of_mem ha]
  refine .perform_bind rfl (.perform_bind rfl ?_)
  let code := cfg.resetCode w.shared.drawn
  let e := w.shared.clock + cfg.ms cfg.passwordResetCodeExpiresIn
  have hdrawn : w.shared.draw.CodesKept cfg :=
    hcodes.exec (o := .randomInt 100000 1000000) (b := cfg.randomInt 100000 1000000 _) rfl
  obtain ⟨row, s', hx⟩ :=
    AuthBackend.exec_replaceResetToken_ok hdrawn a.id (cfg.hashToken code) e w.shared.clock
  refine .perform_bind hx (.perform (σ := authSignature)
    (o := .sendSms a.phone (cfg.resetMessage code)) rfl ?_)
  refine ⟨code, ?_⟩
  have hcode : s'.Outstanding a.id (cfg.hashToken code) e :=
    (AuthBackend.outstanding_replaced hx a.id (cfg.hashToken code) e).mpr
      (Or.inr ⟨rfl, rfl, rfl⟩)
  obtain ⟨-, used, codes, -, -, rfl⟩ := AuthBackend.exec_replaceResetToken hx
  exact ⟨codeAccepted_toString (hrandom _).1 (hrandom _).2, hcode, rfl, rfl, rfl, rfl, rfl⟩

theorem resetPassword_returns (ha : a ∈ w.shared.tables.users) {code : String} {e : Millis}
    (hcode : w.shared.Outstanding a.id (cfg.hashToken code) e) (he : w.shared.clock < e)
    (newPassword : String) :
    (AuthService.resetPassword cfg ⟨a.phone, code, newPassword⟩).Returns (authSystem cfg) n i
      (fun _ w' => PasswordReplaced cfg a w.shared w'.shared newPassword) w := by
  obtain ⟨stored, hfound⟩ := hcode.found he
  refine .perform_bind rfl (.required_bind (AuthTables.findUserByPhone_of_mem ha) ?_)
  refine .perform_bind rfl (.perform_bind rfl (.required_bind hfound ?_))
  refine .perform_bind rfl (.perform_bind rfl ?_)
  let hash := cfg.bcryptHash newPassword bcryptRounds w.shared.drawn
  obtain ⟨s', hx⟩ := AuthBackend.exec_resetBatch_ok cfg (s := w.shared.draw)
    (AuthTables.findResetToken_some hfound).1 ha hash w.shared.clock
  have hsessions := AuthBackend.valid_reset hx
  refine .perform (σ := authSignature) (o := .resetBatch stored.id a.id hash w.shared.clock) hx ?_
  obtain ⟨-, husers, -, -, hrest⟩ := AuthBackend.exec_resetBatch hx
  have hclock : s'.clock = w.shared.clock := by
    rw [hrest]
    rfl
  have hresponses : s'.responses = w.shared.responses := by
    rw [hrest]
    rfl
  have hmem := husers.mem ha
  rw [if_pos rfl] at hmem
  exact ⟨⟨_, hmem⟩, hsessions, hclock, hresponses⟩

theorem login_returns (hminted : w.shared.Minted cfg) (ha : a ∈ w.shared.tables.users)
    {password : String} (hcompare : cfg.bcryptCompare password a.password = true) :
    (AuthController.answer (AuthService.login cfg ⟨a.phone, password⟩)).Returns (authSystem cfg)
      n i (fun _ w' => ∃ pair, LoggedIn cfg a w.shared w'.shared pair) w := by
  simp only [AuthController.answer, AuthService.login, AuthService.issueTokenPair, bind_assoc,
    pure_bind]
  refine .perform_bind rfl (.required_bind (AuthTables.findUserByPhone_of_mem ha) ?_)
  refine .perform_bind rfl (.ensure_bind hcompare (.perform_bind rfl (.perform_bind rfl ?_)))
  let e := w.shared.clock + cfg.ms cfg.jwtRefreshExpiresIn
  obtain ⟨s', hx⟩ := AuthBackend.exec_createRefreshToken_ok hminted a.id e
  let pair : TokenPairResponseDto :=
    ⟨cfg.signJwt ⟨a.id, a.role⟩ cfg.jwtAccessExpiresIn w.shared.clock,
      cfg.randomBytes w.shared.drawn⟩
  refine .perform_bind hx (.perform (σ := authSignature) (o := .respond pair) rfl ?_)
  refine ⟨pair, ?_⟩
  have hclock := AuthBackend.exec_clock hx rfl
  obtain ⟨-, refreshTokens, hc, rfl⟩ := AuthBackend.exec_createRefreshToken hx
  exact ⟨rfl, rfl, AuthBackend.valid_created hclock (Nat.le_add_right _ _) (.of_create hc)⟩

end Calls

section Run
variable (cfg : AuthConfig)

/-- Whatever has run, the next token and the next code can be stored. -/
theorem recovery_discipline (users : Table Account) :
    Discipline (authSystem cfg)
      (fun w => Truth cfg users w ∧ (w.shared.Minted cfg ∧ w.shared.CodesKept cfg)) Remembers
      (Truthful cfg) :=
  (truth_discipline cfg users).also fun _ hK _ hx => ⟨hK.1.exec hx, hK.2.exec hx⟩

/-- The three calls by which the owner of the number gets back in: a code is sent
to it, with this code the password is replaced, and the new password logs in. -/
def Recovers (p : AuthPool) (a : Account) (newPassword : String) : Prop :=
  let requested := p.serve (authSystem cfg) (.forgotPassword ⟨a.phone⟩, [])
  ∃ code, CodeSent cfg a p.world.shared requested.world.shared code ∧
    let replaced :=
      requested.serve (authSystem cfg) (.resetPassword ⟨a.phone, code, newPassword⟩, [])
    PasswordReplaced cfg a requested.world.shared replaced.world.shared newPassword ∧
      let loggedIn := replaced.serve (authSystem cfg) (.login ⟨a.phone, newPassword⟩, [])
      ∃ pair, LoggedIn cfg a replaced.world.shared loggedIn.world.shared pair

/-- A pool that any auth calls may have led to, with any calls in flight. -/
private abbrev Going (users : Table Account) (p : AuthPool) : Prop :=
  p.Sound (authSystem cfg)
    (fun w => Truth cfg users w ∧ (w.shared.Minted cfg ∧ w.shared.CodesKept cfg)) Remembers
    (Truthful cfg)

variable {cfg}

private theorem Going.recovers {users : Table Account} {p : AuthPool} (h : Going cfg users p)
    (hrandom : ∀ min max k, min < max →
      min ≤ cfg.randomInt min max k ∧ cfg.randomInt min max k < max)
    (hbcrypt : ∀ data rounds k, cfg.bcryptCompare data (cfg.bcryptHash data rounds k) = true)
    (hexpires : 0 < cfg.ms cfg.passwordResetCodeExpiresIn) {a : Account}
    (ha : a ∈ p.world.shared.tables.users) (newPassword : String) :
    Recovers cfg p a newPassword := by
  have D := recovery_discipline cfg users
  have hsent := Pool.serve_of_returns (i := AuthInvocation.forgotPassword ⟨a.phone⟩)
    (R := fun w => ∃ code, CodeSent cfg a p.world.shared w.shared code)
    (forgotPassword_returns (fun k => hrandom 100000 1000000 k (by decide)) h.1.2.2 ha)
  have h := D.sound_serve h (.forgotPassword ⟨a.phone⟩, [])
  unfold Recovers
  generalize p.serve (authSystem cfg) (.forgotPassword ⟨a.phone⟩, []) = p₁ at h hsent ⊢
  obtain ⟨code, hsent⟩ := hsent
  refine ⟨code, hsent, ?_⟩
  have hlater : p₁.world.shared.clock <
      p.world.shared.clock + cfg.ms cfg.passwordResetCodeExpiresIn := by
    rw [hsent.clock]
    exact Nat.lt_add_of_pos_right hexpires
  have hreplaced := Pool.serve_of_returns
    (i := AuthInvocation.resetPassword ⟨a.phone, code, newPassword⟩)
    (R := fun w => PasswordReplaced cfg a p₁.world.shared w.shared newPassword)
    (resetPassword_returns (hsent.users ▸ ha) hsent.outstanding hlater newPassword)
  have h := D.sound_serve h (.resetPassword ⟨a.phone, code, newPassword⟩, [])
  generalize p₁.serve (authSystem cfg) (.resetPassword ⟨a.phone, code, newPassword⟩, []) = p₂
    at h hreplaced ⊢
  refine ⟨hreplaced, ?_⟩
  obtain ⟨k, ha⟩ := hreplaced.user
  obtain ⟨pair, hpair⟩ := Pool.serve_of_returns
    (i := AuthInvocation.login ⟨a.phone, newPassword⟩)
    (R := fun w => ∃ pair, LoggedIn cfg { a with password := _ } p₂.world.shared w.shared pair)
    (login_returns h.1.2.1 ha (hbcrypt newPassword bcryptRounds k))
  exact ⟨pair, hpair.responses, hpair.access, hpair.sessions⟩

/-- From every state that any interleaving of auth calls reaches, failed ones
included and others still in flight, every account can be recovered, as long as
draws stay in their range, codes live at all and bcrypt recognises what it has hashed. -/
theorem account_recovered (cfg : AuthConfig) (users : Table Account) (ms : List AuthMove)
    (hrandom : ∀ min max k, min < max →
      min ≤ cfg.randomInt min max k ∧ cfg.randomInt min max k < max)
    (hbcrypt : ∀ data rounds k, cfg.bcryptCompare data (cfg.bcryptHash data rounds k) = true)
    (hexpires : 0 < cfg.ms cfg.passwordResetCodeExpiresIn) {a : Account}
    (ha : a ∈ ((authPool users).run (authSystem cfg) ms).world.shared.tables.users)
    (newPassword : String) :
    Recovers cfg ((authPool users).run (authSystem cfg) ms) a newPassword := by
  have h : Going cfg users ((authPool users).run (authSystem cfg) ms) :=
    (recovery_discipline cfg users).sound_run (Discipline.sound_init _ ⟨truth_init cfg users,
      AuthBackend.minted_signedUp users, AuthBackend.codesKept_signedUp cfg users⟩) ms
  exact h.recovers hrandom hbcrypt hexpires ha newPassword

/-- The user of the one account, who has logged in and forgotten the password since. -/
theorem account_recovered_oneUser :
    Recovers .default ((authPool oneUser).run (authSystem .default) (loginMoves 0))
      { id := "ada", name := "Ada Obi", phone := "+2348012345678", password := "password123" }
      "another password" :=
  account_recovered .default oneUser (loginMoves 0) (fun _ _ _ h => ⟨Nat.le_refl _, h⟩)
    (fun _ _ _ => decide_eq_true rfl) (by decide) (by decide +kernel) "another password"

end Run

end Reedr
