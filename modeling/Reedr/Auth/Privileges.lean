import Reedr.Auth.Effects
import Reedr.Auth.Memory

/-!
# Whom a token speaks for

An access token carries the id and the role of its account as they were when it
was signed. Nothing writes either again, so what the token says stays true, and
a reviewer's route admits nobody but the admins there were from the start.

## Implementation notes

A call signs and answers statements after it has read whom for. It relies on
accounts keeping their identity and on the history being kept.
-/

namespace Reedr
open Relational Interleaving

/-- The user on whose behalf a request is made. -/
structure AuthenticatedUser where
  userId : Id
  role : Role
  deriving DecidableEq, Repr

/-- The user in the payload of a verified token, which has to name one. -/
def JwtStrategy.validate (payload : JwtPayload) : Except AuthError AuthenticatedUser :=
  if payload.sub = "" then .error (.unauthorized "Unauthorized")
  else .ok ⟨payload.sub, payload.role⟩

def RolesGuard.canActivate (requiredRoles : List Role) (user : Option AuthenticatedUser) : Bool :=
  requiredRoles.isEmpty || user.any fun user => requiredRoles.contains user.role

namespace AdminController

/-- `@Roles(Role.ADMIN)`. -/
def roles : List Role := [.admin]

/-- The guards in front of every route of the controller, on a verified token. -/
def admits (payload : JwtPayload) : Bool :=
  match JwtStrategy.validate payload with
  | .ok user => RolesGuard.canActivate roles (some user)
  | .error _ => false

end AdminController

/-- What no statement changes about an account. -/
def Account.identity (a : Account) : Id × String × String × Role :=
  (a.id, a.name, a.phone, a.role)

theorem Account.identity_eq {a b : Account} : a.identity = b.identity ↔
    a.id = b.id ∧ a.name = b.name ∧ a.phone = b.phone ∧ a.role = b.role := by
  simp only [identity, Prod.mk.injEq]

/-- There is an account that `payload` describes. -/
def AuthTables.Describes (db : AuthTables) (payload : JwtPayload) : Prop :=
  ∃ a ∈ db.users, a.id = payload.sub ∧ a.role = payload.role

section Issued
variable (cfg : AuthConfig)

/-- Within `l`, the call of invocation `i` made both tokens of the pair for the account. -/
structure IssuedFor (l : List AuthCommit) (i : AuthInvocation) (a : Account)
    (pair : TokenPairResponseDto) : Prop where
  access : ∃ c ∈ l, c.inv = i ∧ ∃ expiresIn, c.op = .signAsync ⟨a.id, a.role⟩ expiresIn ∧
    pair.accessToken = cfg.signJwt ⟨a.id, a.role⟩ expiresIn c.before.clock
  refresh : ∃ c ∈ l, c.inv = i ∧ ∃ expiresAt, c.op = .createRefreshToken a.id expiresAt ∧
    pair.refreshToken = cfg.randomBytes c.before.drawn

/-- The account is the one the caller has named: by its phone number and a password that
was compared with its own, by an open refresh token stored for it, or by registering it;
one that has just registered has no privilege. -/
structure AuthInvocation.Names (l : List AuthCommit) (i : AuthInvocation) (a : Account) :
    Prop where
  vouched : ∃ c ∈ l, c.inv = i ∧ Vouches cfg i a.id (c.op, c.before)
  login : ∀ dto, i = .login dto → a.phone = dto.phone
  register : ∀ dto, i = .register dto → a.phone = dto.phone ∧ a.role = .user

/-- With what a call signs and answers. -/
def Truthful (w : AuthWorld) (i : AuthInvocation) : AuthStmt → Prop
  | .signAsync payload _ => w.shared.tables.Describes payload
  | .respond pair =>
      ∃ a ∈ w.shared.tables.users, i.Names cfg w.trace a ∧ IssuedFor cfg w.trace i a pair
  | _ => True

/-- The accounts of a run: those it has begun with, unchanged, and users. -/
structure Accounts (users : Table Account) (db : AuthTables) : Prop where
  kept : users.Persists Account.identity db.users
  unprivileged : ∀ a ∈ db.users, a.role = .user ∨ ∃ a₀ ∈ users, a₀.identity = a.identity

/-- Accounts and history are kept. -/
structure Remembers (w w' : AuthWorld) : Prop where
  users : w.shared.tables.users.Persists Account.identity w'.shared.tables.users
  trace : w.trace ⊆ w'.trace

end Issued

section Commit
variable {cfg : AuthConfig} {w w' : AuthWorld} {n : Nat} {i : AuthInvocation} {o : AuthStmt}
  {b : o.Res} {s : AuthBackend}

theorem Remembers.refl (w : AuthWorld) : Remembers w w :=
  ⟨fun a ha => ⟨a, ha, rfl⟩, List.Subset.refl _⟩

theorem Remembers.trans {w₁ w₂ w₃ : AuthWorld} (h : Remembers w₁ w₂) (h' : Remembers w₂ w₃) :
    Remembers w₁ w₃ := by
  refine ⟨fun a ha => ?_, List.Subset.trans h.trace h'.trace⟩
  obtain ⟨b, hb, hab⟩ := h.users a ha
  obtain ⟨c, hc, hbc⟩ := h'.users b hb
  exact ⟨c, hc, hbc.trans hab⟩

/-- An account is not changed by a new password. -/
private theorem identity_password (userId : Id) (password : String) (a : Account) :
    Account.identity (if a.id = userId then { a with password } else a) = a.identity := by
  split <;> rfl

/-- No statement changes the identity of an account. -/
theorem users_persist (hx : AuthBackend.exec cfg o w.shared = .ok (b, s)) :
    w.shared.tables.users.Persists Account.identity s.tables.users := by
  cases AuthBackend.exec_users hx with
  | kept _ hsame => exact fun a ha => ⟨a, hsame ▸ ha, rfl⟩
  | created new _ hextends => exact fun a ha => ⟨a, hextends.mem_old ha, rfl⟩
  | reset _ hrewrites => exact fun a ha => ⟨_, hrewrites.mem ha, identity_password _ _ a⟩

theorem remembers_commit (hx : (authSystem cfg).exec o w.shared = .ok (b, s)) :
    Remembers w (w.commit n i o s) :=
  ⟨users_persist hx, List.subset_append_left _ _⟩

/-- An account that a statement adds is that of a user. -/
theorem accounts_commit {users : Table Account} (h : Accounts users w.shared.tables)
    (hx : AuthBackend.exec cfg o w.shared = .ok (b, s)) : Accounts users s.tables := by
  constructor
  · intro a ha
    obtain ⟨a', ha', haa⟩ := h.kept a ha
    obtain ⟨a'', ha'', haa'⟩ := users_persist hx a' ha'
    exact ⟨a'', ha'', haa'.trans haa⟩
  · intro a ha
    cases o with
    | createUser name phone password =>
        obtain ⟨users', hc, hb, rfl⟩ := AuthBackend.exec_createUser hx
        rcases (Table.Extends.of_create hc a).mp ha with hold | rfl
        · exact h.unprivileged a hold
        · exact Or.inl (congrArg Account.role hb)
    | resetBatch id userId password now =>
        obtain ⟨-, hrewrites, -⟩ := AuthBackend.exec_resetBatch hx
        obtain ⟨a₀, ha₀, rfl⟩ := (hrewrites a).mp ha
        have hsame := Account.identity_eq.mp (identity_password userId password a₀)
        rw [identity_password, hsame.2.2.2]
        exact h.unprivileged a₀ ha₀
    | _ =>
        cases AuthBackend.exec_users hx with
        | kept _ hsame => exact h.unprivileged a (hsame ▸ ha)

theorem Describes.persists {db db' : AuthTables} {payload : JwtPayload} (h : db.Describes payload)
    (hp : db.users.Persists Account.identity db'.users) : db'.Describes payload := by
  obtain ⟨a, ha, hid, hrole⟩ := h
  obtain ⟨a', ha', haa⟩ := hp a ha
  have hsame := Account.identity_eq.mp haa
  exact ⟨a', ha', hsame.1.trans hid, hsame.2.2.2.trans hrole⟩

theorem IssuedFor.mono {l l' : List AuthCommit} {a a' : Account} {pair : TokenPairResponseDto}
    (h : IssuedFor cfg l i a pair) (hl : l ⊆ l') (ha : a'.identity = a.identity) :
    IssuedFor cfg l' i a' pair := by
  obtain ⟨hid, -, -, hrole⟩ := Account.identity_eq.mp ha
  constructor
  · obtain ⟨c, hc, h⟩ := h.access
    exact ⟨c, hl hc, by rwa [hid, hrole]⟩
  · obtain ⟨c, hc, h⟩ := h.refresh
    exact ⟨c, hl hc, by rwa [hid]⟩

theorem AuthInvocation.Names.mono {l l' : List AuthCommit} {a a' : Account}
    (h : i.Names cfg l a) (hl : l ⊆ l') (ha : a'.identity = a.identity) : i.Names cfg l' a' := by
  obtain ⟨hid, -, hphone, hrole⟩ := Account.identity_eq.mp ha
  constructor
  · obtain ⟨c, hc, hinv, hvouches⟩ := h.vouched
    exact ⟨c, hl hc, hinv, hid.symm ▸ hvouches⟩
  · exact fun dto hi => hphone.trans (h.login dto hi)
  · exact fun dto hi => ⟨hphone.trans (h.register dto hi).1, hrole.trans (h.register dto hi).2⟩

/-- What a call may sign and answer, it may still when others have gone on. -/
theorem Truthful.mono (h : Truthful cfg w i o) (hw : Remembers w w') : Truthful cfg w' i o := by
  cases o with
  | signAsync payload expiresIn => exact Describes.persists h hw.users
  | respond pair =>
      obtain ⟨a, ha, hnames, hissued⟩ := h
      obtain ⟨a', ha', haa⟩ := hw.users a ha
      exact ⟨a', ha', hnames.mono hw.trace haa, hissued.mono hw.trace haa⟩
  | _ => trivial

end Commit

section Calls
variable {cfg : AuthConfig} {I : AuthWorld → Prop} {i : AuthInvocation} {w : AuthWorld}

private abbrev Vouched (cfg : AuthConfig) (I : AuthWorld → Prop) (i : AuthInvocation)
    (c : AuthCall Unit) (w : AuthWorld) : Prop :=
  Justified (authSystem cfg) I Remembers (Truthful cfg) i c w

/-- The pair for an account the call has found is answered for that account. -/
private theorem issueTokenPair_truthful {a : Account} (ha : a ∈ w.shared.tables.users)
    (hnames : i.Names cfg w.trace a) :
    Vouched cfg I i (AuthController.answer (AuthService.issueTokenPair cfg a.id a.role)) w := by
  simp only [AuthController.answer, AuthService.issueTokenPair, bind_assoc, pure_bind]
  refine .perform_bind fun w₁ _ h₁ => ?_
  obtain ⟨a₁, ha₁, haa₁⟩ := h₁.users a ha
  have hsame := Account.identity_eq.mp haa₁
  refine ⟨⟨a₁, ha₁, hsame.1, hsame.2.2.2⟩, fun accessToken s₁ hx₁ n₁ => ?_⟩
  cases hx₁
  refine .perform_bind fun w₂ _ h₂ => ⟨trivial, fun now s₂ hx₂ n₂ => ?_⟩
  refine .perform_bind fun w₃ _ h₃ => ⟨trivial, fun refreshToken s₃ hx₃ n₃ => ?_⟩
  have hr := (AuthBackend.exec_createRefreshToken hx₃).1
  refine fun w₄ _ h₄ => ⟨?_, fun _ _ _ _ => trivial, fun _ => trivial⟩
  have hback := ((h₂.trans (remembers_commit hx₂)).trans h₃).trans
    ((remembers_commit hx₃).trans h₄)
  have htrace := hback.trace
  have hbefore := List.Subset.trans
    (List.Subset.trans h₁.trace (List.subset_append_left _ _)) htrace
  obtain ⟨a₄, ha₄, haa₄⟩ := hback.users a₁ ha₁
  have haa := haa₄.trans haa₁
  refine ⟨a₄, ha₄, hnames.mono hbefore haa, IssuedFor.mono (a := a) ?_ (List.Subset.refl _) haa⟩
  refine ⟨⟨_, htrace (List.mem_append_right _ (List.mem_singleton_self _)), rfl, _, rfl, rfl⟩,
    ⟨_, h₄.trace (List.mem_append_right _ (List.mem_singleton_self _)), rfl, _, rfl, hr⟩⟩

private theorem register_truthful (dto : RegisterDto) :
    Vouched cfg I (.register dto) (AuthController.answer (AuthService.register cfg dto)) w := by
  simp only [AuthController.answer, AuthService.register, bind_assoc]
  refine .perform_bind fun w₁ _ _ => ⟨trivial, fun existing s₁ _ n₁ => ?_⟩
  refine .ensure_bind fun _ => ?_
  refine .perform_bind fun w₂ _ _ => ⟨trivial, fun hash s₂ _ n₂ => ?_⟩
  refine .perform_bind fun w₃ _ _ => ⟨trivial, fun user s₃ hx₃ n₃ => ?_⟩
  obtain ⟨users, hc, hb, rfl⟩ := AuthBackend.exec_createUser hx₃
  refine issueTokenPair_truthful (Table.Extends.of_create hc).mem_new ⟨?_, nofun, ?_⟩
  · exact ⟨_, List.mem_append_right _ (List.mem_singleton_self _), rfl, .register hx₃⟩
  · rintro dto' ⟨⟩
    rw [hb]
    exact ⟨rfl, rfl⟩

private theorem login_truthful (dto : LoginDto) :
    Vouched cfg I (.login dto) (AuthController.answer (AuthService.login cfg dto)) w := by
  simp only [AuthController.answer, AuthService.login, bind_assoc]
  refine .perform_bind fun w₁ _ _ => ⟨trivial, fun found s₁ hx₁ n₁ => ?_⟩
  cases hx₁
  refine .required_bind fun a hfound => ?_
  obtain ⟨ha, hphone⟩ := AuthTables.findUserByPhone_some hfound
  refine .perform_bind fun w₂ _ h₂ => ⟨trivial, fun valid s₂ hx₂ n₂ => ?_⟩
  cases hx₂
  refine .ensure_bind fun hcompare => ?_
  obtain ⟨a', ha', haa⟩ := h₂.users a ha
  have hsame := Account.identity_eq.mp haa
  rw [← hsame.1, ← hsame.2.2.2]
  refine issueTokenPair_truthful ha' ⟨⟨_, List.mem_append_left _ (h₂.trace
    (List.mem_append_right _ (List.mem_singleton_self _))), rfl, ?_⟩, ?_, nofun⟩
  · rw [hsame.1]
    exact .login hfound hcompare
  · rintro dto' ⟨⟩
    exact hsame.2.2.1.trans hphone

private theorem refresh_truthful (x : String) :
    Vouched cfg I (.refresh x) (AuthController.answer (AuthService.refresh cfg x)) w := by
  simp only [AuthController.answer, AuthService.refresh, bind_assoc]
  refine .perform_bind fun w₁ _ _ => ⟨trivial, fun found s₁ hx₁ n₁ => ?_⟩
  cases hx₁
  refine .required_bind fun stored hstored => .ensure_bind fun hopen => ?_
  refine .perform_bind fun w₂ _ h₂ => ⟨trivial, fun now s₂ hx₂ n₂ => .ensure_bind fun _ => ?_⟩
  refine .perform_bind fun w₃ _ h₃ => ⟨trivial, fun now s₃ hx₃ n₃ => ?_⟩
  refine .perform_bind fun w₄ _ h₄ => ⟨trivial, fun _ s₄ hx₄ n₄ => ?_⟩
  refine .perform_bind fun w₅ _ h₅ => ⟨trivial, fun found s₅ hx₅ n₅ => ?_⟩
  cases hx₅
  refine .required_bind fun a hfound => ?_
  obtain ⟨ha, hid⟩ := AuthTables.findUser_some hfound
  have hback := ((h₂.trans (remembers_commit hx₂)).trans (h₃.trans (remembers_commit hx₃))).trans
    ((h₄.trans (remembers_commit hx₄)).trans h₅)
  refine issueTokenPair_truthful ha ⟨⟨_, List.mem_append_left _ (hback.trace
    (List.mem_append_right _ (List.mem_singleton_self _))), rfl, ?_⟩, nofun, nofun⟩
  rw [hid]
  exact .refresh hstored hopen

/-- Every call signs and answers for accounts it has found. -/
theorem code_truthful (i : AuthInvocation) (w : AuthWorld) :
    Vouched cfg I i (i.code cfg) w := by
  have hsilent {c : AuthCall Unit} (h : c.Uses fun o => ∀ w i, Truthful cfg w i o) :
      Vouched cfg I i c w := .of_uses (fun w o ho => ho w i) h
  cases i with
  | register dto => exact register_truthful dto
  | login dto => exact login_truthful dto
  | refresh x => exact refresh_truthful x
  | forgotPassword dto =>
      exact hsilent (forgotPassword_uses dto (by intros; trivial) (by intros; trivial)
        (by intros; trivial) (by intros; trivial) (by intros; trivial))
  | resetPassword dto =>
      exact hsilent (resetPassword_uses dto (by intros; trivial) (by intros; trivial)
        (by intros; trivial) (by intros; trivial) (by intros; trivial))
  | logout x => exact hsilent (logout_uses (by intros; trivial) (by intros; trivial) x)
  | removeExpiredRefreshTokens =>
      exact hsilent (.bind (.perform (by intros; trivial)) fun _ =>
        .bind (.perform (by intros; trivial)) fun _ => trivial)
  | elapse duration => exact hsilent (.perform (by intros; trivial))

end Calls

/-- What the history says was signed and answered still holds. -/
structure Truth (cfg : AuthConfig) (users : Table Account) (w : AuthWorld) : Prop where
  accounts : Accounts users w.shared.tables
  history : ∀ c ∈ w.trace, Truthful cfg w c.inv c.op

theorem truth_discipline (cfg : AuthConfig) (users : Table Account) :
    Discipline (authSystem cfg) (Truth cfg users) Remembers (Truthful cfg) where
  refl := Remembers.refl
  trans := Remembers.trans
  start i w _ := code_truthful i w
  keep {w n i o b s} hI hJ hx := by
    have hw : Remembers w (w.commit n i o s) := remembers_commit hx
    refine ⟨⟨accounts_commit hI.accounts hx, fun c hc => ?_⟩, hw⟩
    rcases List.mem_append.mp hc with hold | hnew
    · exact (hI.history c hold).mono hw
    · obtain rfl := List.mem_singleton.mp hnew
      exact hJ.mono hw

theorem truth_init (cfg : AuthConfig) (users : Table Account) :
    Truth cfg users (authPool users).world where
  accounts := ⟨fun a ha => ⟨a, ha, rfl⟩, fun a ha => Or.inr ⟨a, ha, rfl⟩⟩
  history _ hc := absurd hc List.not_mem_nil

end Reedr
