import Reedr.Auth.Services
import Reedr.Library.Obligation

/-!
# What an auth call remembers

Before it issues a token to a user, a call has read or written a row that says
who the user is; before it revokes a token, it has read that token. Each of the
two happens statements before the write it is for.
-/

namespace Reedr
open Relational Interleaving

/-- Statements that tell a call which user it is about to issue a token to. -/
def AuthStmt.vouches : AuthStmt → Bool
  | findUserByPhone _ | createUser _ _ _ | findRefreshToken _ => true
  | _ => false

variable (cfg : AuthConfig)

/-- What a call has learnt from such a statement, in the state it was executed in. -/
inductive Vouches : AuthInvocation → Id → AuthStmt × AuthBackend → Prop where
  | register {dto name phone password s a s'}
      (h : AuthBackend.exec cfg (.createUser name phone password) s = .ok (a, s')) :
      Vouches (.register dto) a.id (.createUser name phone password, s)
  | login {dto : LoginDto} {s : AuthBackend} {a : Account}
      (hfind : s.tables.findUserByPhone dto.phone = some a)
      (hcompare : cfg.bcryptCompare dto.password a.password = true) :
      Vouches (.login dto) a.id (.findUserByPhone dto.phone, s)
  | refresh {x : String} {s : AuthBackend} {r : RefreshToken}
      (hfind : s.tables.findRefreshToken (cfg.hashToken x) = some r) (hopen : r.revokedAt = none) :
      Vouches (.refresh x) r.userId (.findRefreshToken (cfg.hashToken x), s)

/-- With what a call issues the statements that open and close sessions. -/
def SessionFact (i : AuthInvocation) (l : List (AuthStmt × AuthBackend)) : AuthStmt → Prop
  | .createRefreshToken userId _ =>
      ∃ x, latest AuthStmt.vouches l = some x ∧ Vouches cfg i userId x
  | .revokeRefreshToken id _ => ∃ x s r, i = .refresh x ∧
      latest AuthStmt.vouches l =
        some (.findRefreshToken (cfg.hashToken x), s) ∧
      s.tables.findRefreshToken (cfg.hashToken x) = some r ∧ r.revokedAt = none ∧ r.id = id
  | _ => True

/-- The memory holds both halves of the rotation of token `x`. -/
def Rotated (x : String) (l : List (AuthStmt × AuthBackend)) : Prop :=
  ∃ s r s' now, (.findRefreshToken (cfg.hashToken x), s) ∈ l ∧
    s.tables.findRefreshToken (cfg.hashToken x) = some r ∧
    (.revokeRefreshToken r.id now, s') ∈ l

/-- A refresh that returns has rotated its token. -/
def SessionPost {α : Type} (i : AuthInvocation) (l : List (AuthStmt × AuthBackend)) :
    Except AuthError α → Prop
  | .ok _ => ∀ x, i = .refresh x → Rotated cfg x l
  | .error _ => True

/-- The rest of the call issues its statements with these facts and ends so. -/
abbrev KnowsSession {α : Type} (i : AuthInvocation) (l : List (AuthStmt × AuthBackend))
    (c : AuthCall α) : Prop :=
  c.Recalls (authSystem cfg) (fun _ => True) (SessionFact cfg i) (SessionPost cfg i) l

variable {cfg}

theorem Rotated.append {x : String} {l : List (AuthStmt × AuthBackend)} (h : Rotated cfg x l)
    (l' : List (AuthStmt × AuthBackend)) : Rotated cfg x (l ++ l') := by
  obtain ⟨s, r, s', now, hread, hfind, hrevoke⟩ := h
  exact ⟨s, r, s', now, List.mem_append_left _ hread, hfind, List.mem_append_left _ hrevoke⟩

section Calls
variable {i : AuthInvocation} {l : List (AuthStmt × AuthBackend)}

theorem issueTokenPair_knows {userId : Id} {role : Role} {x : AuthStmt × AuthBackend}
    (hlatest : latest AuthStmt.vouches l = some x)
    (hvouches : Vouches cfg i userId x) (hrotated : ∀ x, i = .refresh x → Rotated cfg x l) :
    KnowsSession cfg i l (AuthService.issueTokenPair cfg userId role) := by
  apply Call.Recalls.perform_bind trivial _ fun _ _ => trivial
  intro s₁ accessToken s₁' _ _
  apply Call.Recalls.perform_bind trivial _ fun _ _ => trivial
  intro s₂ now s₂' _ _
  apply Call.Recalls.perform_bind _ _ fun _ _ => trivial
  · exact ⟨x, by simp [AuthStmt.vouches, hlatest], hvouches⟩
  · intro s₃ refreshToken s₃' _ _ y hy
    exact (((hrotated y hy).append _).append _).append _

theorem register_knows (dto : RegisterDto) :
    KnowsSession cfg (.register dto) [] (AuthService.register cfg dto) := by
  apply Call.Recalls.perform_bind trivial _ fun _ _ => trivial
  intro s₁ existing s₁' _ _
  apply Call.Recalls.ensure_bind _ fun _ => trivial
  intro _
  apply Call.Recalls.perform_bind trivial _ fun _ _ => trivial
  intro s₂ passwordHash s₂' _ _
  apply Call.Recalls.perform_bind trivial _ fun _ _ => trivial
  intro s₃ user s₃' _ hcreate
  apply issueTokenPair_knows _ (.register hcreate)
  · nofun
  · simp [AuthStmt.vouches]

theorem login_knows (dto : LoginDto) :
    KnowsSession cfg (.login dto) [] (AuthService.login cfg dto) := by
  apply Call.Recalls.perform_bind trivial _ fun _ _ => trivial
  intro s₁ found s₁' _ hread
  cases hread
  apply Call.Recalls.required_bind _ fun _ => trivial
  intro user hfind
  apply Call.Recalls.perform_bind trivial _ fun _ _ => trivial
  intro s₂ valid s₂' _ hvalid
  cases hvalid
  apply Call.Recalls.ensure_bind _ fun _ => trivial
  intro hcompare
  apply issueTokenPair_knows _ (.login hfind hcompare)
  · nofun
  · simp [AuthStmt.vouches]

theorem refresh_knows (x : String) :
    KnowsSession cfg (.refresh x) [] (AuthService.refresh cfg x) := by
  apply Call.Recalls.perform_bind trivial _ fun _ _ => trivial
  intro s₁ found s₁' _ hread
  cases hread
  apply Call.Recalls.required_bind _ fun _ => trivial
  intro stored hfind
  apply Call.Recalls.ensure_bind _ fun _ => trivial
  intro hopen
  apply Call.Recalls.perform_bind trivial _ fun _ _ => trivial
  intro s₂ now s₂' _ _
  apply Call.Recalls.ensure_bind _ fun _ => trivial
  intro _
  apply Call.Recalls.perform_bind trivial _ fun _ _ => trivial
  intro s₃ now' s₃' _ _
  apply Call.Recalls.perform_bind _ _ fun _ _ => trivial
  · exact ⟨x, s₁, stored, rfl, by simp [AuthStmt.vouches], hfind, hopen, rfl⟩
  · intro s₄ revoked s₄' _ _
    apply Call.Recalls.perform_bind trivial _ fun _ _ => trivial
    intro s₅ found' s₅' _ hread'
    cases hread'
    apply Call.Recalls.required_bind _ fun _ => trivial
    intro user huser
    obtain ⟨-, hid⟩ := AuthTables.findUser_some huser
    rw [hid]
    apply issueTokenPair_knows _ (.refresh hfind hopen)
    · intro y hy
      cases hy
      exact ⟨s₁, stored, s₄, now', by simp, hfind, by simp⟩
    · simp [AuthStmt.vouches]

theorem answer_knows {c : AuthCall TokenPairResponseDto} (h : KnowsSession cfg i [] c) :
    KnowsSession cfg i [] (AuthController.answer c) := by
  apply Call.Recalls.bind
  apply h.mono
  intro l r hl
  cases r with
  | error e => trivial
  | ok pair =>
      refine ⟨trivial, fun s b s' _ _ x hx => ?_, fun _ _ => trivial⟩
      exact (hl x hx).append _

/-- Statements that neither issue nor rotate a token. -/
def AuthStmt.leavesSessions : AuthStmt → Bool
  | createRefreshToken _ _ | revokeRefreshToken _ _ => false
  | _ => true

theorem knows_of_uses {α : Type} {c : AuthCall α}
    (h : c.Uses fun o => AuthStmt.leavesSessions o = true) (hi : ∀ x, i ≠ .refresh x) :
    KnowsSession cfg i [] c := by
  apply Call.Recalls.of_uses (Q := fun _ => True) h _ _ _ trivial
  · intro l o _ ho
    cases o with
    | createRefreshToken userId expiresAt => exact nomatch ho
    | revokeRefreshToken id now => exact nomatch ho
    | _ => trivial
  · intros
    trivial
  · intro l r _
    cases r with
    | ok a => exact fun x hx => absurd hx (hi x)
    | error e => trivial

end Calls

theorem code_knows (i : AuthInvocation) : KnowsSession cfg i [] (i.code cfg) := by
  cases i with
  | register dto => exact answer_knows (register_knows dto)
  | login dto => exact answer_knows (login_knows dto)
  | refresh x => exact answer_knows (refresh_knows x)
  | forgotPassword dto =>
      apply knows_of_uses
      · apply forgotPassword_uses <;> intros <;> rfl
      · nofun
  | resetPassword dto =>
      apply knows_of_uses
      · apply resetPassword_uses <;> intros <;> rfl
      · nofun
  | logout x =>
      apply knows_of_uses
      · exact .bind (.perform rfl) fun _ => .perform rfl
      · nofun
  | removeExpiredRefreshTokens =>
      apply knows_of_uses
      · exact .bind (.perform rfl) fun _ => .bind (.perform rfl) fun _ => trivial
      · nofun
  | elapse duration =>
      apply knows_of_uses
      · exact .perform rfl
      · nofun

/-- So it is of every call of a pool, at any time. -/
abbrev SessionsKnown (cfg : AuthConfig) : AuthPool → Prop :=
  MemoryInvariant.Holds (fun _ => True) fun i l c => KnowsSession cfg i l c

theorem sessions_known (cfg : AuthConfig) :
    MemoryInvariant (authSystem cfg) (fun _ => True) fun i l c => KnowsSession cfg i l c :=
  .of_recalls (fun _ _ => trivial) code_knows

theorem sessionsKnown_init (cfg : AuthConfig) (users : Table Account) :
    SessionsKnown cfg (authPool users) :=
  MemoryInvariant.holds_init trivial

end Reedr
