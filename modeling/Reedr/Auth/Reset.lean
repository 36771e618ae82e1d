import Reedr.Auth.Memory
import Reedr.Library.History

/-!
# A password reset ends every earlier session

The transaction of a reset revokes the tokens that are stored when it commits.
A login or a refresh stores its token some statements after it has read the
account or the token it goes by, so a token issued on the strength of what a
reset has just ended may be stored behind it.

## Implementation notes

The ancestry of a token is read off the history since the reset. It only gets
longer, so a session remains one.
-/

namespace Reedr
open Relational Interleaving

/-- The statement sets the password of the user to this hash. -/
def AuthStmt.setsPassword (userId : Id) (password : String) : AuthStmt → Prop
  | resetBatch _ id hash _ => id = userId ∧ hash = password
  | _ => False

section Ancestry
variable (cfg : AuthConfig)

/-- Statement `c` stored a token for the user, in the row with this id. -/
def Issues (c : AuthCommit) (userId id : Id) : Prop :=
  ∃ expiresAt, c.op = .createRefreshToken userId expiresAt ∧ id = cfg.uuid c.before.drawn

/-- Within `l`, the token was issued by a login that compared against a password
that was set there, or by a chain of refreshes that starts from such a login. -/
inductive Session (l : List AuthCommit) (userId : Id) : Id → Prop where
  | login {dto : LoginDto} {a : Account} {id : Id} {set read issue : AuthCommit}
      (hset : set ∈ l) (hpassword : AuthStmt.setsPassword userId a.password set.op)
      (hread : read ∈ l) (hop : read.op = .findUserByPhone dto.phone)
      (hfind : read.before.tables.findUserByPhone dto.phone = some a) (huser : a.id = userId)
      (hcompare : cfg.bcryptCompare dto.password a.password = true)
      (hissue : issue ∈ l) (hcall : issue.call = read.call) (hinv : issue.inv = .login dto)
      (hid : Issues cfg issue userId id) : Session l userId id
  | refresh {x : String} {parent : RefreshToken} {id : Id} {read issue : AuthCommit}
      (hread : read ∈ l) (hop : read.op = .findRefreshToken (cfg.hashToken x))
      (hfind : read.before.tables.findRefreshToken (cfg.hashToken x) = some parent)
      (hparent : Session l userId parent.id)
      (hissue : issue ∈ l) (hcall : issue.call = read.call) (hinv : issue.inv = .refresh x)
      (hid : Issues cfg issue userId id) : Session l userId id

/-- Every open token of a user whose password was reset is from a session that
began with the password of that reset or of a later one. -/
def ResetsEndSessions (w : AuthWorld) : Prop :=
  ∀ before c after userId, w.trace = before ++ c :: after → AuthStmt.resets userId c.op = true →
    ∀ r ∈ w.shared.tables.refreshTokens, r.userId = userId → r.revokedAt = none →
      Session cfg (c :: after) userId r.id

end Ancestry

/-- No reset has ended the sessions of the user since the call found out whom it
issues the token to. -/
def IssuesCurrent (w : AuthWorld) (n : Nat) : AuthStmt → Prop
  | .createRefreshToken userId _ =>
      ∀ c ∈ w.since fun c => c.call = n ∧ AuthStmt.vouches c.op, AuthStmt.resets userId c.op = false
  | _ => True

/-- So it is whenever a token is issued in the run. -/
def AllIssuesCurrent (cfg : AuthConfig) : AuthPool → List AuthMove → Prop :=
  Along (authSystem cfg) fun p m =>
    ∀ n i o b s, p.Commits (authSystem cfg) m n i o b s → IssuesCurrent p.world n o

section Decidable

instance (w : AuthWorld) (n : Nat) (o : AuthStmt) : Decidable (IssuesCurrent w n o) :=
  match o with
  | .createRefreshToken _ _ => inferInstanceAs (Decidable (∀ c ∈ _, _))
  | .findUserByPhone _ | .findUser _ | .createUser _ _ _ | .findRefreshToken _
  | .revokeByTokenHash _ _ | .revokeRefreshToken _ _ | .deleteExpired _
  | .replaceResetToken _ _ _ _ | .findResetToken _ _ _ | .resetBatch _ _ _ _
  | .bcryptHash _ _ | .bcryptCompare _ _ | .signAsync _ _ | .randomInt _ _
  | .sendSms _ _ | .respond _ | .now | .elapse _ => inferInstanceAs (Decidable True)

instance (cfg : AuthConfig) (p : AuthPool) (ms : List AuthMove) :
    Decidable (AllIssuesCurrent cfg p ms) :=
  inferInstanceAs (Decidable (Along _ _ _ _))

end Decidable

section Session
variable {cfg : AuthConfig} {l l' : List AuthCommit} {userId id : Id}

theorem Session.mono (h : Session cfg l userId id) (hsub : l ⊆ l') : Session cfg l' userId id := by
  induction h with
  | login hset hpassword hread hop hfind huser hcompare hissue hcall hinv hid =>
      exact .login (hsub hset) hpassword (hsub hread) hop hfind huser hcompare (hsub hissue)
        hcall hinv hid
  | refresh hread hop hfind _ hissue hcall hinv hid ih =>
      exact .refresh (hsub hread) hop hfind ih (hsub hissue) hcall hinv hid

/-- Every session goes back to something that was read within `l`. -/
theorem Session.exists_vouches (h : Session cfg l userId id) :
    ∃ c ∈ l, AuthStmt.vouches c.op = true := by
  cases h with
  | @login _ _ _ _ read _ _ _ hread hop =>
      exact ⟨read, hread, by rw [hop]; rfl⟩
  | @refresh _ _ _ read _ hread hop =>
      exact ⟨read, hread, by rw [hop]; rfl⟩

end Session

/-- The password of a user is the one their last reset has set. -/
def PasswordsSet (w : AuthWorld) : Prop :=
  ∀ before c after userId, w.trace = before ++ c :: after → AuthStmt.resets userId c.op = true →
    ∃ a ∈ w.shared.tables.users, a.id = userId ∧
      ∃ d ∈ c :: after, AuthStmt.setsPassword userId a.password d.op

structure Resetting (cfg : AuthConfig) (w : AuthWorld) : Prop where
  passwords : PasswordsSet w
  sessions : ResetsEndSessions cfg w

section Statements
variable {cfg : AuthConfig} {w : AuthWorld} {n : Nat} {i : AuthInvocation} {o : AuthStmt}
variable {b : o.Res} {s : AuthBackend}

private theorem resets_eq_resetBatch {userId : Id} (h : o.resets userId = true) :
    ∃ id password now, o = .resetBatch id userId password now := by
  cases o with
  | resetBatch id user password now =>
      obtain rfl : user = userId := of_decide_eq_true h
      exact ⟨id, password, now, rfl⟩
  | _ => exact nomatch h

private theorem passwordsSet_commit (hw : PasswordsSet w)
    (h : AuthBackend.exec cfg o w.shared = .ok (b, s)) : PasswordsSet (w.commit n i o s) := by
  intro before c after userId hsplit hresets
  rcases World.split_snoc hsplit with ⟨rfl, rfl, rfl⟩ | ⟨after', rfl, hold⟩
  · obtain ⟨id, password, now, rfl⟩ := resets_eq_resetBatch hresets
    obtain ⟨⟨a, ha, rfl⟩, hrewrites, -⟩ := AuthBackend.exec_resetBatch h
    refine ⟨{ a with password }, ?_, rfl, _, List.mem_cons_self, rfl, rfl⟩
    simpa using hrewrites.mem ha
  · obtain ⟨a, ha, rfl, d, hd, hpassword⟩ := hw before c after' userId hold hresets
    have hd' : d ∈ c :: (after' ++ [⟨n, i, o, w.shared⟩]) := by
      rw [← List.cons_append]
      exact List.mem_append_left _ hd
    have hnew : (⟨n, i, o, w.shared⟩ : AuthCommit) ∈ c :: (after' ++ [⟨n, i, o, w.shared⟩]) :=
      List.mem_append_right (c :: after') (List.mem_singleton_self _)
    cases AuthBackend.exec_users h with
    | kept _ hsame => exact ⟨a, hsame ▸ ha, rfl, d, hd', hpassword⟩
    | created new _ hextends => exact ⟨a, hextends.mem_old ha, rfl, d, hd', hpassword⟩
    | @reset _ user password _ _ hrewrites =>
        have ha' := hrewrites.mem ha
        by_cases huser : a.id = user
        · rw [if_pos huser] at ha'
          exact ⟨_, ha', rfl, _, hnew, huser.symm, rfl⟩
        · rw [if_neg huser] at ha'
          exact ⟨a, ha', rfl, d, hd', hpassword⟩

/-- A token that is issued belongs to a session since each reset before it. -/
private theorem session_issued {userId : Id} {expiresAt : Millis}
    {k : Except AuthError String → AuthCall Unit} (hw : w.Always (Resetting cfg))
    (hknows : KnowsSession cfg i (memory n w.trace)
      (.step (.createRefreshToken userId expiresAt) k))
    (hcurrent : IssuesCurrent w n (.createRefreshToken userId expiresAt))
    {before after : List AuthCommit} {c : AuthCommit} (hsplit : w.trace = before ++ c :: after)
    (hresets : AuthStmt.resets userId c.op = true) :
    Session cfg (c :: (after ++ [⟨n, i, .createRefreshToken userId expiresAt, w.shared⟩])) userId
      (cfg.uuid w.shared.drawn) := by
  obtain ⟨x, hlatest, hvouches⟩ := hknows.1
  obtain ⟨earlier, v, hv, hcall, rfl⟩ := World.exists_since_latest (w := w) hlatest
  have hbefore : c ∉ v :: w.since fun c => c.call = n ∧ AuthStmt.vouches c.op := by
    intro hc
    rcases List.mem_cons.mp hc with rfl | hc
    · obtain ⟨id, password, now, hop⟩ := resets_eq_resetBatch hresets
      rw [hop] at hlatest
      exact nomatch (mem_of_latest hlatest).2
    · exact nomatch (hcurrent c hc).symm.trans hresets
  obtain ⟨mid, rfl, rfl⟩ := World.split_before (hsplit.symm.trans hv) hbefore
  have hthen : Resetting cfg ⟨v.before, before ++ c :: mid⟩ := hw.before hv
  have hissue : Issues cfg ⟨n, i, .createRefreshToken userId expiresAt, w.shared⟩ userId
      (cfg.uuid w.shared.drawn) := ⟨expiresAt, rfl, rfl⟩
  rw [← List.cons_append, ← List.cons_append]
  generalize w.since (fun c => c.call = n ∧ AuthStmt.vouches c.op) = since at *
  have hold {d : AuthCommit} (hd : d ∈ c :: mid) : d ∈ c :: mid ++ v :: since ++
      [⟨n, i, .createRefreshToken userId expiresAt, w.shared⟩] :=
    List.mem_append_left _ (List.mem_append_left _ hd)
  generalize hop : v.op = op at hvouches
  generalize hstate : v.before = t at hvouches hthen
  cases hvouches with
  | @register dto name phone password _ a s' hcreate =>
      -- Nobody resets the password of a user who is not yet there.
      obtain ⟨a₀, ha₀, hid, -⟩ := hthen.passwords before c mid _ rfl hresets
      obtain ⟨users, hc, -, -⟩ := AuthBackend.exec_createUser hcreate
      exact absurd ⟨.id a₀.id, by simp [Keyed.keys], by simp [Keyed.keys, hid]⟩
        (Table.not_clash_of_create hc a₀ ha₀)
  | @login dto _ a hfind hcompare =>
      obtain ⟨a₀, ha₀, hid, d, hd, hpassword⟩ := hthen.passwords before c mid _ rfl hresets
      obtain rfl : a₀ = a := Account.eq_of_id ha₀ (AuthTables.findUserByPhone_some hfind).1 hid
      exact .login (hold hd) hpassword (by simp) hop (hstate ▸ hfind) rfl hcompare (by simp)
        hcall.symm rfl hissue
  | @refresh x _ r hfind hopen =>
      have hr := (AuthTables.findRefreshToken_eq_some.mp hfind).1
      have hparent := hthen.sessions before c mid _ rfl hresets r hr rfl hopen
      exact .refresh (by simp) hop (hstate ▸ hfind) (hparent.mono fun _ => hold) (by simp)
        hcall.symm rfl hissue

theorem Resetting.commit {k : Except AuthError o.Res → AuthCall Unit}
    (hw : w.Always (Resetting cfg)) (hknows : KnowsSession cfg i (memory n w.trace) (.step o k))
    (hcurrent : IssuesCurrent w n o) (h : AuthBackend.exec cfg o w.shared = .ok (b, s)) :
    Resetting cfg (w.commit n i o s) := by
  refine ⟨passwordsSet_commit hw.now.passwords h, ?_⟩
  intro before c after userId hsplit hresets r hr hruser hopen
  -- A token that was there before, and open, belongs to a session already.
  have stored {after' : List AuthCommit} (hafter : after = after' ++ [⟨n, i, o, w.shared⟩])
      (hold : w.trace = before ++ c :: after') {q : RefreshToken}
      (hq : q ∈ w.shared.tables.refreshTokens) (hquser : q.userId = userId)
      (hqopen : q.revokedAt = none) : Session cfg (c :: after) userId q.id := by
    apply (hw.now.sessions before c after' userId hold hresets q hq hquser hqopen).mono
    rw [hafter, ← List.cons_append]
    exact List.subset_append_left _ _
  cases AuthBackend.exec_tokens h with
  | revoked now hrewrites =>
      obtain ⟨q, hq, rfl⟩ := (hrewrites r).mp hr
      obtain ⟨hqopen, hkept⟩ := (AuthStmt.onRefreshToken_open _ _ _).mp hopen
      simp only [AuthStmt.onRefreshToken_userId, AuthStmt.onRefreshToken_id] at hruser ⊢
      rcases World.split_snoc hsplit with ⟨rfl, rfl, rfl⟩ | ⟨after', hafter, hold⟩
      · obtain ⟨id, password, now, rfl⟩ := resets_eq_resetBatch hresets
        simp [AuthStmt.revokes, hruser, hqopen] at hkept
      · exact stored hafter hold hq hruser hqopen
  | @created user expiresAt hnext hextends =>
      rcases World.split_snoc hsplit with ⟨rfl, rfl, rfl⟩ | ⟨after', hafter, hold⟩
      · cases hresets
      · rcases (hextends r).mp hr with hr | rfl
        · exact stored hafter hold hr hruser hopen
        · obtain rfl : user = userId := hruser
          rw [hafter]
          exact session_issued hw hknows hcurrent hold hresets
  | deleted hdelete =>
      rcases World.split_snoc hsplit with ⟨rfl, rfl, rfl⟩ | ⟨after', hafter, hold⟩
      · cases hresets
      · exact stored hafter hold ((hdelete r).mp hr).1 hruser hopen

end Statements

/-- However the calls of all users overlap, a reset ends every earlier session of
its user, provided that no token is issued to a user on the strength of
something read before their last reset. -/
theorem resets_end_sessions (cfg : AuthConfig) (users : Table Account) (ms : List AuthMove)
    (h : AllIssuesCurrent cfg (authPool users) ms) :
    ResetsEndSessions cfg ((authPool users).run (authSystem cfg) ms).world := by
  have hinit : (authPool users).world.Always (Resetting cfg) := by
    apply World.always_init
    constructor
    · exact fun before c after _ hsplit => absurd hsplit.symm (by simp)
    · exact fun before c after _ hsplit => absurd hsplit.symm (by simp)
  have hknown := sessionsKnown_init cfg users
  exact ((sessions_known cfg).always_run Resetting.commit hknown hinit ms h).now.sessions

/-- The user asks for a code and sets a new password with it. -/
def resetMoves (n : Nat) : List AuthMove :=
  .invoke (.forgotPassword { phone := "+2348012345678" }) :: List.replicate 5 (.advance n) ++
    .invoke (.resetPassword
      { phone := "+2348012345678"
        code := "100000"
        newPassword := "password456" }) :: List.replicate 6 (.advance (n + 1))

/-- A login with the old password has read the account when the reset begins, and
goes on when it is over. -/
def staleLogin : List AuthMove :=
  [.invoke (.login { phone := "+2348012345678", password := "password123" }), .advance 0] ++
    resetMoves 1 ++ List.replicate 5 (.advance 0)

/-- Its token is open, and nothing since the reset vouches for it. -/
theorem not_resetsEndSessions_staleLogin :
    ¬ ResetsEndSessions .default
      ((authPool oneUser).run (authSystem .default) staleLogin).world := by
  generalize hw : ((authPool oneUser).run (authSystem .default) staleLogin).world = w
  have hresets : (w.trace.drop 11).head?.any (fun c => AuthStmt.resets "ada" c.op) = true := by
    rw [← hw]
    decide +kernel
  have hopen : ∃ r ∈ w.shared.tables.refreshTokens, r.userId = "ada" ∧ r.revokedAt = none := by
    rw [← hw]
    decide +kernel
  have hnothing : ∀ c ∈ w.trace.drop 11, AuthStmt.vouches c.op = false := by
    rw [← hw]
    decide +kernel
  have hsplit := (List.take_append_drop 11 w.trace).symm
  intro h
  cases hafter : w.trace.drop 11 with
  | nil => simp [hafter] at hresets
  | cons c after =>
      rw [hafter] at hresets hnothing hsplit
      obtain ⟨r, hr, huser, hrevoked⟩ := hopen
      obtain ⟨d, hd, hvouches⟩ :=
        (h _ c after "ada" hsplit hresets r hr huser hrevoked).exists_vouches
      exact nomatch (hnothing d hd).symm.trans hvouches

/-- A session of the old password, a reset in between, and a login with the new
password whose token is refreshed. -/
theorem resets_end_sessions_newLogin :
    ResetsEndSessions .default ((authPool oneUser).run (authSystem .default)
      (loginMoves 0 ++ resetMoves 1 ++
        .invoke (.login { phone := "+2348012345678", password := "password456" }) ::
          List.replicate 6 (.advance 3) ++
        .invoke (.refresh "xxxxx") :: List.replicate 9 (.advance 4))).world := by
  apply resets_end_sessions
  decide +kernel

end Reedr
