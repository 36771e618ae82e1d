import Reedr.Auth.Services
import Reedr.Library.Alone

/-!
# Which refresh tokens are accepted

Of calls that are served one after another, each has an effect on the sessions
that its request and its outcome determine: it ends some of them, and it may
begin one. A token is accepted if and only if it began a session that has not
expired and that no call since has ended.

## Implementation notes

A call is followed statement by statement with the sessions that are valid at
each point, `Progress`; what is left at its end is what it did to them, `Served`.
-/

namespace Reedr
open Relational Interleaving

namespace AuthBackend

/-- Token `x` of the user is stored, open and not expired; it expires at `e`. -/
def Valid (cfg : AuthConfig) (s : AuthBackend) (x : String) (userId : Id) (e : Millis) : Prop :=
  s.clock ≤ e ∧ ∃ r ∈ s.tables.refreshTokens, r.tokenHash = cfg.hashToken x ∧
    r.userId = userId ∧ r.expiresAt = e ∧ r.revokedAt = none

/-- What the lookup of a token finds decides whether it is valid. -/
theorem valid_iff_find {cfg : AuthConfig} {s : AuthBackend} {x : String} {userId : Id}
    {e : Millis} : s.Valid cfg x userId e ↔ ∃ r,
      s.tables.findRefreshToken (cfg.hashToken x) = some r ∧ r.revokedAt = none ∧
        ¬ r.expiresAt < s.clock ∧ r.userId = userId ∧ r.expiresAt = e := by
  constructor
  · rintro ⟨htime, r, hr, hhash, rfl, rfl, hopen⟩
    exact ⟨r, AuthTables.findRefreshToken_eq_some.mpr ⟨hr, hhash⟩, hopen, Nat.not_lt.mpr htime,
      rfl, rfl⟩
  · rintro ⟨r, hfind, hopen, htime, rfl, rfl⟩
    obtain ⟨hr, hhash⟩ := AuthTables.findRefreshToken_eq_some.mp hfind
    exact ⟨Nat.not_lt.mp htime, r, hr, hhash, rfl, rfl, hopen⟩

/-- Every token row was stored with the values of one draw, for an existing user. -/
structure Consistent (cfg : AuthConfig) (s : AuthBackend) : Prop where
  minted : s.Minted cfg
  owned : ∀ r ∈ s.tables.refreshTokens, ∃ a ∈ s.tables.users, a.id = r.userId

variable {cfg : AuthConfig} {s s' : AuthBackend} {o : AuthStmt} {b : o.Res}

theorem Consistent.exec (hs : s.Consistent cfg) (h : exec cfg o s = .ok (b, s'))
    (ho : ∀ userId expiresAt, o = .createRefreshToken userId expiresAt →
      ∃ a ∈ s.tables.users, a.id = userId) : s'.Consistent cfg := by
  refine ⟨hs.minted.exec h, fun r hr => ?_⟩
  apply exec_hasUser h
  cases exec_tokens h with
  | revoked now hrewrites =>
      obtain ⟨q, hq, rfl⟩ := (hrewrites r).mp hr
      rw [AuthStmt.onRefreshToken_userId]
      exact hs.owned q hq
  | created hnext hextends =>
      rcases (hextends r).mp hr with hold | rfl
      · exact hs.owned r hold
      · exact ho _ _ rfl
  | deleted hdelete => exact hs.owned r ((hdelete r).mp hr).1

/-- The row of a token that has been issued has its hash and no other's. -/
theorem Minted.eq_of_hash (hs : s.Minted cfg) {r : RefreshToken} (hr : r ∈ s.tables.refreshTokens)
    {x y : String} (hx : r.tokenHash = cfg.hashToken x) (hy : r.tokenHash = cfg.hashToken y) :
    x = y := by
  obtain ⟨k, -, -, hk⟩ := hs r hr
  rw [cfg.hashToken_issued x k (hx.symm.trans hk), cfg.hashToken_issued y k (hy.symm.trans hk)]

/-- A revoking statement leaves the sessions whose rows it does not revoke. -/
theorem valid_revoked {now : Millis} (hclock : s'.clock = s.clock)
    (h : s.tables.refreshTokens.Rewrites (o.onRefreshToken now) s'.tables.refreshTokens)
    (x : String) (userId : Id) (e : Millis) : s'.Valid cfg x userId e ↔
      s.clock ≤ e ∧ ∃ r ∈ s.tables.refreshTokens, r.tokenHash = cfg.hashToken x ∧
        r.userId = userId ∧ r.expiresAt = e ∧ r.revokedAt = none ∧ o.revokes r = false := by
  unfold Valid
  rw [hclock]
  refine and_congr_right fun _ => ?_
  constructor
  · rintro ⟨r, hr, hhash, huser, hexpires, hopen⟩
    obtain ⟨q, hq, rfl⟩ := (h r).mp hr
    rw [AuthStmt.onRefreshToken_open] at hopen
    simp only [AuthStmt.onRefreshToken_tokenHash, AuthStmt.onRefreshToken_userId,
      AuthStmt.onRefreshToken_expiresAt] at hhash huser hexpires
    exact ⟨q, hq, hhash, huser, hexpires, hopen⟩
  · rintro ⟨q, hq, hhash, huser, hexpires, hopen⟩
    refine ⟨_, h.mem hq, ?_, ?_, ?_, ?_⟩
    · rwa [AuthStmt.onRefreshToken_tokenHash]
    · rwa [AuthStmt.onRefreshToken_userId]
    · rwa [AuthStmt.onRefreshToken_expiresAt]
    · rwa [AuthStmt.onRefreshToken_open]

/-- A stored token adds the session it begins. -/
theorem valid_created {userId : Id} {e : Millis} (hclock : s'.clock = s.clock)
    (hlater : s.clock ≤ e)
    (h : s.tables.refreshTokens.Extends (s.nextRefreshToken cfg userId e) s'.tables.refreshTokens)
    (y : String) (v : Id) (e' : Millis) : s'.Valid cfg y v e' ↔
      s.Valid cfg y v e' ∨ (y = cfg.randomBytes s.drawn ∧ v = userId ∧ e' = e) := by
  unfold Valid
  rw [hclock]
  constructor
  · rintro ⟨htime, r, hr, hhash, rfl, rfl, hopen⟩
    rcases (h r).mp hr with hold | rfl
    · exact Or.inl ⟨htime, r, hold, hhash, rfl, rfl, hopen⟩
    · exact Or.inr ⟨cfg.hashToken_issued _ _ hhash.symm, rfl, rfl⟩
  · rintro (⟨htime, r, hr, hrest⟩ | ⟨rfl, rfl, rfl⟩)
    · exact ⟨htime, r, h.mem_old hr, hrest⟩
    · exact ⟨hlater, _, h.mem_new, rfl, rfl, rfl, rfl⟩

/-- The fresh token is stored, whatever is stored already. -/
theorem exec_createRefreshToken_ok (hs : s.Minted cfg) (userId : Id) (expiresAt : Millis) :
    ∃ s', exec cfg (.createRefreshToken userId expiresAt) s =
      .ok (cfg.randomBytes s.drawn, s') := by
  have hfresh : ∀ r ∈ s.tables.refreshTokens,
      ¬ Clash r (s.nextRefreshToken cfg userId expiresAt) := by
    rintro r hr ⟨key, hkey, hnext⟩
    obtain ⟨k, hk, hid, hhash⟩ := hs r hr
    simp only [Keyed.keys, nextRefreshToken, List.mem_cons, List.not_mem_nil, or_false]
      at hkey hnext
    rcases hkey with rfl | rfl <;> rcases hnext with hnext | hnext
    · have hdraw := cfg.uuid_injective (hid.symm.trans (RefreshTokenKey.id.inj hnext))
      omega
    · cases hnext
    · cases hnext
    · have hsame := hhash.symm.trans (RefreshTokenKey.tokenHash.inj hnext)
      have hdraw := cfg.randomBytes_injective (cfg.hashToken_issued _ _ hsame)
      omega
  obtain ⟨refreshTokens, hc⟩ := Table.create_eq_ok hfresh
  refine ⟨{ s.draw with tables := { s.tables with refreshTokens } }, ?_⟩
  simp [exec, onTables, draw, AuthTables.createRefreshToken, hc]

theorem exec_revokeRefreshToken_ok {r : RefreshToken} (hr : r ∈ s.tables.refreshTokens)
    (now : Millis) : ∃ q s', exec cfg (.revokeRefreshToken r.id now) s = .ok (q, s') := by
  obtain ⟨q, refreshTokens, hu⟩ := Table.update_isOk (p := fun q => q.id = r.id)
    (f := RefreshToken.revoke now) hr (decide_eq_true rfl) fun _ => rfl
  refine ⟨q, { s with tables := { s.tables with refreshTokens } }, ?_⟩
  simp [exec, onTables, AuthTables.revokeRefreshToken, hu]

theorem exec_revokeByTokenHash_ok (tokenHash : String) (now : Millis) :
    ∃ s', exec cfg (.revokeByTokenHash tokenHash now) s = .ok ((), s') := by
  obtain ⟨refreshTokens, hu⟩ : ∃ t, s.tables.refreshTokens.updateMany
      (fun r => r.tokenHash = tokenHash ∧ r.revokedAt = none) (.revoke now) = .ok t :=
    ⟨_, Table.updateMany_eq_modify _ _ (RefreshToken.revoke now) fun _ => rfl⟩
  refine ⟨{ s with tables := { s.tables with refreshTokens } }, ?_⟩
  simp only [exec, onTables, AuthTables.revokeByTokenHash]
  rw [hu]
  rfl

end AuthBackend

/-- Statements without a say in who is logged in. -/
def AuthStmt.neutral : AuthStmt → Bool
  | createRefreshToken _ _ | revokeRefreshToken _ _ | revokeByTokenHash _ _ | resetBatch _ _ _ _
  | signAsync _ _ | deleteExpired _ | respond _ | elapse _ => false
  | _ => true

/-- Statements that neither begin a session, nor reset a password, nor sign a token. -/
def AuthStmt.quiet : AuthStmt → Bool
  | createRefreshToken _ _ | resetBatch _ _ _ _ | signAsync _ _ | respond _ => false
  | _ => true

/-- Call `n` is under way since `start`, has been quiet, and leaves the sessions `V`. -/
structure Progress (cfg : AuthConfig) (n : Nat) (V : String → Id → Millis → Prop) (start : Millis)
    (w : AuthWorld) : Prop where
  consistent : w.shared.Consistent cfg
  clock : w.shared.clock = start
  valid : ∀ x userId e, w.shared.Valid cfg x userId e ↔ V x userId e
  quiet : ∀ o ∈ executed n w.trace, AuthStmt.quiet o = true

section Progress
variable {cfg : AuthConfig} {n : Nat} {i : AuthInvocation} {V : String → Id → Millis → Prop}
variable {start : Millis} {w : AuthWorld} {o : AuthStmt} {b : o.Res} {s : AuthBackend}

private theorem quiet_commit (hp : Progress cfg n V start w) (ho : o.quiet = true) :
    ∀ q ∈ executed n (w.commit n i o s).trace, AuthStmt.quiet q = true := by
  intro q hq
  rw [executed_commit_self, List.mem_append, List.mem_singleton] at hq
  rcases hq with hq | rfl
  · exact hp.quiet q hq
  · exact ho

/-- After a revoking statement, the sessions are left whose tokens it does not revoke. -/
theorem Progress.revokes {V' : String → Id → Millis → Prop} (hp : Progress cfg n V start w)
    (ho : o.quiet = true) (htime : o.passesTime = false) (hkeeps : o.movesRefreshTokens = false)
    (hx : AuthBackend.exec cfg o w.shared = .ok (b, s))
    (hV : ∀ x userId e, V' x userId e ↔ w.shared.clock ≤ e ∧
      ∃ r ∈ w.shared.tables.refreshTokens, r.tokenHash = cfg.hashToken x ∧ r.userId = userId ∧
        r.expiresAt = e ∧ r.revokedAt = none ∧ o.revokes r = false) :
    Progress cfg n V' start (w.commit n i o s) := by
  have hclock := AuthBackend.exec_clock hx htime
  obtain ⟨now, hrewrites⟩ := AuthBackend.exec_onRefreshToken hx hkeeps
  constructor
  · apply hp.consistent.exec hx
    rintro userId expiresAt rfl
    exact nomatch ho
  · exact hclock.trans hp.clock
  · intro x userId e
    rw [hV]
    exact AuthBackend.valid_revoked hclock hrewrites x userId e
  · exact quiet_commit hp ho

/-- In particular one that revokes the row of a token ends the session of the token. -/
theorem Progress.endsToken (hp : Progress cfg n V start w) (ho : o.quiet = true)
    (htime : o.passesTime = false) (hkeeps : o.movesRefreshTokens = false)
    (hx : AuthBackend.exec cfg o w.shared = .ok (b, s)) {x : String}
    (hrevokes : ∀ r ∈ w.shared.tables.refreshTokens, r.revokedAt = none →
      (o.revokes r = false ↔ r.tokenHash ≠ cfg.hashToken x)) :
    Progress cfg n (fun y userId e => V y userId e ∧ y ≠ x) start (w.commit n i o s) := by
  apply hp.revokes ho htime hkeeps hx
  intro y userId e
  rw [← hp.valid]
  constructor
  · rintro ⟨⟨hlater, r, hr, hhash, huser, hexpires, hopen⟩, hne⟩
    refine ⟨hlater, r, hr, hhash, huser, hexpires, hopen, (hrevokes r hr hopen).mpr fun hx => ?_⟩
    exact hne (hp.consistent.minted.eq_of_hash hr hhash hx)
  · rintro ⟨hlater, r, hr, hhash, huser, hexpires, hopen, hkept⟩
    refine ⟨⟨hlater, r, hr, hhash, huser, hexpires, hopen⟩, fun hyx => ?_⟩
    exact (hrevokes r hr hopen).mp hkept (hyx ▸ hhash)

/-- A neutral statement changes nothing that matters. -/
theorem Progress.neutral (hp : Progress cfg n V start w) (ho : o.neutral = true)
    (hx : AuthBackend.exec cfg o w.shared = .ok (b, s)) :
    Progress cfg n V start (w.commit n i o s) := by
  have hkind : o.quiet = true ∧ o.passesTime = false ∧ o.movesRefreshTokens = false ∧
      ∀ r, o.revokes r = false := by
    cases o with
    | createRefreshToken userId expiresAt => exact nomatch ho
    | revokeRefreshToken id now => exact nomatch ho
    | revokeByTokenHash tokenHash now => exact nomatch ho
    | resetBatch id userId password now => exact nomatch ho
    | signAsync payload expiresIn => exact nomatch ho
    | deleteExpired now => exact nomatch ho
    | respond pair => exact nomatch ho
    | elapse duration => exact nomatch ho
    | _ => exact ⟨rfl, rfl, rfl, fun _ => rfl⟩
  obtain ⟨hquiet, htime, hkeeps, hrevokes⟩ := hkind
  apply hp.revokes hquiet htime hkeeps hx
  intro x userId e
  rw [← hp.valid]
  simp [AuthBackend.Valid, hrevokes]

/-- What is deleted had expired, so it was no longer valid. -/
theorem Progress.deleteExpired (hp : Progress cfg n V start w) {b : Nat}
    (hx : AuthBackend.exec cfg (.deleteExpired start) w.shared = .ok (b, s)) :
    Progress cfg n V start (w.commit n i (.deleteExpired start) s) := by
  have hclock := AuthBackend.exec_clock hx rfl
  have hdelete : ∀ r, r ∈ s.tables.refreshTokens ↔
      r ∈ w.shared.tables.refreshTokens ∧ start ≤ r.expiresAt := by
    intro r
    cases hx
    simp [AuthTables.deleteExpired, Table.mem_delete]
  constructor
  · exact hp.consistent.exec hx (by simp)
  · exact hclock.trans hp.clock
  · intro x userId e
    rw [← hp.valid]
    unfold AuthBackend.Valid
    rw [World.commit_shared, hclock, hp.clock]
    constructor
    · rintro ⟨hlater, r, hr, hrest⟩
      exact ⟨hlater, r, ((hdelete r).mp hr).1, hrest⟩
    · rintro ⟨hlater, r, hr, hhash, huser, rfl, hopen⟩
      exact ⟨hlater, r, (hdelete r).mpr ⟨hr, hlater⟩, hhash, huser, rfl, hopen⟩
  · exact quiet_commit hp rfl

/-- A call goes on from a neutral statement, whatever its reply. -/
theorem Progress.perform_bind {α : Type} {Q : Except AuthError α → AuthWorld → Prop}
    {f : o.Res → AuthCall α} (hp : Progress cfg n V start w) (ho : o.neutral = true)
    (hok : ∀ b s, AuthBackend.exec cfg o w.shared = .ok (b, s) →
      Progress cfg n V start (w.commit n i o s) →
      (f b).Ends (reliableDatabase cfg) n i Q (w.commit n i o s))
    (herr : ∀ e, Q (.error e) w) :
    (await o >>= f).Ends (reliableDatabase cfg) n i Q w := by
  apply Call.Ends.perform_bind
  · intro _
    exact herr _
  · intro b s hx
    exact hok b s hx (hp.neutral ho hx)
  · intro e _
    exact herr e

end Progress

/-- A call with this memory answered with `x`, beside an access token that it had signed
for the user; a refresh token that was issued then expires at `e`. -/
def AnswersWith (cfg : AuthConfig) (l : List (AuthStmt × AuthBackend)) (x : String) (userId : Id)
    (e : Millis) : Prop :=
  ∃ role s, .signAsync ⟨userId, role⟩ cfg.jwtAccessExpiresIn ∈ l.map Prod.fst ∧
    (.respond ⟨cfg.signJwt ⟨userId, role⟩ cfg.jwtAccessExpiresIn s.clock, x⟩, s) ∈ l ∧
    e = s.clock + cfg.ms cfg.jwtRefreshExpiresIn

theorem AnswersWith.responds {cfg : AuthConfig} {l : List (AuthStmt × AuthBackend)} {x : String}
    {userId : Id} {e : Millis} (h : AnswersWith cfg l x userId e) :
    ∃ pair, .respond pair ∈ l.map Prod.fst := by
  obtain ⟨role, s, -, hrespond, -⟩ := h
  exact ⟨_, List.mem_map_of_mem hrespond⟩

/-- A call with this outcome and these statements ends the session of `x`. -/
def EndsSession (i : AuthInvocation) (r : Except AuthError Unit) (l : List AuthStmt) (x : String)
    (userId : Id) : Prop :=
  (i = .refresh x ∧ r = .ok ()) ∨ i = .logout x ∨ ∃ dto, i = .resetPassword dto ∧ r = .ok () ∧
    ∃ id password now, .resetBatch id userId password now ∈ l

/-- What a served call has done to the sessions. -/
structure Served (cfg : AuthConfig) (i : AuthInvocation) (n : Nat) (w : AuthWorld)
    (r : Except AuthError Unit) (w' : AuthWorld) : Prop where
  consistent : w'.shared.Consistent cfg
  clock : w.shared.clock ≤ w'.shared.clock
  valid : ∀ x userId e, w'.shared.Valid cfg x userId e ↔ w'.shared.clock ≤ e ∧
    (w.shared.Valid cfg x userId e ∧ ¬ EndsSession i r (executed n w'.trace) x userId ∨
      AnswersWith cfg (memory n w'.trace) x userId e)
  refreshes : ∀ x, i = .refresh x → (r = .ok () ↔ ∃ userId e, w.shared.Valid cfg x userId e)

section Served
variable {cfg : AuthConfig} {n : Nat} {i : AuthInvocation} {w w' : AuthWorld}

/-- A call that begins no session, and is no successful refresh. -/
theorem Served.of_valid {r : Except AuthError Unit} (hconsistent : w'.shared.Consistent cfg)
    (hclock : w.shared.clock ≤ w'.shared.clock)
    (hvalid : ∀ x userId e, w'.shared.Valid cfg x userId e ↔ w'.shared.clock ≤ e ∧
      w.shared.Valid cfg x userId e ∧ ¬ EndsSession i r (executed n w'.trace) x userId)
    (hanswers : ∀ pair, .respond pair ∉ executed n w'.trace)
    (hrefresh : ∀ x, i = .refresh x → r ≠ .ok () ∧ ∀ userId e, ¬ w.shared.Valid cfg x userId e) :
    Served cfg i n w r w' := by
  constructor
  · exact hconsistent
  · exact hclock
  · intro x userId e
    have hnone : ¬ AnswersWith cfg (memory n w'.trace) x userId e := by
      intro h
      obtain ⟨pair, hpair⟩ := h.responds
      exact hanswers pair (memory_fst n w'.trace ▸ hpair)
    rw [hvalid, or_iff_left hnone]
  · intro x hx
    obtain ⟨hr, hvalid⟩ := hrefresh x hx
    exact ⟨fun h => absurd h hr, fun ⟨userId, e, h⟩ => absurd h (hvalid userId e)⟩

/-- A quiet call that has ended exactly the sessions it is said to end. -/
theorem Served.of_progress {V : String → Id → Millis → Prop} {r : Except AuthError Unit}
    (hp : Progress cfg n V w.shared.clock w')
    (hV : ∀ x userId e, V x userId e ↔ w.shared.Valid cfg x userId e ∧ i ≠ .logout x)
    (hrefresh : ∀ x, i = .refresh x → r ≠ .ok () ∧ ∀ userId e, ¬ w.shared.Valid cfg x userId e) :
    Served cfg i n w r w' := by
  have hends : ∀ x userId, EndsSession i r (executed n w'.trace) x userId ↔ i = .logout x := by
    intro x userId
    constructor
    · rintro (⟨hx, hr⟩ | hlogout | ⟨dto, -, -, id, password, now, hreset⟩)
      · exact absurd hr (hrefresh x hx).1
      · exact hlogout
      · exact nomatch hp.quiet _ hreset
    · exact fun h => Or.inr (Or.inl h)
  apply Served.of_valid hp.consistent (Nat.le_of_eq hp.clock.symm)
  · intro x userId e
    rw [hends, hp.valid, hp.clock, hV]
    exact ⟨fun h => ⟨h.1.1, h⟩, fun h => h.2⟩
  · exact fun pair h => nomatch hp.quiet _ h
  · exact hrefresh

/-- A call that comes to reset a password ends the sessions of that user. -/
theorem Served.of_reset {w₁ : AuthWorld} {s : AuthBackend} {dto : ResetPasswordDto}
    {id userId : Id} {password : String} {now : Millis} (hi : i = .resetPassword dto)
    (hp : Progress cfg n (w.shared.Valid cfg) w.shared.clock w₁)
    (hx : AuthBackend.exec cfg (.resetBatch id userId password now) w₁.shared = .ok ((), s)) :
    Served cfg i n w (.ok ()) (w₁.commit n i (.resetBatch id userId password now) s) := by
  have hclock := AuthBackend.exec_clock hx rfl
  have hexecuted := executed_commit_self w₁ n i (.resetBatch id userId password now) s
  have hends : ∀ x v, EndsSession i (.ok ())
      (executed n (w₁.commit n i (.resetBatch id userId password now) s).trace) x v ↔
        v = userId := by
    intro x v
    rw [hexecuted]
    constructor
    · rintro (⟨h, -⟩ | h | ⟨dto', -, -, id', password', now', h⟩)
      · cases hi.symm.trans h
      · cases hi.symm.trans h
      · rcases List.mem_append.mp h with h | h
        · cases hp.quiet _ h
        · simp only [List.mem_singleton, AuthStmt.resetBatch.injEq] at h
          exact h.2.1
    · rintro rfl
      exact Or.inr (Or.inr ⟨dto, hi, rfl, id, password, now, by simp⟩)
  apply Served.of_valid
  · exact hp.consistent.exec hx (by simp)
  · exact Nat.le_of_eq (hclock.trans hp.clock).symm
  · intro x v e
    obtain ⟨time, hrewrites⟩ := AuthBackend.exec_onRefreshToken hx rfl
    rw [hends, World.commit_shared, AuthBackend.valid_revoked hclock hrewrites, hclock,
      ← hp.valid]
    refine and_congr_right fun hlater => ?_
    constructor
    · rintro ⟨r, hr, hhash, rfl, rfl, hopen, hkept⟩
      exact ⟨⟨hlater, r, hr, hhash, rfl, rfl, hopen⟩,
        by simpa [AuthStmt.revokes, hopen] using hkept⟩
    · rintro ⟨⟨-, r, hr, hhash, rfl, rfl, hopen⟩, hne⟩
      exact ⟨r, hr, hhash, rfl, rfl, hopen, by simpa [AuthStmt.revokes, hopen] using hne⟩
  · intro pair h
    rw [hexecuted] at h
    rcases List.mem_append.mp h with h | h
    · cases hp.quiet _ h
    · simp at h
  · intro x hx
    cases hi.symm.trans hx

/-- A session of the pair's refresh token has begun, its access token is signed, and the
call has been quiet otherwise. -/
structure Begun (cfg : AuthConfig) (n : Nat) (V : String → Id → Millis → Prop) (start : Millis)
    (pair : TokenPairResponseDto) (userId : Id) (e : Millis) (w : AuthWorld) : Prop where
  consistent : w.shared.Consistent cfg
  clock : w.shared.clock = start
  expires : e = start + cfg.ms cfg.jwtRefreshExpiresIn
  valid : ∀ y v e', w.shared.Valid cfg y v e' ↔
    V y v e' ∨ (y = pair.refreshToken ∧ v = userId ∧ e' = e)
  executed : ∃ l role, (∀ o ∈ l, AuthStmt.quiet o = true) ∧
    executed n w.trace = l ++ [.signAsync ⟨userId, role⟩ cfg.jwtAccessExpiresIn, .now,
      .createRefreshToken userId e] ∧
    pair.accessToken = cfg.signJwt ⟨userId, role⟩ cfg.jwtAccessExpiresIn start

/-- The token is signed, and the one that is stored begins a session. -/
theorem issueTokenPair_begins {V : String → Id → Millis → Prop} {start : Millis}
    (hp : Progress cfg n V start w) {userId : Id} {role : Role}
    (huser : ∃ a ∈ w.shared.tables.users, a.id = userId) :
    (AuthService.issueTokenPair cfg userId role).Ends (reliableDatabase cfg) n i
      (fun r w' => ∃ pair e, r = .ok pair ∧ Begun cfg n V start pair userId e w') w := by
  apply Call.Ends.step rfl rfl
  apply Call.Ends.step rfl rfl
  obtain ⟨s, hx⟩ := AuthBackend.exec_createRefreshToken_ok hp.consistent.minted userId
    (w.shared.clock + cfg.ms cfg.jwtRefreshExpiresIn)
  apply Call.Ends.step rfl hx
  have hclock : s.clock = w.shared.clock := AuthBackend.exec_clock hx rfl
  refine ⟨_, _, rfl, ?_, hclock.trans hp.clock, congrArg (· + _) hp.clock, ?_, ?_⟩
  · apply hp.consistent.exec hx
    intro v e h
    cases h
    exact huser
  · intro y v e
    rw [← hp.valid]
    obtain ⟨-, refreshTokens, hc, rfl⟩ := AuthBackend.exec_createRefreshToken hx
    exact AuthBackend.valid_created hclock (Nat.le_add_right _ _) (Table.Extends.of_create hc) y v e
  · refine ⟨_, role, hp.quiet, ?_, by rw [← hp.clock]⟩
    simp only [executed_commit_self, List.append_assoc]
    rfl

/-- What is to be said of a call whose pair is still to be sent. -/
def Answered (cfg : AuthConfig) (i : AuthInvocation) (n : Nat) (w : AuthWorld)
    (r : Except AuthError TokenPairResponseDto) (w' : AuthWorld) : Prop :=
  match r with
  | .ok pair => Served cfg i n w (.ok ()) (w'.commit n i (.respond pair)
      { w'.shared with responses := w'.shared.responses ++ [pair] })
  | .error e => Served cfg i n w (.error e) w'

theorem answer_served {c : AuthCall TokenPairResponseDto}
    (h : c.Ends (reliableDatabase cfg) n i (Answered cfg i n w) w) :
    (AuthController.answer c).Ends (reliableDatabase cfg) n i (Served cfg i n w) w := by
  apply Call.Ends.bind
  apply h.mono
  intro r w' hr
  cases r with
  | error e => exact hr
  | ok pair =>
      apply Call.Ends.perform
      · nofun
      · intro b s hx
        cases hx
        exact hr
      · intro e hx
        cases hx

/-- A pair has been issued, and of the sessions there were all are left but those
of the token that was presented. -/
theorem Answered.of_begun {V : String → Id → Millis → Prop} {pair : TokenPairResponseDto}
    {userId : Id} {e : Millis} (h : Begun cfg n V w.shared.clock pair userId e w')
    (hi : ∀ x, i ≠ .logout x)
    (hV : ∀ y v e', V y v e' ↔ w.shared.Valid cfg y v e' ∧ i ≠ .refresh y)
    (hrefresh : ∀ x, i = .refresh x → ∃ u e, w.shared.Valid cfg x u e) :
    Answered cfg i n w (.ok pair) w' := by
  obtain ⟨l, role, hquiet, hl, hsigned⟩ := h.executed
  have hexecuted : executed n (w'.commit n i (.respond pair)
      { w'.shared with responses := w'.shared.responses ++ [pair] }).trace =
        l ++ [.signAsync ⟨userId, role⟩ cfg.jwtAccessExpiresIn, .now, .createRefreshToken userId e,
          .respond pair] := by
    rw [executed_commit_self, hl, List.append_assoc]
    rfl
  have hends : ∀ y v, EndsSession i (.ok ()) (l ++ [.signAsync ⟨userId, role⟩
      cfg.jwtAccessExpiresIn, .now, .createRefreshToken userId e, .respond pair]) y v ↔
        i = .refresh y := by
    intro y v
    constructor
    · rintro (⟨hrefresh, -⟩ | hlogout | ⟨dto, -, -, id, password, now, hreset⟩)
      · exact hrefresh
      · exact absurd hlogout (hi y)
      · rcases List.mem_append.mp hreset with hreset | hreset
        · cases hquiet _ hreset
        · simp at hreset
    · exact fun h => Or.inl ⟨h, rfl⟩
  -- Nothing before the pair is signed or answered, so the call issues this pair only.
  have hissues : ∀ y v e', AnswersWith cfg (memory n (w'.commit n i (.respond pair)
      { w'.shared with responses := w'.shared.responses ++ [pair] }).trace) y v e' ↔
        y = pair.refreshToken ∧ v = userId ∧ e' = e := by
    intro y v e'
    unfold AnswersWith
    rw [memory_commit_self]
    constructor
    · rintro ⟨role', s, hsign, hrespond, rfl⟩
      have hsign : .signAsync ⟨v, role'⟩ cfg.jwtAccessExpiresIn ∈ executed n (w'.commit n i
          (.respond pair) { w'.shared with responses := w'.shared.responses ++ [pair] }).trace := by
        rwa [← memory_fst, memory_commit_self]
      rw [hexecuted] at hsign
      rcases List.mem_append.mp hrespond with hrespond | hrespond
      · have hold : AuthStmt.respond _ ∈ executed n w'.trace :=
          memory_fst n w'.trace ▸ List.mem_map_of_mem hrespond
        rw [hl] at hold
        rcases List.mem_append.mp hold with hold | hold
        · cases hquiet _ hold
        · simp at hold
      · simp only [List.mem_singleton, Prod.mk.injEq, AuthStmt.respond.injEq] at hrespond
        obtain ⟨rfl, rfl⟩ := hrespond
        rcases List.mem_append.mp hsign with hsign | hsign
        · cases hquiet _ hsign
        · simp only [List.mem_cons, AuthStmt.signAsync.injEq, JwtPayload.mk.injEq, reduceCtorEq,
            List.not_mem_nil, or_false, and_true] at hsign
          exact ⟨rfl, hsign.1, by rw [h.clock, h.expires]⟩
    · rintro ⟨rfl, rfl, rfl⟩
      refine ⟨role, w'.shared, ?_, ?_, by rw [h.clock, h.expires]⟩
      · rw [List.map_append]
        refine List.mem_append_left _ (memory_fst n w'.trace ▸ hl ▸ ?_)
        simp
      rw [h.clock, ← hsigned]
      exact List.mem_append_right _ (List.mem_singleton_self _)
  constructor
  · exact ⟨h.consistent.minted, h.consistent.owned⟩
  · exact Nat.le_of_eq h.clock.symm
  · intro y v e'
    rw [hissues, hexecuted, hends]
    have hvalid := h.valid y v e'
    rw [hV] at hvalid
    constructor
    · intro hy
      exact ⟨hy.1, hvalid.mp hy⟩
    · rintro ⟨-, hy⟩
      exact hvalid.mpr hy
  · intro x hx
    exact ⟨fun _ => hrefresh x hx, fun _ => rfl⟩

end Served

section Calls
variable {cfg : AuthConfig} {n : Nat} {w : AuthWorld}

theorem Progress.begin (hw : w.shared.Consistent cfg) (hn : executed n w.trace = []) :
    Progress cfg n (w.shared.Valid cfg) w.shared.clock w where
  consistent := hw
  clock := rfl
  valid _ _ _ := Iff.rfl
  quiet o ho := by simp [hn] at ho

/-- A call that is no refresh and no logout may throw at any point, and return at any
point before a session begins. -/
theorem Served.of_quiet {i : AuthInvocation} {r : Except AuthError Unit} {w' : AuthWorld}
    (hlogout : ∀ x, i ≠ .logout x) (hrefresh : ∀ x, i ≠ .refresh x)
    (hp : Progress cfg n (w.shared.Valid cfg) w.shared.clock w') : Served cfg i n w r w' :=
  .of_progress hp (by simp [hlogout]) fun x hx => absurd hx (hrefresh x)

variable (hw : w.shared.Consistent cfg) (hn : executed n w.trace = [])
include hw hn

theorem register_served (dto : RegisterDto) :
    ((AuthInvocation.register dto).code cfg).Ends (reliableDatabase cfg) n (.register dto)
      (Served cfg (.register dto) n w) w := by
  have throws (e : AuthError) {w' : AuthWorld}
      (hp : Progress cfg n (w.shared.Valid cfg) w.shared.clock w') :
      Answered cfg (.register dto) n w (.error e) w' := Served.of_quiet nofun nofun hp
  apply answer_served
  have hp := Progress.begin hw hn
  apply hp.perform_bind rfl _ fun e => throws e hp
  intro existing s₁ _ hp
  apply Call.Ends.ensure_bind _ fun _ => throws _ hp
  intro _
  apply hp.perform_bind rfl _ fun e => throws e hp
  intro passwordHash s₂ _ hp
  apply hp.perform_bind rfl _ fun e => throws e hp
  intro user s₃ hx hp
  obtain ⟨users, hc, -, rfl⟩ := AuthBackend.exec_createUser hx
  have huser : user ∈ users := (Table.mem_create hc user).mpr (Or.inr rfl)
  apply (issueTokenPair_begins hp ⟨user, huser, rfl⟩).mono
  rintro r w' ⟨pair, e, rfl, hbegun⟩
  apply Answered.of_begun hbegun <;> simp

theorem login_served (dto : LoginDto) :
    ((AuthInvocation.login dto).code cfg).Ends (reliableDatabase cfg) n (.login dto)
      (Served cfg (.login dto) n w) w := by
  have throws (e : AuthError) {w' : AuthWorld}
      (hp : Progress cfg n (w.shared.Valid cfg) w.shared.clock w') :
      Answered cfg (.login dto) n w (.error e) w' := Served.of_quiet nofun nofun hp
  apply answer_served
  have hp := Progress.begin hw hn
  apply hp.perform_bind rfl _ fun e => throws e hp
  intro found s₁ hx hp
  cases hx
  apply Call.Ends.required_bind _ fun _ => throws _ hp
  intro user hfind
  apply hp.perform_bind rfl _ fun e => throws e hp
  intro valid s₂ hx hp
  cases hx
  apply Call.Ends.ensure_bind _ fun _ => throws _ hp
  intro _
  have huser := (AuthTables.findUserByPhone_some hfind).1
  apply (issueTokenPair_begins hp ⟨user, huser, rfl⟩).mono
  rintro r w' ⟨pair, e, rfl, hbegun⟩
  apply Answered.of_begun hbegun <;> simp

theorem refresh_served (x : String) :
    ((AuthInvocation.refresh x).code cfg).Ends (reliableDatabase cfg) n (.refresh x)
      (Served cfg (.refresh x) n w) w := by
  -- The token is rejected when, and only when, it is not valid.
  have rejects (e : AuthError) {w' : AuthWorld}
      (hp : Progress cfg n (w.shared.Valid cfg) w.shared.clock w')
      (hinvalid : ∀ r, w.shared.tables.findRefreshToken (cfg.hashToken x) = some r →
        r.revokedAt = none → r.expiresAt < w.shared.clock) :
      Answered cfg (.refresh x) n w (.error e) w' := by
    refine Served.of_progress hp (by simp) fun y hy => ⟨by simp, fun userId e h => ?_⟩
    cases hy
    obtain ⟨r, hfind, hopen, htime, -⟩ := AuthBackend.valid_iff_find.mp h
    exact htime (hinvalid r hfind hopen)
  apply answer_served
  have hp := (Progress.begin hw hn).neutral (i := .refresh x)
    (o := .findRefreshToken (cfg.hashToken x)) rfl rfl
  apply Call.Ends.step rfl rfl
  apply Call.Ends.required_bind
  case hnone =>
    intro hnone
    apply rejects _ hp
    intro r hr
    cases hnone.symm.trans hr
  intro stored hfind
  have hfound : w.shared.tables.findRefreshToken (cfg.hashToken x) = some stored := hfind
  have unique {r : RefreshToken}
      (hr : w.shared.tables.findRefreshToken (cfg.hashToken x) = some r) : r = stored :=
    Option.some.inj (hr.symm.trans hfound)
  apply Call.Ends.ensure_bind
  case hneg =>
    exact fun hrevoked => rejects _ hp fun r hr hopen => absurd (unique hr ▸ hopen) hrevoked
  intro hopen
  have hp := hp.neutral (i := .refresh x) (o := .now) rfl rfl
  apply Call.Ends.step rfl rfl
  apply Call.Ends.ensure_bind
  case hneg => exact fun hexpired => rejects _ hp fun r hr _ => unique hr ▸ not_not.mp hexpired
  intro htime
  have hvalid : w.shared.Valid cfg x stored.userId stored.expiresAt :=
    AuthBackend.valid_iff_find.mpr ⟨stored, hfound, hopen, htime, rfl, rfl⟩
  have hp := hp.neutral (i := .refresh x) (o := .now) rfl rfl
  apply Call.Ends.step rfl rfl
  obtain ⟨hstored, hhash⟩ := AuthTables.findRefreshToken_eq_some.mp hfound
  obtain ⟨q, s, hx⟩ := AuthBackend.exec_revokeRefreshToken_ok (s := w.shared)
    hstored w.shared.clock
  have hp := hp.endsToken (i := .refresh x) (x := x) rfl rfl rfl hx fun r hr _ => by
    simp only [AuthStmt.revokes, decide_eq_false_iff_not, ne_eq, not_iff_not]
    constructor
    · intro hid
      rw [RefreshToken.eq_of_id hr hstored hid, hhash]
    · intro hrhash
      rw [RefreshToken.eq_of_tokenHash hr hstored (hrhash.trans hhash.symm)]
  apply Call.Ends.step rfl hx
  have huser := AuthBackend.exec_hasUser hx (hw.owned stored hstored)
  obtain ⟨user, hfinduser⟩ := AuthTables.findUser_isSome huser
  have hp := hp.neutral (i := .refresh x) (o := .findUser stored.userId) rfl rfl
  apply Call.Ends.step rfl rfl
  apply Call.Ends.required_bind
  case hnone =>
    intro hnone
    cases hnone.symm.trans hfinduser
  intro user hfinduser
  obtain ⟨husermem, -⟩ := AuthTables.findUser_some hfinduser
  apply (issueTokenPair_begins hp ⟨user, husermem, rfl⟩).mono
  rintro r w' ⟨pair, e, rfl, hbegun⟩
  apply Answered.of_begun hbegun
  · simp
  · intro y v e
    simp [eq_comm]
  · intro y hy
    cases hy
    exact ⟨_, _, hvalid⟩

theorem forgotPassword_served (dto : ForgotPasswordDto) :
    ((AuthInvocation.forgotPassword dto).code cfg).Ends (reliableDatabase cfg) n
      (.forgotPassword dto) (Served cfg (.forgotPassword dto) n w) w := by
  have hends : ((AuthInvocation.forgotPassword dto).code cfg).Ends (reliableDatabase cfg) n
      (.forgotPassword dto)
      (fun _ w' => Progress cfg n (w.shared.Valid cfg) w.shared.clock w') w := by
    apply Call.Ends.of_uses (P := fun o => AuthStmt.neutral o = true)
    · exact fun _ _ _ _ ho hp hx => hp.neutral ho hx
    · apply forgotPassword_uses <;> intros <;> rfl
    · exact .begin hw hn
  apply hends.mono
  intro r w' hp
  exact .of_quiet nofun nofun hp

theorem logout_served (x : String) :
    ((AuthInvocation.logout x).code cfg).Ends (reliableDatabase cfg) n (.logout x)
      (Served cfg (.logout x) n w) w := by
  have hp := (Progress.begin hw hn).neutral (i := .logout x) (o := .now) rfl rfl
  apply Call.Ends.step rfl rfl
  obtain ⟨s, hx⟩ := AuthBackend.exec_revokeByTokenHash_ok (s := w.shared)
    (cfg.hashToken x) w.shared.clock
  have hp := hp.endsToken (i := .logout x) (x := x) rfl rfl rfl hx fun r _ hopen => by
    simp [AuthStmt.revokes, hopen]
  apply Call.Ends.perform
  · intro hexternal
    cases hexternal
  · intro b s' hx'
    cases hx.symm.trans hx'
    apply Served.of_progress hp
    · intro y userId e
      simp [eq_comm]
    · intro y hy
      cases hy
  · intro e hx'
    cases hx.symm.trans hx'

theorem resetPassword_served (dto : ResetPasswordDto) :
    ((AuthInvocation.resetPassword dto).code cfg).Ends (reliableDatabase cfg) n
      (.resetPassword dto) (Served cfg (.resetPassword dto) n w) w := by
  have throws (e : AuthError) {w' : AuthWorld}
      (hp : Progress cfg n (w.shared.Valid cfg) w.shared.clock w') :
      Served cfg (.resetPassword dto) n w (.error e) w' := .of_quiet nofun nofun hp
  have hp := Progress.begin hw hn
  apply hp.perform_bind rfl _ fun e => throws e hp
  intro found s₁ _ hp
  apply Call.Ends.required_bind _ fun _ => throws _ hp
  intro user _
  apply hp.perform_bind rfl _ fun e => throws e hp
  intro now s₂ _ hp
  apply hp.perform_bind rfl _ fun e => throws e hp
  intro code s₃ _ hp
  apply Call.Ends.required_bind _ fun _ => throws _ hp
  intro stored _
  apply hp.perform_bind rfl _ fun e => throws e hp
  intro passwordHash s₄ _ hp
  apply hp.perform_bind rfl _ fun e => throws e hp
  intro now s₅ _ hp
  apply Call.Ends.perform (fun _ => throws _ hp) _ fun e _ => throws e hp
  intro b s hx
  exact .of_reset rfl hp hx

theorem removeExpiredRefreshTokens_served :
    (AuthInvocation.removeExpiredRefreshTokens.code cfg).Ends (reliableDatabase cfg) n
      .removeExpiredRefreshTokens (Served cfg .removeExpiredRefreshTokens n w) w := by
  have hp := (Progress.begin hw hn).neutral (i := .removeExpiredRefreshTokens) (o := .now) rfl rfl
  apply Call.Ends.step rfl rfl
  apply Call.Ends.step rfl rfl
  exact .of_quiet nofun nofun (hp.deleteExpired rfl)

theorem elapse_served (duration : Millis) :
    ((AuthInvocation.elapse duration).code cfg).Ends (reliableDatabase cfg) n
      (.elapse duration) (Served cfg (.elapse duration) n w) w := by
  apply Call.Ends.perform nofun _ nofun
  intro b s hx
  have hx : AuthBackend.exec cfg (.elapse duration) w.shared = .ok (b, s) := hx
  have hexecuted : executed n (w.commit n (.elapse duration) (.elapse duration) s).trace =
      [.elapse duration] := by
    rw [executed_commit_self, hn]
    rfl
  apply Served.of_valid
  · exact hw.exec hx nofun
  · cases hx
    exact Nat.le_add_right _ _
  · intro x userId e
    rw [hexecuted]
    cases hx
    have hnot : ¬ EndsSession (.elapse duration) (.ok ()) [.elapse duration] x userId := by
      simp [EndsSession]
    simp only [hnot, not_false_eq_true, and_true, AuthBackend.Valid, World.commit_shared]
    exact ⟨fun h => ⟨h.1, Nat.le_trans (Nat.le_add_right _ _) h.1, h.2⟩, fun h => ⟨h.1, h.2.2⟩⟩
  · intro pair
    rw [hexecuted]
    simp
  · nofun

theorem code_served (i : AuthInvocation) :
    (i.code cfg).Ends (reliableDatabase cfg) n i (Served cfg i n w) w := by
  cases i with
  | register dto => exact register_served hw hn dto
  | login dto => exact login_served hw hn dto
  | refresh x => exact refresh_served hw hn x
  | forgotPassword dto => exact forgotPassword_served hw hn dto
  | resetPassword dto => exact resetPassword_served hw hn dto
  | logout x => exact logout_served hw hn x
  | removeExpiredRefreshTokens => exact removeExpiredRefreshTokens_served hw hn
  | elapse duration => exact elapse_served hw hn duration

end Calls

end Reedr
